/-!
# Decimal fractions

Reading of decimal fractions with a point and an exponent, digits of a base, and
the positional form in which a fraction is written.
-/

namespace CellMachine

/-- A decimal fraction `± digits · 10 ^ exponent`. -/
structure Decimal where
  negative : Bool
  digits : Nat
  exponent : Int
deriving DecidableEq, Inhabited

/-- The value of a digit in a base up to sixteen. -/
def digitOf? (base : Nat) (c : Char) : Option Nat :=
  let n :=
    if c.isDigit then c.toNat - '0'.toNat
    else if 'a' ≤ c ∧ c ≤ 'f' then c.toNat - 'a'.toNat + 10
    else if 'A' ≤ c ∧ c ≤ 'F' then c.toNat - 'A'.toNat + 10
    else base
  if n < base then some n else none

/-- The number that digits denote in a base. -/
def digitsOf? (base : Nat) : List Char → Option Nat
  | [] => none
  | cs => cs.foldlM (fun n c => (digitOf? base c).map (base * n + ·)) 0

/-- Whether every underscore of a numeral stands between two digits. `digit` tells
that a digit stands before. -/
def underscoresBetween (digit : Bool) : List Char → Bool
  | [] => true
  | '_' :: rest => digit && rest.head?.any Char.isDigit && underscoresBetween false rest
  | c :: rest => underscoresBetween c.isDigit rest

namespace Decimal

/-- The exponent at the end of a decimal fraction. -/
def exponent? : List Char → Option Int
  | [] => some 0
  | e :: cs =>
    if e = 'e' ∨ e = 'E' then
      match cs with
      | '-' :: cs => (digitsOf? 10 cs).map fun n => -n
      | '+' :: cs => (digitsOf? 10 cs).map fun n => n
      | cs => (digitsOf? 10 cs).map fun n => n
    else none

/-- The decimal fraction that a text without sign denotes. -/
def unsigned? (negative : Bool) (cs : List Char) : Option Decimal :=
  let whole := cs.takeWhile Char.isDigit
  match cs.drop whole.length with
  | '.' :: rest =>
    let part := rest.takeWhile Char.isDigit
    if whole.isEmpty && part.isEmpty then none
    else do
      let e ← exponent? (rest.drop part.length)
      let n ← digitsOf? 10 (whole ++ part)
      return ⟨negative, n, e - part.length⟩
  | rest => do
    let n ← digitsOf? 10 whole
    let e ← exponent? rest
    return ⟨negative, n, e⟩

/-- The decimal fraction that a text denotes. -/
def ofText? : List Char → Option Decimal
  | '+' :: cs => unsigned? false cs
  | '-' :: cs => unsigned? true cs
  | cs => unsigned? false cs

/-- The positional form of a decimal fraction, without an exponent and without
zeros at the end of its fraction. -/
def text (d : Decimal) : String :=
  let sign := if d.negative then "-" else ""
  let cs := Nat.toDigits 10 d.digits
  if d.digits = 0 then sign ++ "0"
  else if 0 ≤ d.exponent then
    sign ++ String.ofList (cs ++ List.replicate d.exponent.toNat '0')
  else
    let places := d.exponent.natAbs
    let cs := List.replicate (places + 1 - cs.length) '0' ++ cs
    let whole := cs.take (cs.length - places)
    let part := ((cs.drop (cs.length - places)).reverse.dropWhile (· == '0')).reverse
    sign ++ String.ofList whole ++ (if part.isEmpty then "" else "." ++ String.ofList part)

/-- The form with one digit before the point and an exponent of at least two
digits. -/
def scientificText (d : Decimal) : String :=
  let cs := Nat.toDigits 10 d.digits
  let e : Int := d.exponent + cs.length - 1
  let part := (cs.tail.reverse.dropWhile (· == '0')).reverse
  let es := Nat.toDigits 10 e.natAbs
  (if d.negative then "-" else "") ++ String.ofList (cs.take 1) ++
    (if part.isEmpty then "" else "." ++ String.ofList part) ++
    (if e < 0 then "e-" else "e+") ++ String.ofList (List.replicate (2 - es.length) '0' ++ es)

end Decimal

end CellMachine
