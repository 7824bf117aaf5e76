import CellMachine.Number.Decimal
import CellMachine.Text.Numeral

/-!
# Numbers of double precision

A number of double precision is `± m · 2 ^ q` with `m` below `2 ^ 53` and `q` at
least `-1074`. A decimal fraction is rounded to the nearest one, a half to the
even neighbour. Written back, a number has the fewest digits that are rounded to
it, and of those the nearest.
-/

namespace CellMachine

/-- A number of double precision. -/
inductive Double where
  /-- The number `± mantissa · 2 ^ exponent`. -/
  | finite (negative : Bool) (mantissa : Nat) (exponent : Int)
  | infinite (negative : Bool)
  | notANumber
deriving DecidableEq, Inhabited

namespace Double

/-- The least mantissa of a number that is not close to zero: `2 ^ 52`. -/
def leastMantissa : Nat := 4503599627370496

/-- The least exponent. -/
def leastExponent : Int := -1074

/-- The greatest exponent. -/
def greatestExponent : Int := 971

/-- A quotient rounded to the nearest number, a half to the even neighbour. -/
def roundedQuotient (num den : Nat) : Nat :=
  let q := num / den
  let r := num % den
  if den < 2 * r ∨ (2 * r = den ∧ q % 2 = 1) then q + 1 else q

/-- The numerator and denominator of `num / den` in units of `2 ^ exponent`. -/
def inUnits (num den : Nat) (exponent : Int) : Nat × Nat :=
  if 0 ≤ exponent then (num, den * Nat.pow 2 exponent.natAbs)
  else (num * Nat.pow 2 exponent.natAbs, den)

/-- The exponent of the number nearest to a positive quotient: with it the
mantissa has 53 bits, if that exponent is not too small. -/
def exponentFor (num den : Nat) : Int :=
  let e : Int := max ((Nat.log2 num : Int) - Nat.log2 den - 53) leastExponent
  let (n, d) := inUnits num den e
  if n / d < 2 * leastMantissa then e else e + 1

/-- The number nearest to a quotient, unless that is too large. -/
def ofQuotient? (negative : Bool) (num den : Nat) : Option Double :=
  if num = 0 then some (.finite negative 0 0)
  else
    let e := exponentFor num den
    let (n, d) := inUnits num den e
    let m := roundedQuotient n d
    let (m, e) := if m = 2 * leastMantissa then (leastMantissa, e + 1) else (m, e)
    if greatestExponent < e then none
    else some (.finite negative m (if m = 0 then 0 else e))

/-- The number nearest to a decimal fraction, unless that is too large. -/
def ofDecimal? (d : Decimal) : Option Double :=
  let size := d.exponent + (Nat.toDigits 10 d.digits).length
  if d.digits = 0 ∨ size < -400 then some (.finite d.negative 0 0)
  else if 400 < size then none
  else if 0 ≤ d.exponent then
    ofQuotient? d.negative (d.digits * Nat.pow 10 d.exponent.natAbs) 1
  else ofQuotient? d.negative d.digits (Nat.pow 10 d.exponent.natAbs)

/-- Of the multiples of `10 ^ k` next to a number, the nearer one among those that
are rounded to the number; a tie goes to the even multiple. The number is
`m · 2 ^ e`, not zero. -/
def multiple? (m : Nat) (e k : Int) : Option Nat :=
  let unit := e - 2
  let x := Nat.pow 10 k.toNat * Nat.pow 2 (-unit).toNat
  let y := Nat.pow 2 unit.toNat * Nat.pow 10 (-k).toNat
  let gap := if m = leastMantissa ∧ leastExponent < e then 1 else 2
  let low := (4 * m - gap) * y
  let high := (4 * m + 2) * y
  let inside := fun (c : Nat) =>
    if m % 2 = 0 then low ≤ c * x && c * x ≤ high else low < c * x && c * x < high
  let below := 4 * m * y / x
  let nearest := roundedQuotient (4 * m * y) x
  let other := if nearest = below then below + 1 else below
  if nearest ≠ 0 && inside nearest then some nearest
  else if other ≠ 0 && inside other then some other
  else none

/-- The decimal fraction with the fewest digits that is rounded to `m · 2 ^ e`. -/
def shortest (negative : Bool) (m : Nat) (e : Int) : Decimal :=
  ((List.range 660).findSome? fun (i : Nat) =>
    let k : Int := 310 - (i : Int)
    (multiple? m e k).map fun c => ⟨negative, c, k⟩).getD ⟨negative, 0, 0⟩

/-- The decimal fraction in which a finite number is written. -/
def decimal (negative : Bool) (m : Nat) (e : Int) : Decimal :=
  if m = 0 then ⟨negative, 0, 0⟩ else shortest negative m e

/-- The positional form of a number. -/
def text : Double → String
  | finite negative m e => (decimal negative m e).text
  | infinite false => "+Inf"
  | infinite true => "-Inf"
  | notANumber => "NaN"

/-- The form of a number that has an exponent where that is below `-4` or above
five. -/
def compactText : Double → String
  | finite negative m e =>
    let d := decimal negative m e
    let size : Int := d.exponent + (Nat.toDigits 10 d.digits).length - 1
    if d.digits ≠ 0 && (size < -4 || 6 ≤ size) then d.scientificText else d.text
  | d => d.text

/-- Whether a number is other than zero. -/
def isNonzero : Double → Bool
  | finite _ m _ => m != 0
  | _ => true

/-- The whole part of a number, or the least 64-bit integer where 64 bits do not
hold it. -/
def whole : Double → Int
  | finite negative m e =>
    let n : Nat := if 0 ≤ e then m * Nat.pow 2 e.natAbs else m / Nat.pow 2 e.natAbs
    let n : Int := if negative then -n else n
    if Numeral.least ≤ n ∧ n ≤ Numeral.greatest then n else Numeral.least
  | _ => Numeral.least

/-- The number nearest to an integer. -/
def ofInt (n : Int) : Double :=
  (ofQuotient? (n < 0) n.natAbs 1).getD (.infinite (n < 0))

end Double

end CellMachine
