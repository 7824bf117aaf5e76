import CellMachine.Number.Double
import CellMachine.Yaml.Timestamp

/-!
# Plain scalars

What a plain scalar stands for: nothing, a truth value, an integer, a number of
double precision, a moment, or itself. Integers may be written in base 2, 8, 10
or 16 and with underscores between digits.
-/

namespace CellMachine.Yaml

/-- What a scalar stands for. -/
inductive Scalar where
  | null
  | bool (b : Bool)
  | int (n : Int)
  | double (d : Double)
  | moment (m : Moment)
  | text
deriving DecidableEq, Inhabited

namespace Scalar

/-- The number that digits denote after the mark of their base, if they have one. -/
def magnitude? : List Char → Option Nat
  | '0' :: 'x' :: cs | '0' :: 'X' :: cs => digitsOf? 16 cs
  | '0' :: 'o' :: cs | '0' :: 'O' :: cs => digitsOf? 8 cs
  | '0' :: 'b' :: cs | '0' :: 'B' :: cs => digitsOf? 2 cs
  | '0' :: c :: cs => digitsOf? 8 (c :: cs)
  | cs => digitsOf? 10 cs

/-- The number, if it is within 64 bits. -/
def within (low high n : Int) : Option Int :=
  if low ≤ n ∧ n ≤ high then some n else none

/-- The integer of digits behind a sign. -/
def signed? (digits? : List Char → Option Nat) : List Char → Option Int
  | '+' :: cs => (digits? cs).bind fun n => within 0 Numeral.greatest n
  | '-' :: cs => (digits? cs).bind fun n => within Numeral.least 0 (-n)
  | cs => (digits? cs).bind fun n => within 0 (Numeral.wordCount - 1) n

/-- The integer that a text without underscores denotes. After `0b` and `0o` the
sign may also stand behind the mark. -/
def int? (cs : List Char) : Option Int :=
  (signed? magnitude? cs).orElse fun _ =>
    match cs with
    | '0' :: 'b' :: cs => signed? (digitsOf? 2) cs
    | '0' :: 'o' :: cs => signed? (digitsOf? 8) cs
    | _ => none

/-- The number of double precision that a text denotes. -/
def double? (cs : List Char) : Option Double :=
  (Decimal.ofText? cs).bind Double.ofDecimal?

/-- The words with a meaning of their own. -/
def word? : String → Option Scalar
  | "" | "~" | "null" | "Null" | "NULL" => some .null
  | "true" | "True" | "TRUE" => some (.bool true)
  | "false" | "False" | "FALSE" => some (.bool false)
  | ".nan" | ".NaN" | ".NAN" => some (.double .notANumber)
  | ".inf" | ".Inf" | ".INF" | "+.inf" | "+.Inf" | "+.INF" => some (.double (.infinite false))
  | "-.inf" | "-.Inf" | "-.INF" => some (.double (.infinite true))
  | _ => none

/-- The number that a text denotes, if it is one. -/
def number? (s : String) : Option Scalar :=
  let plain := s.toList.filter (· != '_')
  ((int? plain).map .int).orElse fun _ => (double? plain).map .double

/-- The number that a text with a point at its front denotes. Underscores stand
between digits. -/
def pointed? (cs : List Char) : Option Scalar :=
  if underscoresBetween false cs then (double? (cs.filter (· != '_'))).map .double else none

/-- What a plain scalar stands for, where dates count only if `dates` says so. -/
def resolve (dates : Bool) (s : String) : Scalar :=
  match word? s with
  | some v => v
  | none =>
    match s.toList with
    | [] => .null
    | c :: cs =>
      if c = '+' ∨ c = '-' ∨ c.isDigit then
        match if dates then Timestamp.moment? s else none with
        | some m => .moment m
        | none => (number? s).getD .text
      else if c = '.' then (pointed? (c :: cs)).getD .text
      else .text

/-- What a plain scalar stands for. -/
def ofPlain (s : String) : Scalar :=
  resolve true s

end Scalar

end CellMachine.Yaml
