import CellMachine.Text.Quoted

/-!
# Decimal numerals

Reading and writing of 64-bit signed integers. A numeral is an optional sign
and one or more decimal digits. Digits are read from the left, and the first
thing that goes wrong decides the fault: a character that is no digit, or a
magnitude that no longer fits 64 bits.
-/

namespace CellMachine

/-- Why a text is not a numeral of a 64-bit integer. -/
inductive NumeralFault where
  | malformed
  | outOfRange
deriving DecidableEq, Inhabited

/-- The wording of a fault. -/
def NumeralFault.message : NumeralFault → String
  | malformed => "invalid syntax"
  | outOfRange => "value out of range"

/-- What a value was read for: a cell, an index or count, or a truth value. -/
inductive Reading where
  | cell
  | index
  | truth
deriving DecidableEq, Inhabited

/-- How a reading names itself in messages. -/
def Reading.title : Reading → String
  | cell => "strconv.ParseInt"
  | index => "strconv.Atoi"
  | truth => "strconv.ParseBool"

/-- A text that could not be read. -/
structure ReadingError where
  reading : Reading
  text : Text
  fault : NumeralFault
deriving DecidableEq, Inhabited

/-- The wording of a reading error. -/
def ReadingError.message (e : ReadingError) : String :=
  e.reading.title ++ ": parsing " ++ Quoted.quote e.text ++ ": " ++ e.fault.message

namespace Numeral

/-- The number of values that 64 bits tell apart. -/
abbrev wordCount : Nat := 18446744073709551616

/-- The least 64-bit signed integer. -/
abbrev least : Int := -9223372036854775808

/-- The greatest 64-bit signed integer. -/
abbrev greatest : Int := 9223372036854775807

/-- The value of a decimal digit. -/
def digit? : Glyph → Option Nat
  | .char c => if c.isDigit then some (c.toNat - '0'.toNat) else none
  | .stray _ => none

/-- The magnitude read so far, continued by the digits of a text. -/
def magnitude (n : Nat) : Text → Except NumeralFault Nat
  | [] => .ok n
  | g :: rest =>
    match digit? g with
    | none => .error .malformed
    | some d => if n * 10 + d < wordCount then magnitude (n * 10 + d) rest else .error .outOfRange

/-- The magnitude of a text of one or more digits. -/
def unsigned (t : Text) : Except NumeralFault Nat :=
  if t.isEmpty then .error .malformed else magnitude 0 t

/-- The integer a text denotes. -/
def signed (t : Text) : Except NumeralFault Int :=
  match t with
  | .char '+' :: digits => (unsigned digits).map Int.ofNat
  | .char '-' :: digits => (unsigned digits).map fun n => -Int.ofNat n
  | digits => (unsigned digits).map Int.ofNat

/-- The 64-bit integer a text denotes. -/
def int64 (t : Text) : Except NumeralFault Int64 :=
  match signed t with
  | .error fault => .error fault
  | .ok n =>
    if least ≤ n ∧ n ≤ greatest then .ok (Int64.ofInt n) else .error .outOfRange

/-- The 64-bit integer a text denotes, or what is wrong with the text. -/
def read (reading : Reading) (t : Text) : Except ReadingError Int64 :=
  match int64 t with
  | .ok n => .ok n
  | .error fault => .error ⟨reading, t, fault⟩

/-- The numeral of an integer. -/
def write (n : Int) : String :=
  match n with
  | .ofNat k => String.ofList (Nat.toDigits 10 k)
  | .negSucc k => String.ofList ('-' :: Nat.toDigits 10 (k + 1))

/-- The numeral of a cell. -/
def writeCell (v : Int64) : String :=
  write v.toInt

end Numeral

end CellMachine
