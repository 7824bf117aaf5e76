import CellMachine.Text.Blank
import CellMachine.Number.Double

/-!
# Values of settings

A setting's value comes from a flag, the environment or a configuration file,
and is taken as a text, a truth value, a count or a list of texts, whatever form
it was given in. What makes no sense in a form counts as empty, false or zero.
-/

namespace CellMachine

/-- A value from a configuration file. -/
inductive ConfigValue where
  | null
  | truth (b : Bool)
  | integer (n : Int)
  | double (d : Double)
  | text (s : String)
  /-- A date, a time of day or both, by its written form. -/
  | moment (text : String)
  | list (items : List ConfigValue)
  | table (members : List (String × ConfigValue))
deriving Inhabited

/-- The words for truth values. -/
def truthOfWord? : String → Option Bool
  | "1" | "t" | "T" | "TRUE" | "true" | "True" => some true
  | "0" | "f" | "F" | "FALSE" | "false" | "False" => some false
  | _ => none

namespace Count

/-- Whether the underscores of a numeral stand between digits, or between the
mark of a base and a digit. `digit` tells that a digit or such a mark stands
before. -/
def underscoresFit (digit : Bool) : List Char → Bool
  | [] => true
  | '_' :: rest =>
    digit && (rest.head?.any fun c => c.isAlphanum) && underscoresFit false rest
  | c :: rest => underscoresFit c.isAlphanum rest

/-- The base of a numeral without sign, told by how it starts, and its digits. -/
def baseOf : List Char → Nat × List Char
  | '0' :: m :: c :: rest =>
    if m = 'x' ∨ m = 'X' then (16, c :: rest)
    else if m = 'o' ∨ m = 'O' then (8, c :: rest)
    else if m = 'b' ∨ m = 'B' then (2, c :: rest)
    else (8, m :: c :: rest)
  | ['0', c] => (8, [c])
  | cs => (10, cs)

/-- The magnitude read so far, continued by digits from the left. -/
def magnitude (base n : Nat) : List Char → Except NumeralFault Nat
  | [] => .ok n
  | '_' :: rest => magnitude base n rest
  | c :: rest =>
    match digitOf? base c with
    | none => .error .malformed
    | some d => if n * base + d < Numeral.wordCount then magnitude base (n * base + d) rest
      else .error .outOfRange

/-- The integer of a numeral in base 2, 8, 10 or 16, or why there is none. -/
def read (s : String) : Except NumeralFault Int :=
  let (negative, cs) := match s.toList with
    | '+' :: cs => (false, cs)
    | '-' :: cs => (true, cs)
    | cs => (false, cs)
  let (base, digits) := baseOf cs
  if digits.isEmpty then .error .malformed
  else
    match magnitude base 0 digits with
    | .error fault => .error fault
    | .ok n =>
      let n : Int := if negative then -n else n
      if !underscoresFit false cs then .error .malformed
      else if Numeral.least ≤ n ∧ n ≤ Numeral.greatest then .ok n else .error .outOfRange

/-- The text before a fraction that is zero. -/
def dropZeroFraction (s : String) : String :=
  let cs := s.toList
  let whole := cs.takeWhile (· != '.')
  match cs.drop whole.length with
  | '.' :: rest => if !rest.isEmpty && rest.all (· == '0') then String.ofList whole else s
  | _ => s

end Count

namespace ConfigValue

/-- A value as a text. -/
def toText : ConfigValue → String
  | text s => s
  | truth b => if b then "true" else "false"
  | integer n => Numeral.write n
  | double d => d.text
  | moment t => t
  | _ => ""

/-- A value as a truth value. -/
def toTruth : ConfigValue → Bool
  | truth b => b
  | integer n => n != 0
  | double d => d.isNonzero
  | text s => (truthOfWord? s).getD false
  | _ => false

/-- The integer that 64 bits hold for an integer: one too large starts again from
the least. -/
def wrapped (n : Int) : Int :=
  if n ≤ Numeral.greatest then n else n - Numeral.wordCount

/-- A value as a count. -/
def toCount : ConfigValue → Int
  | truth b => if b then 1 else 0
  | integer n => wrapped n
  | double d => d.whole
  | text s =>
    match Count.read (Count.dropZeroFraction s) with
    | .ok n => n
    | .error _ => 0
  | _ => 0

/-- A value as a list of texts. A text is split at white space. -/
def toItems : ConfigValue → List String
  | list items => items.map toText
  | text s => (Text.ofString s).fields.map Text.toString
  | null | table _ => []
  | v => [v.toText]

end ConfigValue

end CellMachine
