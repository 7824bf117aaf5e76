import CellMachine.Settings.Value

/-!
# Written numbers

Integers in base 2, 8, 10 or 16 and numbers with a point or an exponent. Underscores
may stand between digits.
-/

namespace CellMachine.Toml

/-- What is wrong with a number. -/
inductive NumberFault where
  | startsWithUnderscore
  | endsWithUnderscore
  | twoUnderscores
  | underscoreBeforeExponent
  | underscoreAfterExponent
  | underscoreBeforePoint
  | underscoreAfterPoint
  | leadingZero
  /-- Digits that are not of their base or too many. -/
  | integer (base : Nat) (text : String) (fault : NumeralFault)
  | startsWithPoint
  | endsWithPoint
  | twoPoints
  | noDigitBeforePoint
  | noDigitAfterPoint
  | leadingZeros
  | fraction (text : String) (fault : NumeralFault)
deriving DecidableEq, Inhabited

/-- The name of a base. -/
def baseName (base : Nat) : String :=
  match base with
  | 2 => "binary"
  | 8 => "octal"
  | 16 => "hexadecimal"
  | _ => "decimal"

/-- The wording of a fault. -/
def NumberFault.message : NumberFault → String
  | startsWithUnderscore => "number cannot start with underscore"
  | endsWithUnderscore => "number cannot end with underscore"
  | twoUnderscores => "number must have at least one digit between underscores"
  | underscoreBeforeExponent => "cannot have underscore before exponent"
  | underscoreAfterExponent => "cannot have underscore after exponent"
  | underscoreBeforePoint => "cannot have underscore before decimal point"
  | underscoreAfterPoint => "cannot have underscore after decimal point"
  | leadingZero => "leading zero not allowed on decimal number"
  | integer base text fault =>
    "couldn't parse " ++ baseName base ++ " number: strconv.ParseInt: parsing " ++
      Quoted.quoteString text ++ ": " ++ fault.message
  | startsWithPoint => "float cannot start with a dot"
  | endsWithPoint => "float cannot end with a dot"
  | twoPoints => "float can have at most one decimal point"
  | noDigitBeforePoint => "float decimal point must be preceded by a digit"
  | noDigitAfterPoint => "float decimal point must be followed by a digit"
  | leadingZeros => "float integer part cannot have leading zeroes"
  | fraction text fault =>
    "unable to parse float: strconv.ParseFloat: parsing " ++ Quoted.quoteString text ++ ": " ++
      fault.message

/-! ## Integers -/

/-- A numeral without its sign. -/
def unsigned : List Char → List Char
  | '+' :: rest | '-' :: rest => rest
  | cs => cs

/-- Whether two underscores follow each other, or another one follows the first. -/
def hasDoubleUnderscore : List Char → Bool
  | '_' :: '_' :: _ => true
  | _ :: rest => hasDoubleUnderscore rest
  | [] => false

/-- An integer without its underscores. -/
def plainInteger (cs : List Char) : Except NumberFault (List Char) :=
  let digits := unsigned cs
  if digits.isEmpty then .ok cs
  else if digits.head? = some '_' then .error .startsWithUnderscore
  else if digits.getLast? = some '_' then .error .endsWithUnderscore
  else if hasDoubleUnderscore cs then .error .twoUnderscores
  else .ok (cs.filter (· != '_'))

/-- The integer of 64 bits that a numeral without underscores denotes. -/
def integerIn (base : Nat) (cs : List Char) : Except NumberFault Int :=
  let digits := unsigned cs
  let fail := fun (fault : NumeralFault) => .error (.integer base (String.ofList cs) fault)
  if digits.isEmpty then fail .malformed
  else
    match Count.magnitude base 0 digits with
    | .error fault => fail fault
    | .ok n =>
      let n : Int := if cs.head? = some '-' then -n else n
      if Numeral.least ≤ n ∧ n ≤ Numeral.greatest then .ok n else fail .outOfRange

/-- An integer in base 10. -/
def decimalInteger (cs : List Char) : Except NumberFault Int := do
  let cs ← plainInteger cs
  if 1 < (unsigned cs).length && (unsigned cs).head? == some '0' then throw .leadingZero
  integerIn 10 cs

/-- An integer. -/
def integerOf (cs : List Char) : Except NumberFault Int :=
  match cs with
  | '0' :: mark :: c :: rest =>
    let base := if mark = 'x' then 16 else if mark = 'o' then 8 else if mark = 'b' then 2 else 10
    if base = 10 then decimalInteger cs
    else do integerIn base (← plainInteger (c :: rest))
  | _ => decimalInteger cs

/-! ## Fractions -/

/-- Refuses underscores of a fraction that stand in the wrong places. `digit` tells
that a digit has been met since the last underscore or sign, `previous` is the
character before. -/
def checkUnderscores : Bool → Char → List Char → Except NumberFault Unit
  | _, _, [] => .ok ()
  | digit, previous, c :: rest =>
    let next := rest.headD ' '
    if c = '_' then
      if !digit then .error .twoUnderscores
      else if next = 'e' ∨ next = 'E' then .error .underscoreBeforeExponent
      else checkUnderscores false c rest
    else if c = '+' ∨ c = '-' then checkUnderscores false c rest
    else if c = 'e' ∨ c = 'E' then
      if next = '_' then .error .underscoreAfterExponent else checkUnderscores digit c rest
    else if c = '.' then
      if next = '_' then .error .underscoreAfterPoint
      else if previous = '_' then .error .underscoreBeforePoint
      else checkUnderscores digit c rest
    else checkUnderscores true c rest

/-- A fraction without its underscores. -/
def plainFraction (cs : List Char) : Except NumberFault (List Char) := do
  if cs.head? = some '_' then throw .startsWithUnderscore
  if cs.getLast? = some '_' then throw .endsWithUnderscore
  if cs.contains '_' then checkUnderscores false ' ' cs
  return cs.filter (· != '_')

/-- Refuses points of a fraction that stand in the wrong places. -/
def checkPoints : Bool → Char → List Char → Except NumberFault Unit
  | _, _, [] => .ok ()
  | pointed, previous, c :: rest =>
    if c ≠ '.' then checkPoints pointed c rest
    else if pointed then .error .twoPoints
    else if !previous.isDigit then .error .noDigitBeforePoint
    else if !(rest.headD ' ').isDigit then .error .noDigitAfterPoint
    else checkPoints true c rest

/-- The words for numbers that are not finite. -/
def specialDouble? : String → Option Double
  | "inf" | "+inf" => some (.infinite false)
  | "-inf" => some (.infinite true)
  | "nan" | "+nan" | "-nan" => some .notANumber
  | _ => none

/-- A number with a point or an exponent. -/
def fractionOfDigits (cs : List Char) : Except NumberFault Double := do
  let cs ← plainFraction cs
  if cs.head? = some '.' then throw .startsWithPoint
  if cs.getLast? = some '.' then throw .endsWithPoint
  checkPoints false ' ' cs
  let digits := unsigned cs
  if digits.head? == some '0' && (digits[1]?).any Char.isDigit then throw .leadingZeros
  match Decimal.ofText? cs with
  | none => throw (.fraction (String.ofList cs) .malformed)
  | some d =>
    match Double.ofDecimal? d with
    | none => throw (.fraction (String.ofList cs) .outOfRange)
    | some x => return x

/-- A number of double precision. -/
def doubleOf (cs : List Char) : Except NumberFault Double :=
  match specialDouble? (String.ofList cs) with
  | some x => .ok x
  | none => fractionOfDigits cs

end CellMachine.Toml
