import CellMachine.Settings.Toml.Moment
import CellMachine.Settings.Toml.Numeral
import CellMachine.Settings.Toml.Quoted

/-!
# Faults of tables of assignments

What can be wrong with a text: its lines, its keys, its values, or how its keys
stand to each other.
-/

namespace CellMachine.Toml

/-- What a key is for. -/
inductive KeyKind where
  | value
  | table
  /-- A list of tables, each with a header of its own. -/
  | tables
deriving DecidableEq, Inhabited

/-- The name of a kind. -/
def KeyKind.name : KeyKind → String
  | value => "value"
  | table => "table"
  | tables => "array table"

/-- What is wrong with a text. -/
inductive Fault where
  | noKey
  | keyStart (found : Char)
  /-- A key without an equals sign, at the end of the text. -/
  | noSeparator
  | noValue
  | expected (mark : Char)
  | endsBefore (mark : Char)
  /-- The start of a word other than the one it has to be. -/
  | word (text : String)
  | noNumber
  /-- A letter in a number. -/
  | letterInNumber (found : Char)
  | openList
  | commaFirst
  | noComma
  | openTable
  /-- Something behind a value or header. -/
  | lineEnd (found : Char)
  | returnAtEnd
  | loneReturn
  | comment
  | text (fault : TextFault)
  | number (fault : NumberFault)
  | moment (fault : MomentFault)
  | repeated (key : String)
  /-- A key with keys behind it that is not for a table. -/
  | notTable (key : String) (kind : KeyKind)
  /-- A table with a header that is added to by a key. -/
  | redefined (key : String)
  /-- A header whose key is not for a table. -/
  | headerNotTable (key : String) (kind : KeyKind)
  | headerRepeated (key : String)
  /-- A header of a list of tables whose key is for something else. -/
  | notTables (key : String) (kind : KeyKind)
deriving DecidableEq, Inhabited

/-- The wording of a fault, without the name of the format. -/
def Fault.reason : Fault → String
  | noKey => "expected key but found none"
  | keyStart found =>
    "invalid character at start of key: " ++ String.singleton (Glyph.leadByte found)
  | noSeparator => "expected = after a key, but the document ends there"
  | noValue => "expected value, not eof"
  | expected mark => "expected character " ++ String.singleton mark
  | endsBefore mark =>
    "expected character " ++ String.singleton mark ++ " but the document ended here"
  | word w => "expected '" ++ w ++ "'"
  | noNumber => "incomplete number"
  | letterInNumber found =>
    "unexpected character '" ++ String.singleton found ++ "' while scanning for a number"
  | openList => "array is incomplete"
  | commaFirst => "array cannot start with comma"
  | noComma => "array elements must be separated by commas"
  | openTable => "inline table is incomplete"
  | lineEnd found => "expected newline but got " ++ described (Glyph.leadByte found)
  | returnAtEnd => "windows new line expected"
  | loneReturn => "windows new line should be \\r\\n"
  | comment => "invalid character in comment"
  | text fault => fault.message
  | number fault => fault.message
  | moment fault => fault.message
  | repeated key => "key " ++ key ++ " is already defined"
  | notTable key kind => "expected " ++ key ++ " to be a table, not a " ++ kind.name
  | redefined key =>
    "cannot redefine table " ++ key ++ " that has already been explicitly defined"
  | headerNotTable key kind => "key " ++ key ++ " should be a table, not a " ++ kind.name
  | headerRepeated key => "table " ++ key ++ " already exists"
  | notTables key kind =>
    "key " ++ kind.name ++ " already exists as a " ++ key ++ ",  but should be an array table"

/-- The wording of a fault. -/
def Fault.message (f : Fault) : String :=
  "toml: " ++ f.reason

end CellMachine.Toml
