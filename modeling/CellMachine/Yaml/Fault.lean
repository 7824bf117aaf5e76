import CellMachine.Text.Numeral

/-!
# Faults of documents

What can be wrong with a document: its characters, its tokens, the structure they
make, or nodes that cannot be taken for what they are wanted for.
-/

namespace CellMachine.Yaml

/-- A place in a text: its number of characters before, its line and its column,
all counted from zero. -/
structure Mark where
  index : Nat
  line : Nat
  column : Nat
deriving DecidableEq, Inhabited

/-- A node that cannot be taken for what it is wanted for. Lines count from one. -/
inductive NodeFault where
  /-- A node of another kind than is wanted, with its tag, and its text if that is
  to be told. -/
  | mismatch (line : Nat) (tag : String) (text : Option String) (wanted : String)
  /-- A key that occurs twice in a table. -/
  | repeated (line : Nat) (key : String) (first : Nat)
deriving DecidableEq, Inhabited

/-- What is wrong with a document. -/
inductive Fault where
  /-- A character that no document can have. -/
  | unreadable
  /-- A text that cannot be cut into tokens, or tokens that make no document:
  `context` and `problem` are the places where the thing at fault starts and where
  it goes wrong. The text was looked at up to the character `reached`. -/
  | malformed (token : Bool) (context problem : Mark) (reached : Nat) (text : String)
  /-- A node that stands for another, of which there is none. -/
  | unknownAnchor (name : String) (reached : Nat)
  /-- A node that stands for one that holds it. -/
  | cyclic (name : String)
  /-- Too many nodes that stand for others. -/
  | excessive
  /-- A scalar whose tag wants something else. -/
  | mistagged (found text wanted : String)
  /-- A scalar in base 64 that is not well-formed. -/
  | badBinary
  /-- A merge key with neither a table nor a list of tables. -/
  | badMerge
  /-- A key that is a list or a table, in its written form. -/
  | badKey (text : String)
  /-- A list or a table among the keys beside a merge key. -/
  | unhashable (kind : String)
  /-- Nodes that cannot be taken. -/
  | nodes (faults : List NodeFault)
deriving DecidableEq, Inhabited

/-- A text shortened for a message. -/
def shortened (s : String) : String :=
  if 10 < s.utf8ByteSize then
    " \x60" ++ (Text.ofByteArray (s.toUTF8.extract 0 7)).toString ++ "...\x60"
  else " \x60" ++ s ++ "\x60"

/-- The wording of a fault of a node. -/
def NodeFault.message : NodeFault → String
  | mismatch line tag text wanted =>
    "line " ++ Numeral.write line ++ ": cannot unmarshal " ++ tag ++ text.elim "" shortened ++
      " into " ++ wanted
  | repeated line key first =>
    "line " ++ Numeral.write line ++ ": mapping key " ++ Quoted.quoteString key ++
      " already defined at line " ++ Numeral.write first

/-- The wording of a fault, without the name of the format. A token is told by a
line that counts from one, and structure by one that counts from zero; the first
line of all is not told. -/
def Fault.reason : Fault → String
  | unreadable => "control characters are not allowed"
  | malformed token context problem _ text =>
    let line := if context.line ≠ 0 then context.line else problem.line
    (if line = 0 then ""
      else "line " ++ Numeral.write (line + if token then 1 else 0 : Nat) ++ ": ") ++ text
  | unknownAnchor name _ => "unknown anchor '" ++ name ++ "' referenced"
  | cyclic name => "anchor '" ++ name ++ "' value contains itself"
  | excessive => "document contains excessive aliasing"
  | mistagged found text wanted =>
    "cannot decode " ++ found ++ " \x60" ++ text ++ "\x60 as a " ++ wanted
  | badBinary => "!!binary value contains invalid base64 data"
  | badMerge => "map merge requires map or sequence of maps as the value"
  | badKey text => "invalid map key: " ++ text
  | unhashable kind => "runtime error: hash of unhashable type " ++ kind
  | nodes faults =>
    "unmarshal errors:" ++ String.join (faults.map fun f => "\n  " ++ f.message)

/-- The wording of a fault. -/
def Fault.message (f : Fault) : String :=
  "yaml: " ++ f.reason

/-- The number of characters after which the fault was found, if that counts. -/
def Fault.reached? : Fault → Option Nat
  | malformed _ _ _ reached _ => some reached
  | unknownAnchor _ reached => some reached
  | _ => none

end CellMachine.Yaml
