import CellMachine.Assembly.Token
import CellMachine.Opcode
import CellMachine.Text.Numeral

/-!
# Diagnostics of assembly source

What can be wrong with a source text, where, and in which words it is said. A
source is refused with at most `Diagnostic.limit` diagnostics.
-/

namespace CellMachine.Assembly

/-- What is wrong at a place of a source text. -/
inductive Problem where
  | glyph (complaint : Complaint)
  /-- The text could not be read to its end. -/
  | unreadable (reason : String)
  | unexpected (text : Text)
  | operand (text : Text)
  | immediateDestination (text : Text)
  | labelName (text : Text)
  | redefinition (name : String) (previous : Position)
  | mnemonic (text : Text)
  | missingOperands (count : Nat) (op : Opcode)
  | missingValue
  | undefinedLabel (name : String)
  | emptyProgram
deriving DecidableEq, Inhabited

/-- A problem with its place. -/
structure Diagnostic where
  position : Position
  problem : Problem
deriving DecidableEq, Inhabited

/-- The greatest number of diagnostics for a source text. -/
def Diagnostic.limit : Nat := 10

/-- A source text refused, with the name it goes by. -/
structure Refusal where
  file : String
  diagnostics : List Diagnostic
deriving DecidableEq, Inhabited

/-- A place in a named source text. -/
def Position.text (file : String) (p : Position) : String :=
  (if file.isEmpty then "<input>" else file) ++ ":" ++ Numeral.write p.line ++ ":" ++
    Numeral.write p.column

/-- The wording of a complaint. -/
def Complaint.message : Complaint → String
  | encoding => "invalid UTF-8 encoding"
  | nul => "invalid character NUL"

/-- A token that is no word, in quotes. -/
def quoteToken (t : Text) : String :=
  Quoted.quoteChar ((t.head?.map Glyph.shown).getD Glyph.replacement)

/-- The wording of a problem in a named source text. -/
def Problem.message (file : String) : Problem → String
  | glyph complaint => complaint.message
  | unreadable reason => reason
  | unexpected text => "Unexpected character " ++ quoteToken text
  | operand text => "Invalid operand " ++ text.toString
  | immediateDestination text => "Immediate mode destination: " ++ text.toString
  | labelName text => "Invalid label name: " ++ text.toString
  | redefinition name previous =>
    "Label redefinition: " ++ name ++ ", previous definition here: " ++ previous.text file
  | mnemonic text => "Unknown mnemonic: " ++ text.toString
  | missingOperands count op =>
    "Missing " ++ Numeral.write count ++ " operand(s) for " ++ op.name
  | missingValue => "Missing .dat value"
  | undefinedLabel name => "Undefined label " ++ name
  | emptyProgram => "Empty program"

/-- The wording of a diagnostic with its place. -/
def Diagnostic.message (file : String) (d : Diagnostic) : String :=
  d.position.text file ++ ": " ++ d.problem.message file

/-- The wording of a refusal: one line for each diagnostic. -/
def Refusal.message (r : Refusal) : String :=
  "\n".intercalate (r.diagnostics.map (Diagnostic.message r.file))

end CellMachine.Assembly
