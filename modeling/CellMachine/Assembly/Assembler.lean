import CellMachine.Assembly.Diagnostic
import CellMachine.Memory

/-!
# The assembler

A program is a sequence of statements: a mnemonic with its operands, a value
after `.dat`, or a label definition `:name`. An operand is an integer or a label
and is immediate if a `#` stands before it. Text between the words `(` and `)`
is skipped. `assemble` feeds the tokens one by one to a `Builder`, which holds
the cells written so far, the labels met and what is expected next, and fills in
the labels at the end.
-/

namespace CellMachine.Assembly

/-- What is known of a label: where it is defined, or was first used; its
address once defined; and the cells that refer to it, newest first. -/
structure Label where
  name : String
  position : Position
  address : Option Nat
  uses : List Nat
deriving DecidableEq, Inhabited

/-- What the next word is taken for. -/
inductive Expected where
  /-- The start of a statement. -/
  | statement
  /-- The value of a data cell. -/
  | value
  /-- An operand of the instruction in cell `start`, with `left + 1` to come. -/
  | operand (op : Opcode) (start left : Nat)
deriving DecidableEq, Inhabited

/-- A program under way. -/
structure Builder where
  cells : Array Cell
  labels : List Label
  expected : Expected
  comment : Bool
  diagnostics : Array Diagnostic
deriving Inhabited

/-- The mnemonics and the operations they stand for. -/
def mnemonics : List (String × Opcode) :=
  [("add", .add), ("mul", .mul), ("in", .input), ("inp", .input), ("out", .output),
    ("jt", .jumpIfTrue), ("jnz", .jumpIfTrue), ("jf", .jumpIfFalse), ("jz", .jumpIfFalse),
    ("lt", .lessThan), ("eq", .equals), ("hlt", .halt), ("halt", .halt)]

/-- The operation that a word stands for. -/
def operation? (word : Text) : Option Opcode :=
  mnemonics.lookup word.toString

/-- The characters a label name can start with. -/
def startsLabel : Glyph → Bool
  | .char c => c == '_' || Unicode.isLetter c
  | .stray _ => false

/-- The characters a label name can go on with. -/
def continuesLabel : Glyph → Bool
  | .char c => c == '_' || Unicode.isLetter c || Unicode.isDigit c
  | .stray _ => false

/-- Whether a word can be the name of a label. -/
def isLabelName : Text → Bool
  | [] => false
  | g :: rest => startsLabel g && rest.all continuesLabel

/-- The weight of the mode digit of parameter `k` in an instruction cell. -/
def modeWeight (k : Nat) : Cell :=
  Int64.ofNat (Nat.pow 10 (k + 2))

namespace Builder

/-- The program before its first word. -/
def start : Builder :=
  ⟨#[], [], .statement, false, #[]⟩

/-- Adds a diagnostic unless there are enough. -/
def report (a : Builder) (position : Position) (problem : Problem) : Builder :=
  if a.diagnostics.size < Diagnostic.limit then
    { a with diagnostics := a.diagnostics.push ⟨position, problem⟩ }
  else a

/-- Adds a cell. -/
def emit (a : Builder) (v : Cell) : Builder :=
  { a with cells := a.cells.push v }

/-- Adds `v` to a cell. -/
def addTo (a : Builder) (index : Nat) (v : Cell) : Builder :=
  { a with cells := a.cells.modify index (· + v) }

/-- The label with a name. -/
def label? (a : Builder) (name : String) : Option Label :=
  a.labels.find? (·.name == name)

/-- Changes the label with a name. -/
def updateLabel (a : Builder) (name : String) (f : Label → Label) : Builder :=
  { a with labels := a.labels.map fun l => if l.name == name then f l else l }

/-- Notes that the next cell refers to a label. -/
def useLabel (a : Builder) (position : Position) (name : String) : Builder :=
  let cell := a.cells.size
  match a.label? name with
  | some _ => a.updateLabel name fun l => { l with uses := cell :: l.uses }
  | none => { a with labels := ⟨name, position, none, [cell]⟩ :: a.labels }

/-- Adds the cell of a value: an integer or a reference to a label. A word that
is neither takes a cell too. -/
def value (a : Builder) (position : Position) (word : Text) : Builder :=
  match Numeral.int64 word with
  | .ok v => a.emit v
  | .error _ =>
    if isLabelName word then (a.useLabel position word.toString).emit 0
    else (a.report position (.operand word)).emit 0

/-- Adds operand `k` of the instruction in cell `start`. -/
def operand (a : Builder) (position : Position) (op : Opcode) (start k : Nat) (word : Text) :
    Builder :=
  match word with
  | .char '#' :: rest =>
    let a :=
      if op.isDestination k then a.report position (.immediateDestination word) else a
    (a.addTo start (modeWeight k)).value position rest
  | word => a.value position word

/-- What is expected after an instruction word, or after an operand, if `left`
operands are to come. -/
def expect (op : Opcode) (start : Nat) : Nat → Expected
  | 0 => .statement
  | left + 1 => .operand op start left

/-- Defines a label at the next cell. -/
def define (a : Builder) (position : Position) (name : String) : Builder :=
  let address := some a.cells.size
  match a.label? name with
  | none => { a with labels := ⟨name, position, address, []⟩ :: a.labels }
  | some l =>
    match l.address with
    | some _ => a.report position (.redefinition name l.position)
    | none => a.updateLabel name fun l => { l with position, address }

/-- Takes a word as the start of a statement. -/
def statement (a : Builder) (position : Position) (word : Text) : Builder :=
  match word with
  | .char ':' :: name =>
    if isLabelName name then a.define position (Text.toString name)
    else a.report position (.labelName word)
  | word =>
    if word = Text.ofString ".dat" then { a with expected := .value }
    else
      match operation? word with
      | none => a.report position (.mnemonic word)
      | some op =>
        { a.emit (Int64.ofNat op.code) with expected := expect op a.cells.size op.arity }

/-- Takes a word for what is expected. -/
def word (a : Builder) (position : Position) (w : Text) : Builder :=
  match a.expected with
  | .statement => a.statement position w
  | .value => { a.value position w with expected := .statement }
  | .operand op start left =>
    { a.operand position op start (op.arity - (left + 1)) w with expected := expect op start left }

/-- Takes a token. -/
def feed (a : Builder) (t : Token) : Builder :=
  let a := t.complaints.foldl (fun a c => a.report t.position (.glyph c)) a
  if a.comment then { a with comment := !(t.isWord && t.text == [.char ')']) }
  else if !t.isWord then a.report t.position (.unexpected t.text)
  else if t.text = [.char '('] then { a with comment := true }
  else a.word t.position t.text

/-- Reports what is still expected at the end of the text. -/
def close (a : Builder) (position : Position) : Builder :=
  match a.expected with
  | .statement => a
  | .value => a.report position .missingValue
  | .operand op _ left => a.report position (.missingOperands (left + 1) op)

/-- Fills in the cells that refer to a label, or reports it as undefined. -/
def resolve (a : Builder) (l : Label) : Builder :=
  match l.address with
  | none => a.report l.position (.undefinedLabel l.name)
  | some address =>
    let fill := fun (cells : Array Cell) (i : Nat) => cells.setIfInBounds i (Int64.ofNat address)
    { a with cells := l.uses.foldl fill a.cells }

/-- Fills in all labels, in order of their names. -/
def resolveAll (a : Builder) : Builder :=
  (a.labels.mergeSort fun l l' => decide (l.name ≤ l'.name)).foldl resolve a

/-- The memory of a finished program, or what is wrong with it. -/
def result (a : Builder) (file : String) (finish : Position) : Except Refusal Memory :=
  if a.diagnostics.size > 0 then .error ⟨file, a.diagnostics.toList⟩
  else if a.cells.size = 0 then .error ⟨file, [⟨finish, .emptyProgram⟩]⟩
  else .ok ⟨a.cells⟩

end Builder

/-- What is read of a source text: all of it, or nothing if there is a failure. -/
def readable (text : Text) (failure : Option String) : Text :=
  failure.elim text fun _ => []

/-- The memory that a source text describes. `failure` is what kept the text
from being read. -/
def assemble (file : String) (text : Text) (failure : Option String) : Except Refusal Memory :=
  let source := Source.ofText (readable text failure)
  let a := source.tokens.foldl Builder.feed .start
  let a := failure.elim a fun reason => a.report source.finish (.unreadable reason)
  ((a.close source.finish).resolveAll).result file source.finish

end CellMachine.Assembly
