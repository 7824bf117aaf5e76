import CellMachine.Journal.Event

/-!
# Written journals

An entry is written on a line of its own, as `name=value` pairs or as an object.
In pairs, statuses and operations go by name and a value with unusual characters
is quoted; in objects they go by number.
-/

namespace CellMachine

/-- The forms of a journal. -/
inductive JournalFormat where
  | pairs
  | objects
deriving DecidableEq, Inhabited

namespace Journal

/-- Characters that need no quotes in a pair. -/
def isPlain (c : Char) : Bool :=
  c.isAlphanum || c == '-' || c == '.' || c == '_' || c == '/' || c == '@' || c == '^' || c == '+'

/-- A value of a pair. -/
def pairValue (s : String) : String :=
  if s.all isPlain then s else Quoted.quoteString s

/-- A field of a pair. The identity of a network needs no quotes. -/
def pairField : FieldValue → String
  | .identity => FieldValue.identity.shown
  | v => pairValue v.shown

/-- An entry as pairs. -/
def pairs (time : String) (e : Entry) : String :=
  "time=\"" ++ time ++ "\" level=" ++ pairValue e.event.level.name ++ " msg=" ++
    pairValue e.event.title ++
    String.join (e.fields.map fun (name, v) => " " ++ name ++ "=" ++ pairField v) ++ "\n"

/-- A character inside an object's text. -/
def objectChar (c : Char) : String :=
  match c with
  | '"' => "\\\""
  | '\\' => "\\\\"
  | '\n' => "\\n"
  | '\r' => "\\r"
  | '\t' => "\\t"
  | '\x08' => "\\b"
  | '\x0c' => "\\f"
  | c =>
    if c.toNat < 0x20 || c == '<' || c == '>' || c == '&' || c.toNat == 0x2028 ||
        c.toNat == 0x2029 then
      "\\u" ++ Quoted.hex 4 c.toNat
    else String.singleton c

/-- A text in an object. -/
def objectText (s : String) : String :=
  "\"" ++ String.join (s.toList.map objectChar) ++ "\""

/-- A value in an object. -/
def objectValue : FieldValue → String
  | .number n => Numeral.write n
  | .status s => Numeral.write s.code
  | .opcode op => Numeral.write op.code
  | .positions [] => "null"
  | .positions ps =>
    "[" ++ ",".intercalate (ps.map fun (p : Nat) => Numeral.write p) ++ "]"
  | v => objectText v.shown

/-- An entry as an object, with its names in order. -/
def object (time : String) (e : Entry) : String :=
  let members := [("level", objectText e.event.level.name), ("msg", objectText e.event.title),
    ("time", objectText time)] ++ e.fields.map fun (name, v) => (name, objectValue v)
  let members := members.mergeSort fun f f' => decide (f.1 ≤ f'.1)
  "\x7b" ++ ",".intercalate (members.map fun (name, v) => objectText name ++ ":" ++ v) ++ "\x7d\n"

/-- The entries that a journal kept at a level tells. -/
def told (level : Level) (entries : List Entry) : List Entry :=
  entries.filter fun e => level.tells e.event.level

/-- A written journal. -/
def render (format : JournalFormat) (time : String) (entries : List Entry) : String :=
  match format with
  | .pairs => String.join (entries.map (pairs time))
  | .objects => String.join (entries.map (object time))

end Journal

end CellMachine
