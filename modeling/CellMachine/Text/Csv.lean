import CellMachine.Text.Numeral
import CellMachine.Text.Blank

/-!
# Records of comma-separated values

A record is a line of fields separated by commas. A field in double quotes may
hold commas and line breaks, and a quote written twice. Only the first record of
a text is read; empty lines before it are passed over.
-/

namespace CellMachine.Csv

/-- What is wrong with a field. -/
inductive FieldFault where
  /-- A quote in a field that does not start with one. -/
  | bareQuote
  /-- A quote inside a quoted field, or none at its end. -/
  | quote
deriving DecidableEq, Inhabited

/-- Why a text has no record. Lines and columns count from one, columns in bytes. -/
inductive Error where
  | noRecord
  | field (start line column : Nat) (fault : FieldFault)
deriving DecidableEq, Inhabited

/-- The wording of a field fault. -/
def FieldFault.message : FieldFault → String
  | bareQuote => "bare \" in non-quoted-field"
  | quote => "extraneous or missing \" in quoted-field"

/-- The wording of an error. -/
def Error.message : Error → String
  | noRecord => "EOF"
  | field start line column fault =>
    (if start = line then "" else "record on line " ++ Numeral.write start ++ "; ") ++
      "parse error on line " ++ Numeral.write line ++ ", column " ++ Numeral.write column ++ ": " ++
      fault.message

/-- A line with its line break, if it has one: a carriage return before the
break, or at the end of the text, is dropped. -/
def trimReturn (line : List Char) : List Char :=
  match line.reverse with
  | '\n' :: '\r' :: rest => (('\n' : Char) :: rest).reverse
  | '\r' :: rest => rest.reverse
  | _ => line

/-- The lines of a text, each with its line break. -/
def linesFrom : List Char → List Char → List (List Char)
  | [], [] => []
  | [], part => [trimReturn part.reverse]
  | '\n' :: rest, part => trimReturn ('\n' :: part).reverse :: linesFrom rest []
  | c :: rest, part => linesFrom rest (c :: part)

/-- Whether a line is empty but for its line break. -/
def isBare (line : List Char) : Bool :=
  line == [] || line == ['\n']

/-- The number of bytes of characters. -/
def byteSize (cs : List Char) : Nat :=
  cs.foldl (fun n c => n + c.utf8Size) 0

/-- What reading works on: the fields read so far in reverse, the rest of the
line with its number and column, and the lines after it. -/
structure Cursor where
  fields : List String
  line : List Char
  number : Nat
  column : Nat
  later : List (List Char)

/-- Reads the rest of a quoted field whose characters so far are `part`, in
reverse. The result is `true` with the cursor if more fields follow. -/
def quoted (start : Nat) : Nat → Cursor → List Char → Except Error (Bool × Cursor)
  | 0, c, _ => .error (.field start c.number c.column .quote)
  | fuel + 1, c, part =>
    let text := c.line.takeWhile (· != '"')
    match c.line.drop text.length with
    | '"' :: rest =>
      let column := c.column + byteSize text + 1
      let part := text.reverse ++ part
      match rest with
      | '"' :: rest =>
        quoted start fuel { c with line := rest, column := column + 1 } ('"' :: part)
      | ',' :: rest =>
        .ok (true, { c with
          fields := String.ofList part.reverse :: c.fields, line := rest, column := column + 1 })
      | rest =>
        if isBare rest then
          .ok (false, { c with fields := String.ofList part.reverse :: c.fields, line := rest })
        else .error (.field start c.number (column - 1) .quote)
    | _ =>
      if c.line.isEmpty then .error (.field start c.number c.column .quote)
      else
        let part := c.line.reverse ++ part
        match c.later with
        | [] => quoted start fuel { c with line := [], column := c.column + byteSize c.line } part
        | line :: later =>
          quoted start fuel { c with line, later, number := c.number + 1, column := 1 } part

/-- Reads the fields of a record. -/
def fields (start : Nat) : Nat → Cursor → Except Error (List String)
  | 0, c => .ok c.fields.reverse
  | fuel + 1, c =>
    match c.line with
    | '"' :: rest =>
      match quoted start fuel { c with line := rest, column := c.column + 1 } [] with
      | .error e => .error e
      | .ok (true, c) => fields start fuel c
      | .ok (false, c) => .ok c.fields.reverse
    | line =>
      let text := line.takeWhile (· != ',')
      let rest := line.drop text.length
      let field := if rest.isEmpty && text.getLast? == some '\n' then text.dropLast else text
      let bare := field.takeWhile (· != '"')
      if bare.length < field.length then
        .error (.field start c.number (c.column + byteSize bare) .bareQuote)
      else
        let seen := String.ofList field :: c.fields
        match rest with
        | [] => .ok seen.reverse
        | _ :: rest =>
          fields start fuel
            { c with fields := seen, line := rest, column := c.column + byteSize text + 1 }

/-- The first record among lines, of which the first has number `number`. -/
def firstRecord (fuel number : Nat) : List (List Char) → Except Error (List String)
  | [] => .error .noRecord
  | line :: later =>
    if isBare line then firstRecord fuel (number + 1) later
    else fields number fuel ⟨[], line, number, 1, later⟩

/-- The fields of the first record of a text. An empty text has no fields. -/
def read (s : String) : Except Error (List String) :=
  if s.isEmpty then .ok []
  else firstRecord (2 * s.length + 2) 1 (linesFrom s.toList [])

/-- Whether a field is written in quotes. -/
def needsQuotes (s : String) : Bool :=
  s == "\\." || s.any (fun c => c == ',' || c == '"' || c == '\r' || c == '\n') ||
    s.toList.head?.any isBlank

/-- A written field. -/
def writeField (s : String) : String :=
  if needsQuotes s then
    "\"" ++ String.join (s.toList.map fun c => if c == '"' then "\"\"" else String.singleton c) ++
      "\""
  else s

/-- A written record. -/
def write (fields : List String) : String :=
  ",".intercalate (fields.map writeField)

end CellMachine.Csv
