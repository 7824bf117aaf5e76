import CellMachine.Text.Quoted
import CellMachine.Text.Blank

/-!
# Environment files

A file of assignments `NAME=value`, one to a line. A name can have `export`
before it and a colon in place of the equals sign. A value may stand in quotes;
in double quotes and outside of quotes it can refer to names assigned earlier
in the file. A line that starts with a number sign is a comment, and so is the
end of a line after a blank and a number sign.
-/

namespace CellMachine.Dotenv

/-- What is wrong with an environment file. -/
inductive Error where
  | badName (found : Char) (near : String)
  | unterminated (text : String)
  | noName
deriving DecidableEq, Inhabited

/-- The wording of an error. -/
def Error.message : Error → String
  | badName found near =>
    "unexpected character " ++ Quoted.quoteString (String.singleton found) ++
      " in variable name near " ++ Quoted.quoteString near
  | unterminated text => "unterminated quoted value " ++ text
  | noName => "zero length string"

/-- Names with their values, in order of assignment. -/
abbrev Bindings := List (String × String)

/-- The value of a name: that of its last assignment. -/
def value? (b : Bindings) (name : String) : Option String :=
  (b.reverse.find? (·.1 == name)).map (·.2)

/-- White space within a line. -/
def isSpace (c : Char) : Bool :=
  c == '\t' || c.toNat == 0xb || c.toNat == 0xc || c == '\r' || c == ' ' || c.toNat == 0x85 ||
    c.toNat == 0xa0

/-- A text without the white space at its two ends. -/
def trim (cs : List Char) : List Char :=
  ((cs.dropWhile isSpace).reverse.dropWhile isSpace).reverse

/-- The text from the next assignment on. -/
def statement : Nat → List Char → List Char
  | 0, _ => []
  | fuel + 1, cs =>
    match cs.dropWhile isBlank with
    | '#' :: rest => statement fuel (rest.dropWhile (· != '\n'))
    | rest => rest

/-- The text after the word `export`, if that stands before a name. -/
def afterExport (cs : List Char) : List Char :=
  match cs with
  | 'e' :: 'x' :: 'p' :: 'o' :: 'r' :: 't' :: c :: rest =>
    if isSpace c then rest.dropWhile isSpace else cs
  | _ => cs

/-- The first byte of a character that cannot be part of a name, as a character. -/
def badByte? (c : Char) : Option Char :=
  ((String.utf8EncodeChar c).map fun b => Char.ofNat b.toNat).find? fun b =>
    !(isSpace b || b == '_' || b == '.' || Unicode.isLetter b || Unicode.isDigit b ||
      Unicode.inTable Unicode.numbers b.toNat)

/-- The characters before an equals sign or a colon, and those after it. A text
without either has no name and is all value. -/
def name (whole : List Char) : List Char → List Char → Except Error (List Char × List Char)
  | [], _ => .ok ([], whole)
  | c :: rest, seen =>
    if c == '=' || c == ':' then .ok (seen.reverse, rest)
    else
      match badByte? c with
      | some found => .error (.badName found (String.ofList whole))
      | none => name whole rest (c :: seen)

/-- The characters of names that a value can refer to. -/
def isReference (c : Char) : Bool :=
  ('A' ≤ c && c ≤ 'Z') || c.isDigit || c == '_'

/-- Skips a character if it is there. -/
def skipOne (c : Char) : List Char → List Char
  | d :: rest => if d = c then rest else d :: rest
  | [] => []

/-- The name that a dollar sign refers to, and the text after the reference. -/
def reference (cs : List Char) : List Char × List Char :=
  let cs := skipOne (Char.ofNat 0x7b) (skipOne '(' cs)
  let found := cs.takeWhile isReference
  (found, skipOne (Char.ofNat 0x7d) (cs.drop found.length))

/-- A value with its references replaced. A dollar sign after a backslash refers
to nothing. -/
def expand (b : Bindings) : Nat → List Char → List Char
  | 0, cs => cs
  | _ + 1, [] => []
  | fuel + 1, '\\' :: '$' :: rest =>
    let after := (reference rest).2
    '$' :: rest.take (rest.length - after.length) ++ expand b fuel after
  | fuel + 1, '$' :: rest =>
    let (found, after) := reference rest
    (if found.isEmpty then '$' :: rest.take (rest.length - after.length)
      else ((value? b (String.ofList found)).getD "").toList) ++ expand b fuel after
  | fuel + 1, c :: rest => c :: expand b fuel rest

/-- A value in double quotes with its line breaks put in. -/
def putBreaks : List Char → List Char
  | '\\' :: 'n' :: rest => '\n' :: putBreaks rest
  | '\\' :: 'r' :: rest => '\r' :: putBreaks rest
  | '\\' :: c :: rest => '\\' :: c :: putBreaks rest
  | c :: rest => c :: putBreaks rest
  | [] => []

/-- A value in double quotes with backslashes dropped, except before a dollar
sign. -/
def dropEscapes : List Char → List Char
  | '\\' :: c :: rest => if c = '$' then '\\' :: dropEscapes (c :: rest) else c :: dropEscapes rest
  | c :: rest => c :: dropEscapes rest
  | [] => []
termination_by cs => cs.length

/-- The characters before a quote that no backslash precedes, and those after. -/
def closing (quote previous : Char) (seen : List Char) : List Char → Option (List Char × List Char)
  | [] => none
  | c :: rest =>
    if c = quote ∧ previous ≠ '\\' then some (seen.reverse, rest)
    else closing quote c (c :: seen) rest

/-- The end of a line without the comment after a blank and a number sign: the
last one counts. Takes and gives the line in reverse. -/
def dropComment : List Char → Option (List Char)
  | '#' :: c :: rest => if isSpace c then some (c :: rest) else dropComment (c :: rest)
  | _ :: rest => dropComment rest
  | [] => none

/-- The value at the front of a text, and the text after it. -/
def valueAt (b : Bindings) (cs : List Char) : Except Error (List Char × List Char) :=
  let fuel := cs.length + 1
  match cs with
  | [] => .ok ([], [])
  | quote :: rest =>
    if quote = '"' ∨ quote = '\'' then
      match closing quote quote [] rest with
      | none => .error (.unterminated (String.ofList (cs.takeWhile (· != '\n'))))
      | some (inner, after) =>
        let inner := ((inner.dropWhile (· == quote)).reverse.dropWhile (· == quote)).reverse
        if quote = '"' then .ok (expand b fuel (dropEscapes (putBreaks inner)), after)
        else .ok (inner, after)
    else
      let line := cs.takeWhile fun c => c != '\n' && c != '\r'
      let text := ((dropComment line.reverse).map List.reverse).getD line
      .ok (expand b fuel (trim text), cs.drop line.length)

/-- Reads assignments, given those before. -/
def readFrom : Nat → Bindings → List Char → Except Error Bindings
  | 0, b, _ => .ok b
  | fuel + 1, b, cs =>
    match statement (cs.length + 1) cs with
    | [] => .ok b
    | cs =>
      let cs := afterExport (cs.dropWhile isSpace)
      if cs.isEmpty then .error .noName
      else
        match name cs cs [] with
        | .error e => .error e
        | .ok (key, rest) =>
          match valueAt b (rest.dropWhile isSpace) with
          | .error e => .error e
          | .ok (value, rest) =>
            readFrom fuel (b ++ [(String.ofList (trim key), String.ofList value)]) rest

/-- The text with each pair of carriage return and line break made a line break. -/
def unixLines : List Char → List Char
  | '\r' :: '\n' :: rest => '\n' :: unixLines rest
  | c :: rest => c :: unixLines rest
  | [] => []

/-- The assignments of an environment file. -/
def read (s : String) : Except Error Bindings :=
  readFrom (s.length + 1) [] (unixLines s.toList)

end CellMachine.Dotenv
