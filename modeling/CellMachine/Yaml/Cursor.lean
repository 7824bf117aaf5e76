import CellMachine.Yaml.Fault
import CellMachine.Yaml.Writer

/-!
# Places in a text

A cursor is a place in a text together with the characters that follow it. It
moves by characters and by line breaks, and a carriage return with a line feed
is one break. Past the end of the text it shows the character zero, which no
text contains.
-/

namespace CellMachine.Yaml

/-- A place in a text. -/
structure Cursor where
  mark : Mark
  rest : List Char
  /-- Whether nothing but blanks has been passed since a line break. -/
  fresh : Bool
deriving Inhabited

/-- What a cursor shows past the end of its text. -/
def nul : Char := Char.ofNat 0

/-- Line breaks and the end of the text. -/
def isBreakOrEnd (c : Char) : Bool :=
  c == nul || isBreak c

/-- Blanks, tabs, line breaks and the end of the text. -/
def isSpaceOrEnd (c : Char) : Bool :=
  isGap c || isBreakOrEnd c

/-- The characters of names: of anchors, directives and tag handles. -/
def isNameChar (c : Char) : Bool :=
  c.isAlphanum || c == '_' || c == '-'

/-- The marks of flow form between and around items. -/
def isFlowMark (c : Char) : Bool :=
  c == ',' || c == '[' || c == ']' || c.toNat == 0x7b || c.toNat == 0x7d

namespace Cursor

/-- The start of a text. -/
def start (cs : List Char) : Cursor :=
  ⟨⟨0, 0, 0⟩, cs, false⟩

/-- The character a number of places ahead. -/
def peek (c : Cursor) (k : Nat) : Char :=
  (c.rest[k]?).getD nul

/-- The next character. -/
def here (c : Cursor) : Char :=
  c.peek 0

/-- Whether the text is at its end. -/
def atEnd (c : Cursor) : Bool :=
  c.rest.isEmpty

/-- The column of the next character. -/
def column (c : Cursor) : Nat :=
  c.mark.column

/-- The place after the next character. -/
def next (c : Cursor) : Cursor :=
  match c.rest with
  | [] => c
  | x :: rest => ⟨{ c.mark with index := c.mark.index + 1, column := c.mark.column + 1 }, rest,
      c.fresh && isGap x⟩

/-- The place after some characters. -/
def skip : Nat → Cursor → Cursor
  | 0, c => c
  | n + 1, c => skip n c.next

/-- The place after the characters at the front that have a property. -/
def skipWhile (p : Char → Bool) (c : Cursor) : Cursor :=
  skip (c.rest.takeWhile p).length c

/-- The place after blanks and tabs. -/
def skipGap (c : Cursor) : Cursor :=
  c.skipWhile isGap

/-- The end of the line. -/
def skipLine (c : Cursor) : Cursor :=
  c.skipWhile fun x => !isBreak x

/-- The start of the next line, at the end of a line. -/
def nextLine (c : Cursor) : Cursor :=
  match c.rest with
  | '\r' :: '\n' :: rest => ⟨⟨c.mark.index + 2, c.mark.line + 1, 0⟩, rest, true⟩
  | x :: rest =>
    if isBreak x then ⟨⟨c.mark.index + 1, c.mark.line + 1, 0⟩, rest, true⟩ else c
  | [] => c

/-- The characters that a line break stands for in a scalar. -/
def breakText (c : Cursor) : List Char :=
  if c.here.toNat == 0x2028 || c.here.toNat == 0x2029 then [c.here]
  else if isBreak c.here then ['\n'] else []

/-- Whether three characters that separate documents start a line here. -/
def atDocumentMark (c : Cursor) (x : Char) : Bool :=
  c.column == 0 && c.rest.take 3 == [x, x, x] && isSpaceOrEnd (c.peek 3)

/-- Whether a line that separates documents starts here. -/
def atSeparator (c : Cursor) : Bool :=
  c.atDocumentMark '-' || c.atDocumentMark '.'

/-- A fault of a token that starts at `context`, found here. -/
def fail {α : Type} (c : Cursor) (context : Mark) (text : String) : Except Fault α :=
  .error (.malformed true context c.mark c.mark.index text)

end Cursor

/-! ## Comments -/

/-- The place after white space of a number of characters. -/
def passSpace : Nat → Cursor → Cursor
  | 0, c => c
  | n + 1, c =>
    if c.here = '#' then c
    else passSpace n (if isBreak c.here then c.nextLine else c.next)

/-- The end of the last of the comments that follow each other from a number sign
on, with nothing but white space of less than 512 characters between one and the
next. -/
def skipComments : Nat → Cursor → Cursor
  | 0, c => c
  | fuel + 1, c =>
    let c := c.skipLine
    let space := (c.rest.takeWhile fun x => isGap x || x == '\n' || x == '\r').length
    if space < 512 && c.peek space = '#' then skipComments fuel (passSpace space c) else c

/-- The end of the comment on the rest of a line, if there is one. -/
def skipLineComment (c : Cursor) : Cursor :=
  let gap := c.rest.takeWhile isGap
  if !c.fresh && gap.length < 512 && c.peek gap.length = '#' then c.skipLine else c

end CellMachine.Yaml
