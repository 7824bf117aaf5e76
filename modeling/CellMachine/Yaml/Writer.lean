import CellMachine.Yaml.Scalar

/-!
# Writing text as a scalar

The form in which a text is written as the value of a key, so that it reads back
as that text: plain where nothing speaks against it, in double quotes where the
plain text would stand for something else, in single quotes where it holds marks
of the format, and as an indented block where it has several lines. A form that
cannot hold the text gives way to the next stronger one, and double quotes hold
every text.
-/

namespace CellMachine.Yaml

/-- The characters that end a line. -/
def isBreak (c : Char) : Bool :=
  c == '\n' || c == '\r' || c.toNat == 0x85 || c.toNat == 0x2028 || c.toNat == 0x2029

/-- The characters that can be written as they are. -/
def isShown (c : Char) : Bool :=
  let n := c.toNat
  n == 0xa || (0x20 ≤ n && n ≤ 0x7e) || (0xa0 ≤ n && n ≤ 0xfffd && n != 0xfeff)

/-- The characters that set off words: blank and tab. -/
def isGap (c : Char) : Bool :=
  c == ' ' || c == '\t'

/-- What a text holds that limits the forms it can be written in. -/
structure Traits where
  /-- It starts or ends with a blank or a line break. -/
  ragged : Bool
  trailingBlank : Bool
  /-- It has a line break followed by a blank. -/
  breakBlank : Bool
  /-- It has a blank followed by a line break. -/
  blankBreak : Bool
  lineBreaks : Bool
  tabs : Bool
  /-- It has characters that must be written as escapes. -/
  special : Bool
  /-- It has a mark of the format where that counts. -/
  marks : Bool
deriving DecidableEq, Inhabited

/-- Whether a text has a neighbouring pair with a property. -/
def hasPair (p : Char → Char → Bool) : List Char → Bool
  | a :: b :: rest => p a b || hasPair p (b :: rest)
  | _ => false

/-- Whether the first character, followed by `rest`, makes a mark. -/
def startsWithMark (c : Char) (rest : List Char) : Bool :=
  let gapAfter := rest.head?.all isGap
  ("#,[]&*!|>'\"%@".toList.contains c || c.toNat == 0x7b || c.toNat == 0x7d || c.toNat == 0x60) ||
    ((c == '?' || c == ':' || c == '-') && gapAfter)

/-- Whether a text has a mark after its first character: a colon before a gap,
or a number sign behind one. `gapBefore` tells of the character before. -/
def hasInnerMark (gapBefore : Bool) : List Char → Bool
  | [] => false
  | c :: rest =>
    (c == ':' && rest.head?.all isGap) || (c == '#' && gapBefore) ||
      hasInnerMark (isGap c || isBreak c) rest

/-- Whether a text has a mark of the format where that counts. -/
def hasMark : List Char → Bool
  | [] => false
  | c :: rest =>
    startsWithMark c rest || hasInnerMark (isGap c || isBreak c) rest ||
      (c :: rest.take 2 == ['-', '-', '-']) || (c :: rest.take 2 == ['.', '.', '.'])

/-- The traits of a text. -/
def Traits.of (cs : List Char) : Traits where
  ragged := cs.head?.any (fun c => c == ' ' || isBreak c) ||
    cs.getLast?.any (fun c => c == ' ' || isBreak c)
  trailingBlank := cs.getLast? == some ' '
  breakBlank := hasPair (fun a b => isBreak a && b == ' ') cs
  blankBreak := hasPair (fun a b => a == ' ' && isBreak b) cs
  lineBreaks := cs.any isBreak
  tabs := cs.contains '\t'
  special := cs.any fun c => !isShown c && c != '\t'
  marks := hasMark cs

namespace Traits

/-- Whether a text can be written plain. -/
def plain (t : Traits) : Bool :=
  !(t.ragged || t.breakBlank || t.blankBreak || t.lineBreaks || t.tabs || t.special || t.marks)

/-- Whether a text can be written in single quotes. -/
def singleQuoted (t : Traits) : Bool :=
  !(t.breakBlank || t.blankBreak || t.tabs || t.special)

/-- Whether a text can be written as a block. -/
def block (t : Traits) : Bool :=
  !(t.trailingBlank || t.blankBreak || t.special)

end Traits

/-- The forms of a written text. -/
inductive Style where
  | plain
  | singleQuoted
  | doubleQuoted
  | block
deriving DecidableEq, Inhabited

/-- Words that older readers take for truth values. -/
def isOldTruth (s : String) : Bool :=
  ["y", "Y", "yes", "Yes", "YES", "on", "On", "ON", "n", "N", "no", "No", "NO", "off", "Off",
    "OFF"].contains s

/-- Whether a text goes on with one or more groups of a colon and a number below
sixty, and ends with an optional fraction. `groups` tells that one has been met. -/
def sixtieths (groups : Bool) : List Char → Bool
  | ':' :: a :: b :: rest =>
    if a.isDigit && b.isDigit then a < '6' && sixtieths true rest
    else a.isDigit && sixtieths true (b :: rest)
  | [':', a] => a.isDigit
  | '.' :: rest => groups && rest.all fun c => c.isDigit || c == '_'
  | [] => groups
  | _ => false

/-- Whether older readers take a text for a number in base sixty. -/
def isSexagesimal (s : String) : Bool :=
  let cs := match s.toList with
    | '+' :: cs | '-' :: cs => cs
    | cs => cs
  cs.head?.any Char.isDigit && sixtieths false (cs.dropWhile fun c => c.isDigit || c == '_')

/-- Whether a plain text reads back as itself, also by older readers. -/
def readsAsText (s : String) : Bool :=
  Scalar.ofPlain s == .text && !isOldTruth s && !isSexagesimal s

/-- The form in which a text is written. -/
def style (s : String) : Style :=
  let t := Traits.of s.toList
  if s.contains '\n' then if t.block then .block else .doubleQuoted
  else if !readsAsText s then .doubleQuoted
  else if t.plain then .plain
  else if t.singleQuoted then .singleQuoted
  else .doubleQuoted

/-- The upper-case hexadecimal digits of a number. -/
def upperHex (places n : Nat) : String :=
  (Quoted.hex places n).toUpper

/-- Whether a text starts with a byte order mark. All its characters are then written
as escapes. -/
def isMarked (cs : List Char) : Bool :=
  cs.head? == some (Char.ofNat 0xfeff)

/-- A character in double quotes, written as an escape if `always` says so or if it has
to be. -/
def escape (always : Bool) (c : Char) : String :=
  if !always && isShown c && !isBreak c && c != '"' && c != '\\' then String.singleton c
  else match c.toNat with
    | 0x00 => "\\0"
    | 0x07 => "\\a"
    | 0x08 => "\\b"
    | 0x09 => "\\t"
    | 0x0a => "\\n"
    | 0x0b => "\\v"
    | 0x0c => "\\f"
    | 0x0d => "\\r"
    | 0x1b => "\\e"
    | 0x22 => "\\\""
    | 0x5c => "\\\\"
    | 0x85 => "\\N"
    | 0xa0 => "\\_"
    | 0x2028 => "\\L"
    | 0x2029 => "\\P"
    | n =>
      if n ≤ 0xff then "\\x" ++ upperHex 2 n
      else if n ≤ 0xffff then "\\u" ++ upperHex 4 n
      else "\\U" ++ upperHex 8 n

/-- The indentation of the lines of a value. -/
def indent : String := "  "

/-- A text in single quotes, where `broken` tells that a line has just ended. -/
def singleQuotedFrom (broken : Bool) : List Char → String
  | [] => ""
  | c :: rest =>
    if isBreak c then String.singleton c ++ singleQuotedFrom true rest
    else if c == ' ' then " " ++ singleQuotedFrom broken rest
    else
      (if broken then indent else "") ++ (if c == '\'' then "''" else String.singleton c) ++
        singleQuotedFrom false rest

/-- How a block marks its indentation and its last line breaks. -/
def blockHeader (cs : List Char) : String :=
  let leading := cs.head?.any fun c => c == ' ' || isBreak c
  let chomp := match cs.reverse with
    | c :: rest =>
      if !isBreak c then "-"
      else if rest.head?.all isBreak then "+"
      else ""
    | [] => "-"
  "|" ++ (if leading then "2" else "") ++ chomp

/-- The lines of a block. `broken` tells that a line has just been ended, and
`fresh` that no line has. -/
def blockFrom (broken fresh : Bool) : List Char → String
  | [] => ""
  | c :: rest =>
    if isBreak c then String.singleton c ++ blockFrom true false rest
    else
      (if fresh then "\n" else "") ++ (if broken then indent else "") ++ String.singleton c ++
        blockFrom false false rest

/-- A text written as a value. -/
def writeText (s : String) : String :=
  match style s with
  | .plain => s
  | .singleQuoted => "'" ++ singleQuotedFrom false s.toList ++ "'"
  | .doubleQuoted => "\"" ++ String.join (s.toList.map (escape (isMarked s.toList))) ++ "\""
  | .block => blockHeader s.toList ++ blockFrom true true s.toList

/-- A key with a written value, and the end of the line unless the value has
ended it. -/
def entry (key value : String) : String :=
  let line := key ++ ": " ++ value
  if value.toList.getLast?.any isBreak then line else line ++ "\n"

end CellMachine.Yaml
