import CellMachine.Settings.Dotenv
import CellMachine.Text.Blank

/-!
# Configuration as assignments

A configuration file of assignments `name = value` or `name: value`, one to a line.
A line can have `export` before the name and a comment behind the value. A value in
quotes can go on over several lines. Unless it is in single quotes, a value can
refer to variables of the environment and to names assigned before.
-/

namespace CellMachine.Assignments

/-- What is wrong with a text. -/
inductive Error where
  | missingQuotes
  /-- A name that is to be exported before it has a value. -/
  | unset (line : String)
  | malformed (line : String)
deriving DecidableEq, Inhabited

/-- The wording of an error. -/
def Error.message : Error → String
  | missingQuotes => "missing quotes"
  | unset line => "line \x60" ++ line ++ "\x60 has an unset variable"
  | malformed line => "line \x60" ++ line ++ "\x60 doesn't match format"

/-! ## Lines -/

/-- The lines of a text. A carriage return, a line feed or the two together end a
line. `seen` holds the characters of the line so far, in reverse. -/
def linesFrom (seen : List Char) : List Char → List (List Char)
  | [] => [seen.reverse]
  | '\r' :: '\n' :: rest => seen.reverse :: linesFrom [] rest
  | c :: rest =>
    if c = '\r' ∨ c = '\n' then seen.reverse :: linesFrom [] rest else linesFrom (c :: seen) rest

/-- A text without the white space at its two ends. -/
def trim (cs : List Char) : List Char :=
  ((cs.dropWhile isBlank).reverse.dropWhile isBlank).reverse

/-- The bytes of characters. -/
def bytesOf (cs : List Char) : List UInt8 :=
  (String.ofList cs).toUTF8.toList

/-- The characters before the last one that is `c`, if there is one. -/
def beforeLast? (c : Char) (cs : List Char) : Option (List Char) :=
  match cs.reverse.dropWhile (· != c) with
  | [] => none
  | _ :: rest => some rest.reverse

/-- Whether a value that starts with a quote has its other one on the same line. The
byte before that is looked for as if no white space followed the first quote. -/
def closes (quote : Char) (value : List Char) : Bool :=
  match beforeLast? quote (trim value.tail) with
  | none => false
  | some front => (bytesOf value)[(bytesOf front).length]? != some 0x5c

/-- Whether a further line has the last quote of a value. -/
def closesLine (quote : Char) (line : List Char) : Bool :=
  match beforeLast? quote line with
  | none => false
  | some front => front.getLast? != some '\\'

/-- The value behind the first equals sign of a line or, if there is none, behind its
first colon, unless that is at the front or the end of the line. -/
def valuePart? (line : List Char) : Option (List Char) :=
  let mark := if line.contains '=' then '=' else ':'
  match line.span (· != mark) with
  | (_ :: _, _ :: c :: rest) => some (trim (c :: rest))
  | _ => none

/-- The quote of a value that goes on over the next lines. -/
def openQuote? (line : List Char) : Option Char :=
  match valuePart? line with
  | some (quote :: rest) =>
    if (quote = '"' ∨ quote = '\'') ∧ !closes quote (quote :: rest) then some quote else none
  | _ => none

/-- A line together with those up to the one that has a quote, and the lines after
them. -/
def joinUntil (quote : Char) (line : List Char) :
    List (List Char) → Except Error (List Char × List (List Char))
  | [] => .error .missingQuotes
  | next :: rest =>
    let line := line ++ '\n' :: next
    if closesLine quote next then .ok (line, rest) else joinUntil quote line rest

/-! ## Assignments -/

/-- White space around names and values. -/
def isSpace (c : Char) : Bool :=
  c == ' ' || c == '\t' || c == '\n' || c == '\r' || c.toNat == 0xc

/-- The characters of names. -/
def isNameChar (c : Char) : Bool :=
  c.isAlphanum || c == '_' || c == '.'

/-- Whether nothing but white space and a comment stands at the end of a text. -/
def isTail (cs : List Char) : Bool :=
  match cs.dropWhile isSpace with
  | [] => true
  | '#' :: rest => !rest.contains '\n'
  | _ => false

/-- A value in quotes, with its quotes: it goes to the last quote behind which the
text can end. -/
def quoted? (quote : Char) : List Char → Option (List Char)
  | [] => none
  | c :: rest =>
    if c ≠ quote then none
    else
      (List.range rest.length).reverse.findSome? fun (i : Nat) =>
        if rest[i]? == some quote && isTail (rest.drop (i + 1)) then
          some (quote :: rest.take (i + 1))
        else none

/-- A value without quotes, which goes to a comment or the end of the line. -/
def bare? (cs : List Char) : Option (List Char) :=
  let value := cs.takeWhile fun c => c != '#' && c != '\n'
  if isTail (cs.drop value.length) then some value else none

/-- The value in the rest of a text. -/
def value? (cs : List Char) : Option (List Char) :=
  (quoted? '\'' cs).orElse fun _ => (quoted? '"' cs).orElse fun _ => bare? cs

/-- The value behind the mark of an assignment. White space is dropped before an
equals sign and behind it; a colon has white space behind it, of which as little as
possible is dropped. -/
def assigned? (cs : List Char) : Option (List Char) :=
  match cs.dropWhile isSpace with
  | '=' :: rest =>
    let space := (rest.takeWhile isSpace).length
    (List.range (space + 1)).reverse.findSome? fun (k : Nat) => value? (rest.drop k)
  | _ =>
    match cs with
    | ':' :: rest =>
      let space := (rest.takeWhile isSpace).length
      (List.range space).findSome? fun (k : Nat) => value? (rest.drop (k + 1))
    | _ => none

/-- The name and the value of an assignment. -/
def assignment? (cs : List Char) : Option (List Char × List Char) :=
  let name := cs.takeWhile isNameChar
  if name.isEmpty then none
  else (assigned? (cs.drop name.length)).map fun value => (name, value)

/-- The name and the value on a line. -/
def ofLine? (line : List Char) : Option (List Char × List Char) :=
  let exported := match line with
    | 'e' :: 'x' :: 'p' :: 'o' :: 'r' :: 't' :: c :: rest =>
      if isSpace c then assignment? (rest.dropWhile isSpace) else none
    | _ => none
  exported.orElse fun _ => assignment? line

/-! ## Values -/

/-- A value with its line breaks put in. -/
def putBreaks (letter c : Char) : List Char → List Char
  | '\\' :: x :: rest =>
    if x = letter then c :: putBreaks letter c rest else '\\' :: putBreaks letter c (x :: rest)
  | x :: rest => x :: putBreaks letter c rest
  | [] => []
termination_by cs => cs.length

/-- A value with the backslashes dropped that stand before other characters than a
dollar sign. -/
def dropEscapes : List Char → List Char
  | '\\' :: c :: rest => if c = '$' then '\\' :: dropEscapes (c :: rest) else c :: dropEscapes rest
  | c :: rest => c :: dropEscapes rest
  | [] => []
termination_by cs => cs.length

/-- The name that a dollar sign refers to, and the text after the reference. -/
def reference (cs : List Char) : List Char × List Char :=
  let cs := Dotenv.skipOne (Char.ofNat 0x7b) cs
  let name := cs.takeWhile Dotenv.isReference
  (name, Dotenv.skipOne (Char.ofNat 0x7d) (cs.drop name.length))

/-- A value with its references replaced. A dollar sign after a backslash refers to
nothing. -/
def expand (lookup : String → String) : Nat → List Char → List Char
  | 0, cs => cs
  | _ + 1, [] => []
  | fuel + 1, '\\' :: '$' :: rest =>
    let after := (reference rest).2
    '$' :: rest.take (rest.length - after.length) ++ expand lookup fuel after
  | fuel + 1, '$' :: rest =>
    let (name, after) := reference rest
    (if name.isEmpty then '$' :: rest.take (rest.length - after.length)
      else (lookup (String.ofList name)).toList) ++ expand lookup fuel after
  | fuel + 1, c :: rest => c :: expand lookup fuel rest

/-- The names that the references of a text can refer to. -/
def referenced : List Char → List String
  | [] => []
  | '$' :: rest => String.ofList (reference rest).1 :: referenced rest
  | _ :: rest => referenced rest

/-- What a value stands for. -/
def valueText (lookup : String → String) (written : List Char) : List Char :=
  let value := trim written
  let inner := (value.drop 1).dropLast
  let quotedBy (quote : Char) : Bool :=
    2 ≤ value.length && value.head? == some quote && value.getLast? == some quote
  if quotedBy '\'' then inner
  else
    let value := if quotedBy '"' then
      dropEscapes (putBreaks 'r' '\r' (putBreaks 'n' '\n' inner)) else value
    expand lookup (value.length + 1) value

/-! ## Reading -/

/-- The fault of a line that is no assignment, where `known` are the names that have
a value. -/
def lineError (known : List String) (line : List Char) : Error :=
  let text := trim line
  let rest := text.dropWhile (· != ' ')
  if "export".toList.isPrefixOf text && !rest.isEmpty &&
      !known.contains (String.ofList rest.tail) then .unset (String.ofList text)
  else .malformed (String.ofList line)

/-- Reads the assignments on lines, given those before. The variables of the
environment have precedence. -/
def readFrom (environment : Dotenv.Bindings) :
    Nat → Dotenv.Bindings → List (List Char) → Except Error Dotenv.Bindings
  | 0, known, _ => .ok known
  | _ + 1, known, [] => .ok known
  | fuel + 1, known, line :: rest => do
    let line := trim line
    if line.isEmpty || line.head? == some '#' then
      return ← readFrom environment fuel known rest
    let (line, rest) ← match openQuote? line with
      | some quote => joinUntil quote line rest
      | none => .ok (line, rest)
    match ofLine? line with
    | none => throw (lineError (known.map (·.1)) line)
    | some (name, value) =>
      let lookup := fun (x : String) =>
        ((Dotenv.value? environment x).orElse fun _ => Dotenv.value? known x).getD ""
      let binding := (String.ofList name, String.ofList (valueText lookup value))
      readFrom environment fuel (known ++ [binding]) rest

/-- The assignments of a text, in which a name can have several values. A byte order
mark at its front is dropped. -/
def read (environment : Dotenv.Bindings) (text : String) : Except Error Dotenv.Bindings :=
  let cs := Dotenv.skipOne (Char.ofNat 0xfeff) text.toList
  let lines := linesFrom [] cs
  readFrom environment (lines.length + 1) [] lines

end CellMachine.Assignments
