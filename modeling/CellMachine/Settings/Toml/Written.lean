import CellMachine.Settings.Toml.Fault

/-!
# Written tables of assignments

A text is a sequence of lines. A line holds an assignment of a value to a key, the
header of a table, or the header of one of several tables, and a comment behind it.
Here lines are read for their form; numbers and dates are kept as they are written.
-/

namespace CellMachine.Toml

/-- A value as it is written. -/
inductive Written where
  | text (s : String)
  | truth (b : Bool)
  | integer (numeral : List Char)
  | double (numeral : List Char)
  | moment (kind : MomentKind) (text : List Char)
  | list (items : List Written)
  | table (members : List (List String × Written))
deriving Inhabited

/-- What a line holds. -/
inductive Line where
  | assignment (key : List String) (value : Written)
  | header (key : List String)
  | item (key : List String)
deriving Inhabited

/-! ## White space and marks -/

/-- The text behind blanks and tabs. -/
def skipGap (cs : List Char) : List Char :=
  cs.dropWhile fun c => c == ' ' || c == '\t'

/-- The text behind a line break. -/
def skipBreak : List Char → Except Fault (List Char)
  | '\n' :: rest | '\r' :: '\n' :: rest => .ok rest
  | ['\r'] => .error .returnAtEnd
  | '\r' :: _ => .error .loneReturn
  | c :: _ => .error (.lineEnd c)
  | [] => .ok []

/-- The line break behind a comment. -/
def skipComment : List Char → Except Fault (List Char)
  | [] => .ok []
  | '\n' :: rest | '\r' :: '\n' :: rest => .ok ('\n' :: rest)
  | c :: rest => if c = '\r' || isControl c then .error .comment else skipComment rest

/-- The text behind white space, comments and line breaks. -/
def skipLines : Nat → List Char → Except Fault (List Char)
  | 0, cs => .ok cs
  | fuel + 1, cs => do
    let cs ← match skipGap cs with
      | '#' :: rest => skipComment rest
      | cs => .ok cs
    match cs with
    | '\n' :: _ | '\r' :: _ => skipLines fuel (← skipBreak cs)
    | _ => return cs

/-- The text behind white space, comments and line breaks. -/
def skipSpace (cs : List Char) : Except Fault (List Char) :=
  skipLines (cs.length + 1) cs

/-- The text behind a mark that must come next. -/
def expect (mark : Char) : List Char → Except Fault (List Char)
  | [] => .error (.endsBefore mark)
  | c :: rest => if c = mark then .ok rest else .error (.expected mark)

/-! ## Keys -/

/-- The characters of keys that need no quotes. -/
def isKeyChar (c : Char) : Bool :=
  c.isAlphanum || c == '_' || c == '-'

/-- A key, without the keys behind a dot. -/
def simpleKey (cs : List Char) : Except Fault (String × List Char) :=
  match cs with
  | [] => .error .noKey
  | '"' :: rest => (shortText .basic rest).mapError .text
  | '\'' :: rest => (shortText .literal rest).mapError .text
  | c :: _ =>
    let text := cs.takeWhile isKeyChar
    if text.isEmpty then .error (.keyStart c) else .ok (String.ofList text, cs.drop text.length)

/-- A key with the keys behind its dots, and the text behind them and blanks. -/
def keyFrom : Nat → List String → List Char → Except Fault (List String × List Char)
  | 0, _, _ => .error .noKey
  | fuel + 1, seen, cs => do
    let (k, rest) ← simpleKey cs
    match skipGap rest with
    | '.' :: rest => keyFrom fuel (k :: seen) (skipGap rest)
    | rest => return ((k :: seen).reverse, rest)

/-- A key with the keys behind its dots. -/
def key (cs : List Char) : Except Fault (List String × List Char) :=
  keyFrom (cs.length + 1) [] cs

/-! ## Numbers and dates -/

/-- Whether a date or a time of day starts here: four digits and a dash, or two and a
colon. -/
def startsMoment (cs : List Char) : Bool :=
  match cs.drop (cs.takeWhile Char.isDigit).length with
  | '-' :: _ => (cs.takeWhile Char.isDigit).length == 4
  | ':' :: _ => (cs.takeWhile Char.isDigit).length == 2
  | _ => false

/-- The characters of dates and times from an index on. One blank between digits is
among them, and with it the character behind its digit. -/
def momentLength : Nat → Bool → Nat → List Char → Nat
  | 0, _, n, _ => n
  | _ + 1, _, n, [] => n
  | fuel + 1, spaced, n, c :: rest =>
    if c.isDigit || "-+:.TtZz".toList.contains c then momentLength fuel spaced (n + 1) rest
    else if c = ' ' && !spaced && rest.head?.any Char.isDigit then
      match rest[1]? with
      | none => n + 2
      | some x => if x.toNat < 0x80 then momentLength fuel true (n + 3) (rest.drop 2) else n + 3
    else n

/-- The kind of a date or time by its characters. -/
def kindOfMoment (cs : List Char) : MomentKind :=
  let time := cs.any fun c => "T t:.".toList.contains c
  let zone := cs.any (fun c => "+Zz".toList.contains c) || (cs.drop 8).contains '-'
  if !time then .date
  else if !cs.contains '-' then .time
  else if zone then .zoned else .dateTime

/-- A date or a time of day. -/
def momentWord (cs : List Char) : Written × List Char :=
  let text := cs.take (momentLength (cs.length + 1) false 0 cs)
  (.moment (kindOfMoment text) text, cs.drop text.length)

/-- A word that must come next. -/
def exactly (word : String) (v : Written) (cs : List Char) : Except Fault (Written × List Char) :=
  if word.toList.isPrefixOf cs then .ok (v, cs.drop word.length) else .error (.word word)

/-- The characters of a number, those before in reverse, and whether it has a point or
an exponent. Words for numbers that are not finite end it. -/
def numberFrom : List Char → Bool → List Char → Except Fault (Written × List Char)
  | seen, fraction, cs =>
    let ended : Except Fault (Written × List Char) :=
      if seen.isEmpty then .error .noNumber
      else .ok (if fraction then .double seen.reverse else .integer seen.reverse, cs)
    match cs with
    | [] => ended
    | c :: rest =>
      if c.isDigit || c == '+' || c == '-' || c == '_' then numberFrom (c :: seen) fraction rest
      else if c == '.' || c == 'e' || c == 'E' then numberFrom (c :: seen) true rest
      else if c == 'i' || c == 'n' then
        let word := cs.take 3
        if word == ['i', 'n', 'f'] || word == ['n', 'a', 'n'] then
          .ok (.double (seen.reverse ++ word), cs.drop 3)
        else .error (.letterInNumber c)
      else ended

/-- The characters of digits behind the mark of a base. -/
def baseDigit? (mark : Char) : Option (Char → Bool) :=
  let digits := fun (base : Nat) (c : Char) => c == '_' || (digitOf? base c).isSome
  match mark with
  | 'x' => some (digits 16)
  | 'o' => some (digits 8)
  | 'b' => some (digits 2)
  | _ => none

/-- A number. Behind a zero at its front there must be the mark of a base, a point or
an exponent, unless it is all that is left of the text but one character. -/
def numberWord (cs : List Char) : Except Fault (Written × List Char) :=
  match cs with
  | '0' :: mark :: c :: rest =>
    if mark = '.' ∨ mark = 'e' ∨ mark = 'E' then numberFrom [] false cs
    else
      match baseDigit? mark with
      | none => .ok (.integer ['0'], mark :: c :: rest)
      | some isDigit =>
        let digits := (c :: rest).takeWhile isDigit
        .ok (.integer ('0' :: mark :: digits), (c :: rest).drop digits.length)
  | _ => numberFrom [] false cs

/-- A number, a date or a time of day. -/
def word (cs : List Char) : Except Fault (Written × List Char) :=
  match cs with
  | 'i' :: _ => exactly "inf" (.double ['i', 'n', 'f']) cs
  | 'n' :: _ => exactly "nan" (.double ['n', 'a', 'n']) cs
  | _ => if startsMoment cs then .ok (momentWord cs) else numberWord cs

/-! ## Values -/

mutual

/-- The value at the front of a text. -/
def value : Nat → List Char → Except Fault (Written × List Char)
  | 0, _ => .error .noValue
  | fuel + 1, cs =>
    match cs with
    | [] => .error .noValue
    | c :: rest =>
      if c = '"' then
        ((quotedText .basic cs).mapError .text).map fun (s, rest) => (.text s, rest)
      else if c = '\'' then
        ((quotedText .literal cs).mapError .text).map fun (s, rest) => (.text s, rest)
      else if c = 't' then exactly "true" (.truth true) cs
      else if c = 'f' then exactly "false" (.truth false) cs
      else if c = '[' then items fuel [] rest
      else if c.toNat = 0x7b then members fuel [] rest
      else word cs

/-- The rest of a list, with the items before in reverse. -/
def items : Nat → List Written → List Char → Except Fault (Written × List Char)
  | 0, _, _ => .error .openList
  | fuel + 1, seen, cs => do
    if cs.isEmpty then throw (.endsBefore ']')
    match ← skipSpace cs with
    | [] => throw .openList
    | ']' :: rest => return (.list seen.reverse, rest)
    | ',' :: rest =>
      if seen.isEmpty then throw .commaFirst
      match ← skipSpace rest with
      | ']' :: rest => return (.list seen.reverse, rest)
      | cs => item fuel seen cs
    | cs => if seen.isEmpty then item fuel seen cs else throw .noComma

/-- The rest of a list from an item on. -/
def item : Nat → List Written → List Char → Except Fault (Written × List Char)
  | 0, _, _ => .error .openList
  | fuel + 1, seen, cs => do
    let (v, rest) ← value fuel cs
    items fuel (v :: seen) (← skipSpace rest)

/-- The rest of an inline table, with the members before in reverse. -/
def members : Nat → List (List String × Written) → List Char →
    Except Fault (Written × List Char)
  | 0, _, _ => .error .openTable
  | fuel + 1, seen, cs => do
    let close := Char.ofNat 0x7d
    if cs.isEmpty then throw (.endsBefore close)
    match skipGap cs with
    | [] => throw .openTable
    | c :: rest =>
      if c = close then return (.table seen.reverse, rest)
      let cs ← if seen.isEmpty then pure (c :: rest) else (expect ',' (c :: rest)).map skipGap
      let (m, rest) ← assignment fuel cs
      members fuel (m :: seen) rest

/-- A key with its value. -/
def assignment : Nat → List Char → Except Fault ((List String × Written) × List Char)
  | 0, _ => .error .noKey
  | fuel + 1, cs => do
    let (k, rest) ← key cs
    if rest.isEmpty then throw .noSeparator
    let (v, rest) ← value fuel (skipGap (← expect '=' rest))
    return ((k, v), rest)

end

/-! ## Lines -/

/-- The header of one of several tables, behind its two brackets. -/
def itemHeader (cs : List Char) : Except Fault (Line × List Char) := do
  let (k, rest) ← key (skipGap cs)
  return (.item k, ← expect ']' (← expect ']' rest))

/-- The header of a table, behind its bracket. -/
def tableHeader (cs : List Char) : Except Fault (Line × List Char) := do
  let (k, rest) ← key (skipGap cs)
  return (.header k, ← expect ']' rest)

/-- What a line holds, and the text from the end of the line on. -/
def line (cs : List Char) : Except Fault (Option Line × List Char) := do
  let cs := skipGap cs
  let finish := fun (l : Option Line) (cs : List Char) =>
    match skipGap cs with
    | '#' :: rest => (skipComment rest).map (l, ·)
    | rest => Except.ok (l, rest)
  match cs with
  | [] | '\n' :: _ | '\r' :: _ | '#' :: _ => finish none cs
  | '[' :: '[' :: rest =>
    let (l, rest) ← itemHeader rest
    finish (some l) rest
  | '[' :: rest =>
    let (l, rest) ← tableHeader rest
    finish (some l) rest
  | cs =>
    let ((k, v), rest) ← assignment (4 * cs.length + 4) cs
    finish (some (.assignment k v)) rest

end CellMachine.Toml
