import CellMachine.Yaml.Cursor
import CellMachine.Number.Decimal

/-!
# Scalars, names and tags in a text

Readers of what a single token holds: a scalar that is plain, quoted or a block
of lines, the name of an anchor, a tag, a directive. Each takes a cursor at the
first character and gives the cursor behind the last. White space inside a plain
or quoted scalar is folded: a line break is a blank, and of several breaks the
first is dropped.
-/

namespace CellMachine.Yaml

/-! ## White space inside scalars -/

/-- White space between two words of a scalar. -/
structure Space where
  /-- The blanks before any line break, in reverse. -/
  blanks : List Char
  /-- Whether a line break has been met. -/
  broken : Bool
  /-- What the first line break stands for. -/
  first : List Char
  /-- What the others stand for. -/
  others : List Char
deriving Inhabited

namespace Space

/-- No white space. -/
def none : Space := ⟨[], false, [], []⟩

/-- What white space comes to in a scalar. -/
def folded (s : Space) : List Char :=
  if !s.broken then s.blanks.reverse
  else if s.first == ['\n'] then if s.others.isEmpty then [' '] else s.others
  else s.first ++ s.others

/-- White space with a line break added. -/
def addBreak (s : Space) (text : List Char) : Space :=
  if s.broken then { s with others := s.others ++ text }
  else { s with blanks := [], broken := true, first := text }

/-- The white space at a cursor, added to what stands before it. -/
def read : Nat → Space → Cursor → Space × Cursor
  | 0, s, c => (s, c)
  | fuel + 1, s, c =>
    if isGap c.here then
      read fuel (if s.broken then s else { s with blanks := c.here :: s.blanks }) c.next
    else if isBreak c.here then read fuel (s.addBreak c.breakText) c.nextLine
    else (s, c)

end Space

/-! ## Plain scalars -/

/-- A plain scalar that has been read. -/
structure PlainText where
  /-- Its characters, in reverse. -/
  seen : List Char
  stop : Mark
  /-- Whether a line has ended behind it. -/
  broken : Bool
  cursor : Cursor
deriving Inhabited

/-- The part of a plain scalar up to white space or a mark that ends it. -/
def plainWord (flow : Bool) : List Char → List Char
  | [] => []
  | x :: rest =>
    if isSpaceOrEnd x || (x == ':' && rest.head?.all isSpaceOrEnd) ||
        (flow && (x == '?' || isFlowMark x)) then []
    else x :: plainWord flow rest

/-- Refuses a tab among the blanks that indent a line by less than `indent`. -/
def checkTabs (start : Mark) (indent : Nat) : Nat → Bool → Cursor → Except Fault Unit
  | 0, _, _ => .ok ()
  | fuel + 1, broken, c =>
    if isGap c.here then
      if broken && c.column < indent && c.here = '\t' then
        c.fail start "found a tab character that violates indentation"
      else checkTabs start indent fuel broken c.next
    else if isBreak c.here then checkTabs start indent fuel true c.nextLine
    else .ok ()

/-- The rest of a plain scalar whose lines are indented by `indent` or more, behind
the characters `seen` and some white space. -/
def plainFrom (flow : Bool) (indent : Nat) (start : Mark) :
    Nat → List Char → Mark → Space → Cursor → Except Fault PlainText
  | 0, seen, stop, space, c => .ok ⟨seen, stop, space.broken, c⟩
  | fuel + 1, seen, stop, space, c =>
    if c.atSeparator || c.here = '#' then .ok ⟨seen, stop, space.broken, c⟩
    else
      let word := plainWord flow c.rest
      let seen := if word.isEmpty then seen else word.reverse ++ (space.folded.reverse ++ seen)
      let space := if word.isEmpty then space else .none
      let c := Cursor.skip word.length c
      let stop := if word.isEmpty then stop else c.mark
      if !(isGap c.here || isBreak c.here) then .ok ⟨seen, stop, space.broken, c⟩
      else do
        checkTabs start indent (c.rest.length + 1) space.broken c
        let (space, c) := Space.read (c.rest.length + 1) space c
        if !flow && c.column < indent then return ⟨seen, stop, space.broken, c⟩
        plainFrom flow indent start fuel seen stop space c

/-- A plain scalar. -/
def plainScalar (flow : Bool) (indent : Nat) (c : Cursor) : Except Fault PlainText :=
  plainFrom flow indent c.mark (c.rest.length + 1) [] c.mark .none c

/-! ## Quoted scalars -/

/-- The character that an escape stands for, or the number of hexadecimal digits
that give it. -/
def escaped? : Char → Option (Char ⊕ Nat)
  | '0' => some (.inl (Char.ofNat 0))
  | 'a' => some (.inl (Char.ofNat 7))
  | 'b' => some (.inl (Char.ofNat 8))
  | 't' | '\t' => some (.inl '\t')
  | 'n' => some (.inl '\n')
  | 'v' => some (.inl (Char.ofNat 0xb))
  | 'f' => some (.inl (Char.ofNat 0xc))
  | 'r' => some (.inl '\r')
  | 'e' => some (.inl (Char.ofNat 0x1b))
  | ' ' => some (.inl ' ')
  | '"' => some (.inl '"')
  | '\'' => some (.inl '\'')
  | '\\' => some (.inl '\\')
  | 'N' => some (.inl (Char.ofNat 0x85))
  | '_' => some (.inl (Char.ofNat 0xa0))
  | 'L' => some (.inl (Char.ofNat 0x2028))
  | 'P' => some (.inl (Char.ofNat 0x2029))
  | 'x' => some (.inr 2)
  | 'u' => some (.inr 4)
  | 'U' => some (.inr 8)
  | _ => none

/-- The character of an escape at a backslash, and the place behind it. -/
def escape? (start : Mark) (c : Cursor) : Except Fault (Char × Cursor) :=
  match escaped? (c.peek 1) with
  | none => c.fail start "found unknown escape character"
  | some (.inl x) => .ok (x, Cursor.skip 2 c)
  | some (.inr places) =>
    let c := Cursor.skip 2 c
    let digits := c.rest.take places
    match digitsOf? 16 digits with
    | none => c.fail start "did not find expected hexdecimal number"
    | some n =>
      if digits.length < places then c.fail start "did not find expected hexdecimal number"
      else if n.isValidChar then .ok (Char.ofNat n, Cursor.skip places c)
      else c.fail start "found invalid Unicode character escape code"

/-- The characters of a quoted scalar up to white space, an escaped line break or
the last quote, and whether it is an escaped line break. -/
def quotedWord (single : Bool) (start : Mark) :
    Nat → List Char → Cursor → Except Fault (List Char × Bool × Cursor)
  | 0, seen, c => .ok (seen, false, c)
  | fuel + 1, seen, c =>
    let x := c.here
    if isSpaceOrEnd x then .ok (seen, false, c)
    else if single && x = '\'' then
      if c.peek 1 = '\'' then quotedWord single start fuel ('\'' :: seen) c.next.next
      else .ok (seen, false, c)
    else if !single && x = '"' then .ok (seen, false, c)
    else if !single && x = '\\' then
      if isBreak (c.peek 1) then .ok (seen, true, c.next.nextLine)
      else do
        let (y, c) ← escape? start c
        quotedWord single start fuel (y :: seen) c
    else quotedWord single start fuel (x :: seen) c.next

/-- The rest of a quoted scalar, behind the characters `seen`. -/
def quotedFrom (single : Bool) (start : Mark) :
    Nat → List Char → Cursor → Except Fault (String × Cursor)
  | 0, _, c => c.fail start "found unexpected end of stream"
  | fuel + 1, seen, c =>
    if c.atSeparator then c.fail start "found unexpected document indicator"
    else if c.atEnd then c.fail start "found unexpected end of stream"
    else do
      let (seen, escapedBreak, c) ← quotedWord single start (c.rest.length + 1) seen c
      if c.here = (if single then '\'' else '"') then
        return (String.ofList seen.reverse, c.next)
      let before : Space := { Space.none with broken := escapedBreak }
      let (space, c) := Space.read (c.rest.length + 1) before c
      quotedFrom single start fuel (space.folded.reverse ++ seen) c

/-- A quoted scalar. -/
def quotedScalar (single : Bool) (c : Cursor) : Except Fault (String × Cursor) :=
  quotedFrom single c.mark (c.rest.length + 1) [] c.next

/-! ## Blocks of lines -/

/-- What becomes of the line breaks at the end of a block. -/
inductive Chomp where
  | strip
  | clip
  | keep
deriving DecidableEq, Inhabited

/-- How the line breaks at the end of a block are marked. -/
def chompAt? (c : Cursor) : Option Chomp :=
  if c.here = '+' then some .keep else if c.here = '-' then some .strip else none

/-- The number of a mark for the indentation of a block, zero if there is none. -/
def incrementAt (start : Mark) (c : Cursor) : Except Fault (Nat × Cursor) :=
  if c.here = '0' then c.fail start "found an indentation indicator equal to 0"
  else if c.here.isDigit then .ok (c.here.toNat - '0'.toNat, c.next)
  else .ok (0, c)

/-- The marks behind the first one of a block, in either order. -/
def blockMarks (start : Mark) (c : Cursor) : Except Fault (Chomp × Nat × Cursor) :=
  match chompAt? c with
  | some chomp => do
    let (increment, c) ← incrementAt start c.next
    return (chomp, increment, c)
  | none => do
    let (increment, c) ← incrementAt start c
    match if increment = 0 then none else chompAt? c with
    | some chomp => return (chomp, increment, c.next)
    | none => return (.clip, increment, c)

/-- The start of the line behind the marks of a block. -/
def blockBody (start : Mark) (c : Cursor) : Except Fault Cursor :=
  let c := c.skipGap
  let c := if c.here = '#' then c.skipLine else c
  if isBreakOrEnd c.here then .ok c.nextLine
  else c.fail start "did not find expected comment or line break"

/-- The empty lines of a block at a cursor, the widest indentation among them and
the line that follows, and the place after the indentation of that line. With an
indentation of zero all blanks count as indentation. -/
def blankLines (start : Mark) (indent : Nat) :
    Nat → Nat → List Char → Cursor → Except Fault (Nat × List Char × Cursor)
  | 0, widest, breaks, c => .ok (widest, breaks, c)
  | fuel + 1, widest, breaks, c =>
    let blanks := (c.rest.takeWhile (· == ' ')).length
    let c := Cursor.skip (if indent = 0 then blanks else min blanks (indent - c.column)) c
    let widest := max widest c.column
    if (indent = 0 || c.column < indent) && c.here = '\t' then
      c.fail start "found a tab character where an indentation space is expected"
    else if isBreak c.here then
      blankLines start indent fuel widest (breaks ++ c.breakText) c.nextLine
    else .ok (widest, breaks, c)

/-- The rest of a block with an indentation, behind the characters `seen`, the line
break `first` and the empty lines `others`. `led` tells that the line before starts
with a blank. -/
def blockLines (literal : Bool) (chomp : Chomp) (start : Mark) (indent : Nat) :
    Nat → List Char → List Char → List Char → Bool → Cursor → Except Fault (String × Cursor)
  | 0, seen, _, _, _, c => .ok (String.ofList seen.reverse, c)
  | fuel + 1, seen, first, others, led, c =>
    if c.column ≠ indent || c.atEnd then
      let ending := match chomp with
        | .strip => []
        | .clip => first
        | .keep => first ++ others
      .ok (String.ofList (seen.reverse ++ ending), c)
    else do
      let leads := isGap c.here
      let joined :=
        if !literal && !led && !leads && first == ['\n'] then
          if others.isEmpty then [' '] else others
        else first ++ others
      let line := c.rest.takeWhile fun x => !isBreak x
      let seen := line.reverse ++ (joined.reverse ++ seen)
      let c := c.skipLine
      let first := c.breakText
      let (_, others, c) ← blankLines start indent (c.rest.length + 1) 0 [] c.nextLine
      blockLines literal chomp start indent fuel seen first others leads c

/-- A block in a table or list at column `parent`, which is -1 outside of all. -/
def blockScalar (parent : Int) (c : Cursor) : Except Fault (String × Cursor) := do
  let start := c.mark
  let literal := c.here = '|'
  let (chomp, increment, c) ← blockMarks start c.next
  let c ← blockBody start c
  let given := if increment = 0 then 0 else (max parent 0).toNat + increment
  let (widest, breaks, c) ← blankLines start given (c.rest.length + 1) 0 [] c
  let indent := if given = 0 then max (max widest (parent + 1).toNat) 1 else given
  blockLines literal chomp start indent (c.rest.length + 2) [] [] breaks false c

/-! ## Names, tags and directives -/

/-- The name behind the mark of an anchor or of a node that stands for one. -/
def anchorName (c : Cursor) : Except Fault (String × Cursor) :=
  let start := c.mark
  let name := c.next.rest.takeWhile isNameChar
  let c := Cursor.skip (name.length + 1) c
  if name.isEmpty || !(isSpaceOrEnd c.here || "?:,]%@".toList.contains c.here ||
      c.here.toNat == 0x7d || c.here.toNat == 0x60) then
    c.fail start "did not find expected alphabetic or numeric character"
  else .ok (String.ofList name, c)

/-- The characters of tags. -/
def isTagChar (c : Char) : Bool :=
  isNameChar c || ";/?:@&=+$,.%!~*'()[]".toList.contains c

/-- The number of bytes of a character whose encoding starts with a byte, zero if
none does. -/
def encodedLength (byte : Nat) : Nat :=
  if byte < 0x80 then 1
  else if 0xc0 ≤ byte && byte < 0xe0 then 2
  else if 0xe0 ≤ byte && byte < 0xf0 then 3
  else if 0xf0 ≤ byte && byte < 0xf8 then 4
  else 0

/-- The bytes of a character written as percent signs with hexadecimal digits, of
which `left` are still to come; it is not known at first. -/
def tagBytes (start : Mark) :
    Nat → Option Nat → List UInt8 → Cursor → Except Fault (List UInt8 × Cursor)
  | 0, _, bytes, c => .ok (bytes, c)
  | fuel + 1, left, bytes, c =>
    if left = some 0 then .ok (bytes, c)
    else
      match c.here == '%', digitOf? 16 (c.peek 1), digitOf? 16 (c.peek 2) with
      | true, some high, some low =>
        let byte := 16 * high + low
        match left with
        | none =>
          if encodedLength byte = 0 then
            c.fail start "found an incorrect leading UTF-8 octet"
          else
            tagBytes start fuel (some (encodedLength byte - 1)) [UInt8.ofNat byte] (Cursor.skip 3 c)
        | some n =>
          if byte / 64 = 2 then
            tagBytes start fuel (some (n - 1)) (bytes ++ [UInt8.ofNat byte]) (Cursor.skip 3 c)
          else c.fail start "found an incorrect trailing UTF-8 octet"
      | _, _, _ => c.fail start "did not find URI escaped octet"

/-- The characters of a tag, behind those of `seen`. -/
def tagFrom (start : Mark) : Nat → List Char → Cursor → Except Fault (List Char × Cursor)
  | 0, seen, c => .ok (seen, c)
  | fuel + 1, seen, c =>
    if c.here = '%' then do
      let (bytes, c) ← tagBytes start 5 none [] c
      tagFrom start fuel ((Glyph.decodeAll bytes).map Glyph.shown |>.reverse |>.append seen) c
    else if isTagChar c.here then tagFrom start fuel (c.here :: seen) c.next
    else .ok (seen, c)

/-- The rest of a tag behind the characters `head`; at least one character is
wanted, unless there is a head. -/
def tagRest (start : Mark) (head : Option (List Char)) (c : Cursor) :
    Except Fault (String × Cursor) := do
  let (seen, after) ← tagFrom start (c.rest.length + 1) [] c
  if head.isNone && after.mark = c.mark then
    after.fail start "did not find expected tag URI"
  else return (String.ofList (head.getD [] ++ seen.reverse), after)

/-- The characters of a tag handle at an exclamation mark. -/
def handleText (c : Cursor) : List Char × Cursor :=
  let name := c.next.rest.takeWhile isNameChar
  let after := Cursor.skip (name.length + 1) c
  if after.here = '!' then ('!' :: name ++ ['!'], after.next) else ('!' :: name, after)

/-- A tag in angle brackets. -/
def wholeTag (start : Mark) (c : Cursor) : Except Fault (String × Cursor) := do
  let (text, c) ← tagRest start none (Cursor.skip 2 c)
  if c.here = '>' then return (text, c.next)
  c.fail start "did not find the expected '>'"

/-- The handle and the rest of a tag that is not in angle brackets. -/
def shortTagParts (start : Mark) (c : Cursor) : Except Fault ((String × String) × Cursor) := do
  let (handle, after) := handleText c
  if 1 < handle.length && handle.getLast? == some '!' then
    let (text, c) ← tagRest start none after
    return ((String.ofList handle, text), c)
  let (text, c) ← tagRest start (some handle.tail) after
  return (if text.isEmpty then ("", "!") else ("!", text), c)

/-- A tag as a handle and the rest, of which the handle can be empty. -/
def tagParts (c : Cursor) : Except Fault ((String × String) × Cursor) := do
  let start := c.mark
  let (parts, c) ←
    if c.peek 1 = '<' then (wholeTag start c).map fun (text, c) => (("", text), c)
    else shortTagParts start c
  if isSpaceOrEnd c.here then return (parts, c)
  c.fail start "did not find expected whitespace or line break"

/-- A directive of a document. -/
inductive Directive where
  | version (major minor : Nat)
  /-- What a tag handle stands for. -/
  | handle (name text : String)
deriving DecidableEq, Inhabited

/-- A number of a version. -/
def versionNumber (start : Mark) (c : Cursor) : Except Fault (Nat × Cursor) :=
  let digits := c.rest.takeWhile Char.isDigit
  if 2 < digits.length then (Cursor.skip 2 c).fail start "found extremely long version number"
  else if digits.isEmpty then c.fail start "did not find expected version number"
  else .ok ((digitsOf? 10 digits).getD 0, Cursor.skip digits.length c)

/-- The two numbers of a version. -/
def versionDirective (start : Mark) (c : Cursor) : Except Fault (Directive × Cursor) := do
  let (major, c) ← versionNumber start c.skipGap
  if c.here ≠ '.' then c.fail start "did not find expected digit or '.' character"
  else
    let (minor, c) ← versionNumber start c.next
    return (.version major minor, c)

/-- A tag handle and what it stands for. -/
def handleDirective (start : Mark) (c : Cursor) : Except Fault (Directive × Cursor) := do
  let c := c.skipGap
  if c.here ≠ '!' then c.fail start "did not find expected '!'"
  else
    let (handle, c) := handleText c
    if handle ≠ ['!'] && handle.getLast? ≠ some '!' then
      c.fail start "did not find expected '!'"
    else if !isGap c.here then c.fail start "did not find expected whitespace"
    else
      let (text, c) ← tagRest start none c.skipGap
      if isSpaceOrEnd c.here then return (.handle (String.ofList handle) text, c)
      c.fail start "did not find expected whitespace or line break"

/-- A directive, up to the end of its line. -/
def directive (c : Cursor) : Except Fault (Directive × Cursor) := do
  let start := c.mark
  let name := c.next.rest.takeWhile isNameChar
  let c := Cursor.skip (name.length + 1) c
  if name.isEmpty then c.fail start "could not find expected directive name"
  else if !isSpaceOrEnd c.here then
    c.fail start "found unexpected non-alphabetical character"
  else
    let (found, c) ←
      if name = "YAML".toList then versionDirective start c
      else if name = "TAG".toList then handleDirective start c
      else c.fail start "found unknown directive name"
    let c := c.skipGap
    let c := if c.here = '#' then c.skipLine else c
    if isBreakOrEnd c.here then return (found, c.nextLine)
    c.fail start "did not find expected comment or line break"

end CellMachine.Yaml
