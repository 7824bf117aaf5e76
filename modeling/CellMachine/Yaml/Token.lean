import CellMachine.Yaml.Lexeme

/-!
# Tokens

A text is cut into tokens one after the other. In block form the indentation of
lines gives tokens too: a table or list starts with a token where its first line
stands further right than the lines before, and ends with one where a line stands
further left.

Whether a scalar is a key shows only at the colon behind it. So a token that can
start a key is kept as a possible key, one at each level of brackets, and the
token for the key is put in before it later on. A possible key is on one line and
takes at most 1024 characters; where a table goes on, a line must be a key.

The next token is known once two others stand behind it and it can no longer
become a key.
-/

namespace CellMachine.Yaml

/-- What a token is. -/
inductive TokenKind where
  | streamStart
  | streamEnd
  | directive (d : Directive)
  | documentStart
  | documentEnd
  | blockSequenceStart
  | blockMappingStart
  | blockEnd
  | flowSequenceStart
  | flowSequenceEnd
  | flowMappingStart
  | flowMappingEnd
  | blockEntry
  | flowEntry
  | key
  | value
  | alias (name : String)
  | anchor (name : String)
  | tag (handle text : String)
  | scalar (text : String) (plain : Bool)
deriving DecidableEq, Inhabited

/-- A token and where it stands. -/
structure Token where
  kind : TokenKind
  start : Mark
  stop : Mark
deriving DecidableEq, Inhabited

/-- A token that can turn out to be a key. -/
structure PossibleKey where
  possible : Bool
  /-- Whether it has to be one. -/
  required : Bool
  /-- The number of the token in the stream. -/
  number : Nat
  mark : Mark
deriving DecidableEq, Inhabited

/-- A text that is being cut into tokens. -/
structure TokenStream where
  /-- The number of characters of the whole text. -/
  size : Nat
  cursor : Cursor
  /-- The tokens that have been cut and not been taken. -/
  queue : List Token
  /-- The number of tokens that have been taken. -/
  taken : Nat
  /-- The column of the table or list that is being read, -1 if there is none. -/
  indent : Int
  /-- The columns of those around it. -/
  outer : List Int
  /-- The possible keys, that of the innermost brackets first. There is one for
  each level of brackets and one outside of all. -/
  keys : List PossibleKey
  /-- The number of brackets around the place. -/
  level : Nat
  /-- The tokens that wait to become keys: their numbers and levels, the last one
  first. -/
  waiting : List (Nat × Nat)
  /-- Whether a key can start here. -/
  keyAllowed : Bool
  started : Bool
  /-- Whether the text starts with a second byte order mark that is still in sight.
  As long as it is, a character is dropped at the start of every line. -/
  doubleMark : Bool
deriving Inhabited

namespace TokenStream

/-- The stream of a text. -/
def ofText (cs : List Char) : TokenStream :=
  ⟨cs.length, .start cs, [], 0, -1, [], [⟨false, false, 0, ⟨0, 0, 0⟩⟩], 0, [], true, false,
    cs.head? == some (Char.ofNat 0xfeff)⟩

/-- Whether the place is in flow form. -/
def inFlow (s : TokenStream) : Bool :=
  s.level != 0

/-- The place where the stream is. -/
def mark (s : TokenStream) : Mark :=
  s.cursor.mark

/-- The number of the token that is cut next. -/
def nextNumber (s : TokenStream) : Nat :=
  s.taken + s.queue.length

/-- The stream with a token at the end of its queue. -/
def push (s : TokenStream) (kind : TokenKind) (start stop : Mark) : TokenStream :=
  { s with queue := s.queue ++ [⟨kind, start, stop⟩] }

/-- The stream with a token put in before the token with a number. -/
def insert (s : TokenStream) (number : Nat) (kind : TokenKind) (mark : Mark) : TokenStream :=
  let k := number - s.taken
  { s with queue := s.queue.take k ++ ⟨kind, mark, mark⟩ :: s.queue.drop k }

/-- A token of some characters at the place. -/
def pushMark (s : TokenStream) (kind : TokenKind) (length : Nat) : TokenStream :=
  let after := Cursor.skip length s.cursor
  { s.push kind s.mark after.mark with cursor := after }

/-! ## Possible keys -/

/-- The possible key of the innermost brackets. -/
def currentKey (s : TokenStream) : PossibleKey :=
  s.keys.headD ⟨false, false, 0, ⟨0, 0, 0⟩⟩

/-- The stream with another possible key for the innermost brackets. -/
def setKey (s : TokenStream) (k : PossibleKey) : TokenStream :=
  { s with keys := k :: s.keys.tail }

/-- The stream in which the token with a number no longer waits. -/
def forget (s : TokenStream) (number : Nat) : TokenStream :=
  { s with waiting := s.waiting.filter (·.1 != number) }

/-- The fault of a line that had to be a key. -/
def failKey {α : Type} (s : TokenStream) (k : PossibleKey) : Except Fault α :=
  s.cursor.fail k.mark "could not find expected ':'"

/-- Whether a possible key is too far behind to become one. -/
def isStale (s : TokenStream) (k : PossibleKey) : Bool :=
  k.mark.line < s.mark.line || k.mark.index + 1024 < s.mark.index

/-- Gives up the possible key of the innermost brackets. -/
def dropKey (s : TokenStream) : Except Fault TokenStream :=
  let k := s.currentKey
  if !k.possible then .ok s
  else if k.required then s.failKey k
  else .ok ((s.setKey { k with possible := false }).forget k.number)

/-- Keeps the next token as a possible key, where that is allowed. -/
def saveKey (s : TokenStream) : Except Fault TokenStream :=
  if !s.keyAllowed then .ok s
  else do
    let required := !s.inFlow && s.indent = s.mark.column
    let number := s.nextNumber
    let s ← s.dropKey
    let s := s.setKey ⟨true, required, number, s.mark⟩
    return { s with waiting := (number, s.level) :: s.waiting }

/-- Whether the next token of the queue waits to become a key. A possible key that
is too far behind is given up. -/
def headWaits (s : TokenStream) : Except Fault (Bool × TokenStream) :=
  match s.waiting.find? (·.1 == s.taken) with
  | none => .ok (false, s)
  | some (_, level) =>
    let place := s.level - level
    match s.keys[place]? with
    | none => .ok (false, s)
    | some k =>
      if !k.possible then .ok (false, s)
      else if !s.isStale k then .ok (true, s)
      else if k.required then s.failKey k
      else .ok (false, { s with keys := s.keys.set place { k with possible := false } })

/-! ## Indentation -/

/-- The greatest depth of brackets and of indentation. -/
def greatestDepth : Nat := 10000

/-- The fault of a text that goes too deep. -/
def failDepth {α : Type} (s : TokenStream) : Except Fault α :=
  s.cursor.fail s.currentKey.mark ("exceeded max depth of " ++ Numeral.write greatestDepth)

/-- Starts a table or list at a column, if it stands further right than the one
around it. The token goes before the one with a number, or to the end. -/
def startBlock (s : TokenStream) (column : Nat) (number : Option Nat) (kind : TokenKind)
    (mark : Mark) : Except Fault TokenStream :=
  if s.inFlow || (column : Int) ≤ s.indent then .ok s
  else
    let s := { s with outer := s.indent :: s.outer, indent := column }
    if greatestDepth < s.outer.length then s.failDepth
    else .ok (match number with
      | some n => s.insert n kind mark
      | none => s.push kind mark mark)

/-- Ends the tables and lists that stand further right than a column. -/
def endBlocksFrom (column : Int) (mark : Mark) : List Int → TokenStream → TokenStream
  | [], s => s
  | above :: outer, s =>
    if s.indent ≤ column then s
    else endBlocksFrom column mark outer
      { s.push .blockEnd mark mark with indent := above, outer }

/-- Ends the tables and lists that stand further right than a column. -/
def endBlocks (s : TokenStream) (column : Int) (mark : Mark) : TokenStream :=
  if s.inFlow then s else endBlocksFrom column mark s.outer s

/-! ## White space -/

/-- Skips white space and comments. A line break allows a key in block form. Where a
key is allowed in block form, tabs are not white space. -/
def skipSpaceFrom : Nat → TokenStream → TokenStream
  | 0, s => s
  | fuel + 1, s =>
    let c := if s.mark.column = 0 && s.doubleMark then s.cursor.next else s.cursor
    let tabs := s.inFlow || !s.keyAllowed
    let c := c.skipWhile fun x => x == ' ' || (tabs && x == '\t')
    let c := if c.here = '#' then skipComments (c.rest.length + 1) c else c
    if isBreak c.here then
      skipSpaceFrom fuel { s with cursor := c.nextLine, keyAllowed := s.keyAllowed || !s.inFlow }
    else { s with cursor := c }

/-- Skips white space and comments. -/
def skipSpace (s : TokenStream) : TokenStream :=
  skipSpaceFrom (s.size + 1) s

/-! ## Cutting a token -/

/-- The end of the text. It counts as the start of a line. -/
def cutEnd (s : TokenStream) : Except Fault TokenStream := do
  let mark := s.mark
  let mark := if mark.column = 0 then mark else { mark with line := mark.line + 1, column := 0 }
  let s := { s with cursor := { s.cursor with mark } }
  let s ← (s.endBlocks (-1) mark).dropKey
  return { s with keyAllowed := false }.push .streamEnd mark mark

/-- A directive. -/
def cutDirective (s : TokenStream) : Except Fault TokenStream := do
  let s ← (s.endBlocks (-1) s.mark).dropKey
  let (d, c) ← directive s.cursor
  return { s.push (.directive d) s.mark c.mark with cursor := c, keyAllowed := false }

/-- A line that separates documents. -/
def cutSeparator (s : TokenStream) (kind : TokenKind) : Except Fault TokenStream := do
  let s ← (s.endBlocks (-1) s.mark).dropKey
  return { s with keyAllowed := false }.pushMark kind 3

/-- An opening bracket. -/
def cutOpening (s : TokenStream) (kind : TokenKind) : Except Fault TokenStream := do
  let s ← s.saveKey
  let s := { s with
    keys := ⟨false, false, s.nextNumber, s.mark⟩ :: s.keys
    level := s.level + 1 }
  if greatestDepth < s.level then s.failDepth
  else return { s with keyAllowed := true }.pushMark kind 1

/-- A closing bracket. -/
def cutClosing (s : TokenStream) (kind : TokenKind) : Except Fault TokenStream := do
  let s ← s.dropKey
  let s := if s.inFlow then
      { s.forget s.currentKey.number with keys := s.keys.tail, level := s.level - 1 }
    else s
  return { s with keyAllowed := false }.pushMark kind 1

/-- A comma in flow form. -/
def cutFlowEntry (s : TokenStream) : Except Fault TokenStream := do
  let s ← s.dropKey
  return { s with keyAllowed := true }.pushMark .flowEntry 1

/-- The mark of a list item. -/
def cutBlockEntry (s : TokenStream) : Except Fault TokenStream := do
  let s ←
    if s.inFlow then .ok s
    else if !s.keyAllowed then
      s.cursor.fail s.mark "block sequence entries are not allowed in this context"
    else s.startBlock s.mark.column none .blockSequenceStart s.mark
  let s ← s.dropKey
  return { s with keyAllowed := true }.pushMark .blockEntry 1

/-- The mark of a key. -/
def cutKey (s : TokenStream) : Except Fault TokenStream := do
  let s ←
    if s.inFlow then .ok s
    else if !s.keyAllowed then
      s.cursor.fail s.mark "mapping keys are not allowed in this context"
    else s.startBlock s.mark.column none .blockMappingStart s.mark
  let s ← s.dropKey
  return { s with keyAllowed := !s.inFlow }.pushMark .key 1

/-- The mark of a value, which makes a key of the possible key before it. -/
def cutValue (s : TokenStream) : Except Fault TokenStream := do
  let k := s.currentKey
  if k.possible && !s.isStale k then
    let s := s.insert k.number .key k.mark
    let s ← s.startBlock k.mark.column (some k.number) .blockMappingStart k.mark
    let s := (s.setKey { k with possible := false }).forget k.number
    return { s with keyAllowed := false }.pushMark .value 1
  else if k.possible && k.required then s.failKey k
  else
    let s := s.setKey { k with possible := false }
    let s ←
      if s.inFlow then .ok s
      else if !s.keyAllowed then
        s.cursor.fail s.mark "mapping values are not allowed in this context"
      else s.startBlock s.mark.column none .blockMappingStart s.mark
    return { s with keyAllowed := !s.inFlow }.pushMark .value 1

/-- A token that can start a key and is not followed by one. -/
def cutWord (s : TokenStream) (read : Cursor → Except Fault (TokenKind × Cursor)) :
    Except Fault TokenStream := do
  let s ← s.saveKey
  let (kind, c) ← read s.cursor
  return { s.push kind s.mark c.mark with cursor := c, keyAllowed := false }

/-- A plain scalar. A key can follow it if its line has ended. -/
def cutPlain (s : TokenStream) : Except Fault TokenStream := do
  let s ← s.saveKey
  let t ← plainScalar s.inFlow (s.indent + 1).toNat s.cursor
  let kind := TokenKind.scalar (String.ofList t.seen.reverse) true
  return { s.push kind s.mark t.stop with cursor := t.cursor, keyAllowed := t.broken }

/-- A block of lines. -/
def cutBlock (s : TokenStream) : Except Fault TokenStream := do
  let s ← s.dropKey
  let (text, c) ← blockScalar s.indent s.cursor
  return { s.push (.scalar text false) s.mark c.mark with cursor := c, keyAllowed := true }

/-- Whether a plain scalar can start with a character before another. -/
def startsPlain (flow : Bool) (x y : Char) : Bool :=
  !(isSpaceOrEnd x || isFlowMark x || "-?:#&*!|>'\"%@".toList.contains x || x.toNat == 0x60) ||
    (x == '-' && !isGap y) || (!flow && (x == '?' || x == ':') && !isSpaceOrEnd y)

/-- The token at the place, where it is no separator of documents. -/
def cutOther (s : TokenStream) : Except Fault TokenStream :=
  let x := s.cursor.here
  let y := s.cursor.peek 1
  if x = '[' then s.cutOpening .flowSequenceStart
  else if x.toNat = 0x7b then s.cutOpening .flowMappingStart
  else if x = ']' then s.cutClosing .flowSequenceEnd
  else if x.toNat = 0x7d then s.cutClosing .flowMappingEnd
  else if x = ',' then s.cutFlowEntry
  else if x = '-' && isSpaceOrEnd y then s.cutBlockEntry
  else if x = '?' && (s.inFlow || isSpaceOrEnd y) then s.cutKey
  else if x = ':' && (s.inFlow || isSpaceOrEnd y) then s.cutValue
  else if x = '*' then s.cutWord fun c => (anchorName c).map fun (n, c) => (.alias n, c)
  else if x = '&' then s.cutWord fun c => (anchorName c).map fun (n, c) => (.anchor n, c)
  else if x = '!' then s.cutWord fun c => (tagParts c).map fun (t, c) => (.tag t.1 t.2, c)
  else if (x = '|' || x = '>') && !s.inFlow then s.cutBlock
  else if x = '\'' || x = '"' then
    s.cutWord fun c => (quotedScalar (x = '\'') c).map fun (t, c) => (.scalar t false, c)
  else if startsPlain s.inFlow x y then s.cutPlain
  else s.cursor.fail s.mark "found character that cannot start any token"

/-- Skips a comment behind a token, unless that is the mark of a list item. -/
def skipTrailing (s : TokenStream) : TokenStream :=
  if s.queue.getLast?.any (·.kind == .blockEntry) then s
  else { s with cursor := skipLineComment s.cursor }

/-- Cuts the next token. -/
def cut (s : TokenStream) : Except Fault TokenStream :=
  if !s.started then .ok ({ s with started := true }.push .streamStart s.mark s.mark)
  else
    let before := s.mark
    let s := s.skipSpace
    let s := s.endBlocks s.mark.column before
    let s := { s with doubleMark := s.doubleMark && 4 ≤ (s.cursor.rest.take 4).length }
    if s.cursor.atEnd then s.cutEnd
    else if s.mark.column = 0 && s.cursor.here = '%' then s.cutDirective
    else if s.cursor.atDocumentMark '-' then s.cutSeparator .documentStart
    else if s.cursor.atDocumentMark '.' then s.cutSeparator .documentEnd
    else s.cutOther.map skipTrailing

/-! ## Taking tokens -/

/-- Cuts tokens until the next one is known. -/
def settle : Nat → TokenStream → Except Fault TokenStream
  | 0, s => .ok s
  | fuel + 1, s =>
    if s.queue.length < 3 then do settle fuel (← s.cut)
    else do
      let (waits, s) ← s.headWaits
      if waits then settle fuel (← s.cut) else return s

/-- The next token. -/
def peek (s : TokenStream) : Except Fault (Token × TokenStream) := do
  let s ← settle (s.size + 8) s
  return (s.queue.headD ⟨.streamEnd, s.mark, s.mark⟩, s)

/-- The stream behind the next token. -/
def drop (s : TokenStream) : TokenStream :=
  { s with queue := s.queue.tail, taken := s.taken + 1 }

end TokenStream

end CellMachine.Yaml
