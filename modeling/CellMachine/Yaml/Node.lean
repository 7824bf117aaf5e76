import CellMachine.Yaml.Token
import CellMachine.Yaml.Scalar

/-!
# Nodes

A document is a tree of nodes: scalars, lists, tables, and nodes that stand for
another one by the name of its anchor. The tree is read from the tokens of a text
with one token of lookahead. Every node has a tag. If none is written, a scalar in
quotes is a text, a plain one is what it stands for, and lists and tables have tags
of their own.

An anchor belongs to its node from the start of the node on, so a node can stand
for one that holds it. Hence such a node only names its target, and the nodes with
anchors are kept in a list of their own.
-/

namespace CellMachine.Yaml

/-- A node of a document. Lines count from one. -/
inductive Node where
  | scalar (line : Nat) (tag text : String)
  | sequence (line : Nat) (tag : String) (items : List Node)
  | mapping (line : Nat) (tag : String) (members : List (Node × Node))
  /-- A node that stands for the one whose anchor is at the character `target`. It is
  at the character `place`. -/
  | alias (line : Nat) (name : String) (place target : Nat)
deriving Inhabited

/-- A document: its root, if it has one, and its nodes with anchors, by the place of
the anchor. -/
structure Document where
  root : Option Node
  anchored : List (Nat × Node)
deriving Inhabited

/-! ## Tags -/

namespace Tag

/-- What the tags of the format start with. -/
def standard : List Char := "tag:yaml.org,2002:".toList

/-- A tag in its short form. -/
def short (tag : String) : String :=
  let cs := tag.toList
  if standard.isPrefixOf cs then "!!" ++ String.ofList (cs.drop standard.length) else tag

/-- The tag of what a plain scalar stands for. -/
def ofScalar : Scalar → String
  | .null => "!!null"
  | .bool _ => "!!bool"
  | .int _ => "!!int"
  | .double _ => "!!float"
  | .moment _ => "!!timestamp"
  | .text => "!!str"

/-- The tag of a plain scalar without a written one. -/
def ofPlain (text : String) : String :=
  if text = "<<" then "!!merge" else ofScalar (Scalar.ofPlain text)

/-- The tag of a node: the written one, unless there is none or only its mark. -/
def orElse (written : Option String) (standard : String) : String :=
  match written with
  | none | some "!" => standard
  | some tag => short tag

end Tag

/-! ## Reading -/

/-- A document that is being read. -/
structure NodeReader where
  tokens : TokenStream
  /-- What the handles of tags stand for. -/
  handles : List (String × String)
  /-- The anchors met so far, the last one first, with their places. -/
  names : List (String × Nat)
  anchored : List (Nat × Node)
deriving Inhabited

/-- A step in reading a document. -/
abbrev Reading : Type → Type := StateT NodeReader (Except Fault)

namespace Reading

/-- The next token. -/
def peek : Reading Token := do
  let r ← get
  let (t, tokens) ← liftM r.tokens.peek
  set { r with tokens }
  return t

/-- Takes the next token. -/
def drop : Reading Unit :=
  modify fun r => { r with tokens := r.tokens.drop }

/-- The token behind the next one, which is taken. -/
def next : Reading Token := do
  drop
  peek

/-- A fault in the structure of a document. -/
def fail {α : Type} (context problem : Mark) (text : String) : Reading α := do
  let r ← get
  throw (.malformed false context problem r.tokens.mark.index text)

/-- The properties of a node before its content. -/
structure Properties where
  start : Mark
  anchor : Option (String × Mark)
  tag : Option String
deriving Inhabited

/-- The tag of a handle and a text. -/
def tagOf (start mark : Mark) (handle text : String) : Reading String := do
  if handle.isEmpty then return text
  match (← get).handles.find? (·.1 == handle) with
  | some (_, head) => return head ++ text
  | none => fail start mark "found undefined tag handle"

/-- An anchor, if it comes next. -/
def anchor? : Reading (Option (String × Mark)) := do
  let t ← peek
  match t.kind with
  | .anchor name =>
    drop
    return some (name, t.start)
  | _ => return none

/-- The handle and text of a tag, if it comes next, and its place. -/
def tag? : Reading (Option (String × String × Mark)) := do
  let t ← peek
  match t.kind with
  | .tag handle text =>
    drop
    return some (handle, text, t.start)
  | _ => return none

/-- An anchor and a tag in either order, of which each can be missing. -/
def properties : Reading Properties := do
  let start := (← peek).start
  let first ← anchor?
  let tag ← tag?
  let anchor ← if first.isNone && tag.isSome then anchor? else pure first
  let _ ← peek
  match tag with
  | none => return ⟨start, anchor, none⟩
  | some (handle, text, mark) => return ⟨start, anchor, some (← tagOf start mark handle text)⟩

/-- Makes the anchor of a node known. -/
def announce (p : Properties) : Reading Unit :=
  match p.anchor with
  | none => return
  | some (name, mark) => modify fun r => { r with names := (name, mark.index) :: r.names }

/-- A node that has been read, kept under its anchor. -/
def keep (p : Properties) (n : Node) : Reading Node := do
  if let some (_, mark) := p.anchor then
    modify fun r => { r with anchored := (mark.index, n) :: r.anchored }
  return n

/-- The node of a scalar. -/
def scalarNode (p : Properties) (text : String) (plain : Bool) : Reading Node := do
  announce p
  let standard := if plain then Tag.ofPlain text else "!!str"
  keep p (.scalar (p.start.line + 1) (Tag.orElse p.tag standard) text)

/-- A scalar that is left out. -/
def emptyNode (mark : Mark) : Reading Node :=
  scalarNode ⟨mark, none, none⟩ "" true

/-- The node that stands for the one with an anchor. -/
def aliasNode (t : Token) (name : String) : Reading Node := do
  let r ← get
  match r.names.find? (·.1 == name) with
  | some (_, target) => return .alias (t.start.line + 1) name t.start.index target
  | none => throw (.unknownAnchor name r.tokens.mark.index)

/-- Whether a token ends a member of a table in block form. -/
def endsMember : TokenKind → Bool
  | .key | .value | .blockEnd => true
  | _ => false

mutual

/-- A node. Collections in block form are wanted only if `block` says so, and lists
that stand no further right than the table around them if `indentless` does. -/
def node : Nat → Bool → Bool → Reading Node
  | 0, _, _ => do emptyNode (← peek).start
  | fuel + 1, block, indentless => do
    let t ← peek
    if let .alias name := t.kind then
      drop
      return ← aliasNode t name
    let p ← properties
    let t ← peek
    let line := p.start.line + 1
    match t.kind, block, indentless with
    | .blockEntry, _, true =>
      announce p
      keep p (.sequence line (Tag.orElse p.tag "!!seq") (← indentlessItems fuel))
    | .scalar text plain, _, _ =>
      drop
      scalarNode p text plain
    | .flowSequenceStart, _, _ =>
      announce p
      drop
      keep p (.sequence line (Tag.orElse p.tag "!!seq") (← flowItems fuel t.start true))
    | .flowMappingStart, _, _ =>
      announce p
      drop
      keep p (.mapping line (Tag.orElse p.tag "!!map") (← flowMembers fuel t.start true))
    | .blockSequenceStart, true, _ =>
      announce p
      drop
      keep p (.sequence line (Tag.orElse p.tag "!!seq") (← blockItems fuel t.start))
    | .blockMappingStart, true, _ =>
      announce p
      drop
      keep p (.mapping line (Tag.orElse p.tag "!!map") (← blockMembers fuel t.start))
    | _, _, _ =>
      if p.anchor.isSome || p.tag.isSome then scalarNode p "" true
      else fail p.start t.start "did not find expected node content"

/-- The items of a list in block form that starts at `start`. -/
def blockItems : Nat → Mark → Reading (List Node)
  | 0, _ => return []
  | fuel + 1, start => do
    let t ← peek
    match t.kind with
    | .blockEntry =>
      let next ← next
      let item ←
        if next.kind == .blockEntry || next.kind == .blockEnd then emptyNode t.stop
        else node fuel true false
      return item :: (← blockItems fuel start)
    | .blockEnd =>
      drop
      return []
    | _ => fail start t.start "did not find expected '-' indicator"

/-- The items of a list in block form that stands no further right than the table
around it. -/
def indentlessItems : Nat → Reading (List Node)
  | 0 => return []
  | fuel + 1 => do
    let t ← peek
    if t.kind == .blockEntry then
      let next ← next
      let item ←
        if next.kind == .blockEntry || endsMember next.kind then emptyNode t.stop
        else node fuel true false
      return item :: (← indentlessItems fuel)
    return []

/-- The members of a table in block form that starts at `start`. -/
def blockMembers : Nat → Mark → Reading (List (Node × Node))
  | 0, _ => return []
  | fuel + 1, start => do
    let t ← peek
    match t.kind with
    | .key =>
      let next ← next
      let key ← if endsMember next.kind then emptyNode t.stop else node fuel true true
      let value ← blockValue fuel
      return (key, value) :: (← blockMembers fuel start)
    | .blockEnd =>
      drop
      return []
    | _ => fail start t.start "did not find expected key"

/-- The value of a member of a table in block form. -/
def blockValue : Nat → Reading Node
  | 0 => do emptyNode (← peek).start
  | fuel + 1 => do
    let t ← peek
    if t.kind == .value then
      let next ← next
      if endsMember next.kind then emptyNode t.stop else node fuel true true
    else emptyNode t.start

/-- The items of a list in flow form that starts at `start`. -/
def flowItems : Nat → Mark → Bool → Reading (List Node)
  | 0, _, _ => return []
  | fuel + 1, start, first => do
    let t ← peek
    if t.kind == .flowSequenceEnd then
      drop
      return []
    if !first && t.kind != .flowEntry then
      fail start t.start "did not find expected ',' or ']'"
    let t ← if first then pure t else next
    match t.kind with
    | .key =>
      drop
      let member ← pairMember fuel
      return .mapping (t.start.line + 1) "!!map" [member] :: (← flowItems fuel start false)
    | .flowSequenceEnd =>
      drop
      return []
    | _ =>
      let item ← node fuel false false
      return item :: (← flowItems fuel start false)

/-- The member of a table that is an item of a list in flow form. -/
def pairMember : Nat → Reading (Node × Node)
  | 0 => do
    let n ← emptyNode (← peek).start
    return (n, n)
  | fuel + 1 => do
    let t ← peek
    let key ←
      if t.kind == .value || t.kind == .flowEntry || t.kind == .flowSequenceEnd then
        drop
        emptyNode t.stop
      else node fuel false false
    let t ← peek
    if t.kind == .value then
      let t ← next
      if t.kind == .flowEntry || t.kind == .flowSequenceEnd then
        return (key, ← emptyNode t.start)
      return (key, ← node fuel false false)
    return (key, ← emptyNode t.start)

/-- The members of a table in flow form that starts at `start`. -/
def flowMembers : Nat → Mark → Bool → Reading (List (Node × Node))
  | 0, _, _ => return []
  | fuel + 1, start, first => do
    let t ← peek
    if t.kind == .flowMappingEnd then
      drop
      return []
    if !first && t.kind != .flowEntry then
      fail start t.start "did not find expected ',' or '\x7d'"
    let t ← if first then pure t else next
    match t.kind with
    | .key =>
      let next ← next
      let key ←
        if next.kind == .value || next.kind == .flowEntry || next.kind == .flowMappingEnd then
          emptyNode next.start
        else node fuel false false
      let value ← flowValue fuel
      return (key, value) :: (← flowMembers fuel start false)
    | .flowMappingEnd =>
      drop
      return []
    | _ =>
      let key ← node fuel false false
      let value ← emptyNode (← peek).start
      return (key, value) :: (← flowMembers fuel start false)

/-- The value of a member of a table in flow form. -/
def flowValue : Nat → Reading Node
  | 0 => do emptyNode (← peek).start
  | fuel + 1 => do
    let t ← peek
    if t.kind == .value then
      let t ← next
      if t.kind == .flowEntry || t.kind == .flowMappingEnd then emptyNode t.start
      else node fuel false false
    else emptyNode t.start

end

/-- The directives of a document. -/
def directives : Nat → Bool → Reading Unit
  | 0, _ => return
  | fuel + 1, versioned => do
    let t ← peek
    match t.kind with
    | .directive (.version major minor) =>
      if versioned then fail ⟨0, 0, 0⟩ t.start "found duplicate %YAML directive"
      if (major, minor) ≠ (1, 1) then
        fail ⟨0, 0, 0⟩ t.start "found incompatible YAML document"
      drop
      directives fuel true
    | .directive (.handle name text) =>
      let r ← get
      if r.handles.any (·.1 == name) then
        fail ⟨0, 0, 0⟩ t.start "found duplicate %TAG directive"
      set { r with handles := r.handles ++ [(name, text)] }
      drop
      directives fuel versioned
    | _ => return

/-- The handles that every document has, where no directive says otherwise. -/
def standardHandles : List (String × String) :=
  [("!", "!"), ("!!", String.ofList Tag.standard)]

/-- The root of a document that starts with directives or a separator. -/
def explicitRoot (fuel : Nat) : Reading Node := do
  directives fuel false
  let t ← peek
  if t.kind != .documentStart then
    fail ⟨0, 0, 0⟩ t.start "did not find expected <document start>"
  modify fun r => { r with handles := r.handles ++ standardHandles }
  let t ← next
  match t.kind with
  | .directive _ | .documentStart | .documentEnd | .streamEnd => emptyNode t.start
  | _ => node fuel true false

/-- The root of the first document, if there is one. -/
def root (fuel : Nat) : Reading (Option Node) := do
  let _ ← peek
  let t ← next
  match t.kind with
  | .streamEnd => return none
  | .directive _ | .documentStart => return some (← explicitRoot fuel)
  | _ =>
    modify fun r => { r with handles := standardHandles }
    return some (← node fuel true false)

/-- The first document and the number of characters that were looked at. -/
def document (fuel : Nat) : Reading (Document × Nat) := do
  let root ← root fuel
  let _ ← peek
  let r ← get
  return (⟨root, r.anchored⟩, r.tokens.mark.index)

end Reading

/-! ## Characters of documents -/

/-- Whether a document can have a character. -/
def isReadable (c : Char) : Bool :=
  let n := c.toNat
  n == 9 || n == 0xa || n == 0xd || (0x20 ≤ n && n ≤ 0x7e) || n == 0x85 ||
    (0xa0 ≤ n && n ≤ 0xfffd) || 0x10000 ≤ n

/-- The characters of a text that fit in a number of bytes, and the others. -/
def splitBytes (room : Nat) : List Char → List Char × List Char
  | [] => ([], [])
  | c :: cs =>
    if c.utf8Size ≤ room then
      let (front, rest) := splitBytes (room - c.utf8Size) cs
      (c :: front, rest)
    else ([], c :: cs)

/-- The number of characters before the first piece of a text with a character that
no document has. Pieces are of 512 bytes, the first one of `room`. -/
def readableBefore? (room : Nat) : Nat → List Char → Option Nat
  | 0, _ => none
  | fuel + 1, cs =>
    let (front, rest) := splitBytes room cs
    if front.any fun c => !isReadable c then some 0
    else if rest.isEmpty then none
    else (readableBefore? 512 fuel rest).map (· + front.length)

/-- The first document of a text. A byte order mark at its front is dropped. A
character that no document has is a fault only if its piece of the text has to be
looked at. -/
def Document.ofText (text : String) : Except Fault Document :=
  let cs := text.toList
  let marked := cs.head? == some (Char.ofNat 0xfeff)
  let cs := if marked then cs.tail else cs
  let fuel := 12 * cs.length + 64
  let result := (Reading.document fuel).run' ⟨.ofText cs, [], [], []⟩
  let reached := match result with
    | .ok (_, reached) => reached
    | .error fault => fault.reached?.getD 0
  match readableBefore? (if marked then 509 else 512) (cs.length + 1) cs with
  | some readable => if readable < reached + 4 then .error .unreadable else result.map (·.1)
  | none => result.map (·.1)

end CellMachine.Yaml
