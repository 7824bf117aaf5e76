import CellMachine.Text.Base64
import CellMachine.Yaml.Node

/-!
# Values of documents

The nodes of a document are taken for values. A table whose keys are all texts is a
table of texts; any other can have every scalar as a key, and neither can have lists
or tables. A merge key puts the members of other tables into its table, unless the
table has a member with that key already.

A node that stands for another is taken for what the other is. Texts that come to
much more in this way than what is written in them are refused.
-/

namespace CellMachine.Yaml

/-- A value of a scalar. -/
inductive Atom where
  | null
  | bool (b : Bool)
  | int (n : Int)
  | double (d : Double)
  | moment (m : Moment)
  | text (s : String)
deriving DecidableEq, Inhabited

/-- A value. -/
inductive Value where
  | atom (a : Atom)
  | list (items : List Value)
  /-- A table, and whether it is one of texts. -/
  | table (texts : Bool) (members : List (Atom × Value))
deriving Inhabited

/-! ## Scalars -/

namespace Atom

/-- What a scalar stands for, as a value. -/
def ofScalar (text : String) : Scalar → Atom
  | .null => .null
  | .bool b => .bool b
  | .int n => .int n
  | .double d => .double d
  | .moment m => .moment m
  | .text => .text text

/-- The tags for which the text of a scalar is looked at. -/
def isResolved (tag : String) : Bool :=
  ["!!bool", "!!int", "!!float", "!!null", "!!timestamp"].contains tag

/-- The value of a scalar with a tag. An integer of 64 bits is taken where a number
with a point is wanted. -/
def ofTagged (tag text : String) : Except Fault Atom :=
  if tag = "!!binary" then
    match Base64.decode? text with
    | some s => .ok (.text s)
    | none => .error .badBinary
  else if !isResolved tag then .ok (.text text)
  else
    let found := Scalar.resolve (tag == "!!timestamp") text
    let foundTag := if text = "<<" then "!!merge" else Tag.ofScalar found
    match tag == foundTag, tag == "!!float", found with
    | true, _, _ => .ok (ofScalar text found)
    | _, true, .int n =>
      if n ≤ Numeral.greatest then .ok (.double (Double.ofInt n))
      else .error (.mistagged foundTag text tag)
    | _, _, _ => .error (.mistagged foundTag text tag)

/-- The names of the months. -/
def months : List String :=
  ["January", "February", "March", "April", "May", "June", "July", "August", "September",
    "October", "November", "December"]

/-- A moment as it is written in a message. -/
def momentLiteral (m : Moment) : String :=
  "time.Date(" ++ ", ".intercalate
    [Numeral.write m.date.year, "time." ++ (months[m.date.month - 1]?).getD "",
      Numeral.write m.date.day, Numeral.write m.clock.hour, Numeral.write m.clock.minute,
      Numeral.write m.clock.second, Numeral.write m.clock.nanosecond,
      if m.offset = 0 then "time.UTC" else "time.Location(\"\")"] ++ ")"

/-- A value as it is written in a message. -/
def literal : Atom → String
  | null => "interface \x7b\x7d(nil)"
  | bool b => if b then "true" else "false"
  | int n =>
    if n ≤ Numeral.greatest then Numeral.write n
    else "0x" ++ String.ofList (Nat.toDigits 16 n.toNat)
  | double d => d.compactText
  | moment m => momentLiteral m
  | text s => Quoted.quoteString s

/-- The place of a value's kind among the others. -/
def rank : Atom → Nat
  | null => 0
  | bool _ => 1
  | double _ => 2
  | int _ => 3
  | text _ => 4
  | moment _ => 5

/-- Whether a value stands before another in a message. -/
def before : Atom → Atom → Bool
  | bool a, bool b => !a && b
  | int a, int b => a < b
  | text a, text b => a < b
  | a, b => a.rank < b.rank

end Atom

/-! ## Tables -/

namespace Value

/-- The type of a table as it is written in a message. -/
def tableType (texts : Bool) : String :=
  if texts then "map[string]interface \x7b\x7d" else "map[interface \x7b\x7d]interface \x7b\x7d"

/-- The member of a key put among members at its place. -/
def insertSorted (key : Atom) (text : String) :
    List (Atom × String) → List (Atom × String)
  | [] => [(key, text)]
  | (k, t) :: rest =>
    if key.before k then (key, text) :: (k, t) :: rest else (k, t) :: insertSorted key text rest

mutual

/-- A value as it is written in a message. -/
def literal : Value → String
  | .atom a => a.literal
  | .list items => "[]interface \x7b\x7d\x7b" ++ ", ".intercalate (literals items) ++ "\x7d"
  | .table texts members =>
    tableType texts ++ "\x7b" ++ ", ".intercalate ((memberLiterals members).map fun (k, t) =>
      k.literal ++ ":" ++ t) ++ "\x7d"

/-- Values as they are written in a message. -/
def literals : List Value → List String
  | [] => []
  | v :: rest => v.literal :: literals rest

/-- Members as they are written in a message, ordered by their keys. -/
def memberLiterals : List (Atom × Value) → List (Atom × String)
  | [] => []
  | (k, v) :: rest => insertSorted k v.literal (memberLiterals rest)

end

/-- The members of a table with a member added or replaced. -/
def setMember (key : Atom) (v : Value) : List (Atom × Value) → List (Atom × Value)
  | [] => [(key, v)]
  | (k, w) :: rest => if k = key then (key, v) :: rest else (k, w) :: setMember key v rest

end Value

/-! ## Taking nodes for values -/

/-- What is counted while nodes are taken for values. -/
structure Tally where
  /-- The number of nodes taken. -/
  taken : Nat
  /-- The number of those taken for nodes that stand for them. -/
  aliased : Nat
  /-- The places of the nodes that stand for the one being taken. -/
  followed : List Nat
  /-- The faults of nodes, the last one first. -/
  faults : List NodeFault
deriving Inhabited

/-- Whether too many nodes have been taken for nodes that stand for them: more than
99 of 100, and ever less where there are more than 400000 nodes in all. -/
def Tally.isExcessive (t : Tally) : Bool :=
  let share := if t.taken ≤ 400000 then 356400000
    else if 4000000 ≤ t.taken then 36000000
    else 356400000 - 89 * (t.taken - 400000)
  100 < t.aliased && 1000 < t.taken && share * t.taken < t.aliased * 360000000

/-- A step in taking nodes for values. -/
abbrev Taking : Type → Type := StateT Tally (Except Fault)

namespace Taking

/-- Counts a node. -/
def count : Taking Unit := do
  let t ← get
  let t := { t with
    taken := t.taken + 1
    aliased := if t.followed.isEmpty then t.aliased else t.aliased + 1 }
  if t.isExcessive then throw .excessive
  set t

/-- Takes a node in place of one that stands for it, at a place. -/
def follow {α : Type} (name : String) (place : Nat) (take : Taking α) : Taking α := do
  let t ← get
  if t.followed.contains place then throw (.cyclic name)
  set { t with followed := place :: t.followed }
  let a ← take
  modify fun u => { u with followed := t.followed }
  return a

/-- Adds a fault of a node. -/
def blame (fault : NodeFault) : Taking Unit :=
  modify fun t => { t with faults := fault :: t.faults }

end Taking

/-- Whether two keys are the same as they are written. -/
def Node.sameKey : Node → Node → Bool
  | .scalar _ _ a, .scalar _ _ b => a == b
  | .sequence .., .sequence .. => true
  | .mapping .., .mapping .. => true
  | .alias _ a _ _, .alias _ b _ _ => a == b
  | _, _ => false

/-- The line of a node. -/
def Node.line : Node → Nat
  | .scalar line .. | .sequence line .. | .mapping line .. | .alias line .. => line

/-- What is written in a node itself. -/
def Node.written : Node → String
  | .scalar _ _ text => text
  | .alias _ name _ _ => name
  | _ => ""

/-- The keys of a table that occur more than once. -/
def repeatedKeys : List (Node × Node) → List NodeFault
  | [] => []
  | (first, _) :: rest =>
    (rest.filter fun m => first.sameKey m.1).map
      (fun m => .repeated m.1.line m.1.written first.line) ++ repeatedKeys rest

namespace Document

/-- The node at an anchor. -/
def target (d : Document) (anchor : Nat) : Node :=
  ((d.anchored.find? (·.1 == anchor)).map (·.2)).getD (.scalar 0 "!!null" "")

/-- The tag of a node, or of the one that it stands for. -/
def tagOf (d : Document) : Node → String
  | .scalar _ tag _ | .sequence _ tag _ | .mapping _ tag _ => tag
  | .alias _ _ _ anchor =>
    match d.target anchor with
    | .scalar _ tag _ | .sequence _ tag _ | .mapping _ tag _ => tag
    | .alias .. => ""

/-- Whether the keys of a table are all texts. -/
def hasTextKeys (d : Document) (members : List (Node × Node)) : Bool :=
  members.all fun m => d.tagOf m.1 == "!!str" || d.tagOf m.1 == "!!merge"

/-- Whether a key merges other tables. -/
def isMerge : Node → Bool
  | .scalar _ tag text => text == "<<" && tag == "!!merge"
  | _ => false

/-- Whether a node is a table or stands for one. -/
def isTable (d : Document) : Node → Bool
  | .mapping .. => true
  | .alias _ _ _ anchor =>
    match d.target anchor with
    | .mapping .. => true
    | _ => false
  | _ => false

/-- The tables that the value of a merge key has to be. -/
def mergedTables (d : Document) : Node → List Node
  | .sequence _ _ items => items
  | n => if d.isTable n then [n] else [.scalar 0 "" ""]

/-- A fault of a node that is not what is wanted. -/
def mismatch (n : Node) (wanted : String) : NodeFault :=
  match n with
  | .scalar line tag text =>
    .mismatch line tag (if tag = "!!seq" || tag = "!!map" then none else some text) wanted
  | .sequence line tag _ | .mapping line tag _ =>
    .mismatch line tag (if tag = "!!seq" || tag = "!!map" then none else some "") wanted
  | .alias line name _ _ => .mismatch line "" (some name) wanted

/-- The key of a member as a value that can be a key. -/
def atomOf : Value → Taking Atom
  | .atom a => return a
  | v => throw (.badKey v.literal)

mutual

/-- The value of a node, unless it has a fault. -/
def value (d : Document) : Nat → Node → Taking (Option Value)
  | 0, _ => return none
  | fuel + 1, n => do
    Taking.count
    match n with
    | .alias _ name place anchor => Taking.follow name place (value d fuel (d.target anchor))
    | .scalar _ tag text => return some (.atom (← Atom.ofTagged tag text))
    | .sequence _ _ items =>
      return some (.list ((← items.mapM (value d fuel)).filterMap id))
    | .mapping _ _ members =>
      let texts := d.hasTextKeys members
      return (← table d fuel texts none members []).map fun (_, out) => .table texts out

/-- The key of a member of a table of texts, unless it is nothing or has a fault. -/
def textKey (d : Document) : Nat → Node → Taking (Option String)
  | 0, _ => return none
  | fuel + 1, n => do
    Taking.count
    match n with
    | .alias _ name place anchor => Taking.follow name place (textKey d fuel (d.target anchor))
    | .scalar _ tag text =>
      match ← Atom.ofTagged tag text with
      | .null => return none
      | .text s => return some s
      | _ => return some text
    | .sequence .. =>
      Taking.blame (mismatch n "string")
      return none
    | .mapping _ _ members =>
      let faults := repeatedKeys members
      if faults.isEmpty then Taking.blame (mismatch n "string") else faults.forM Taking.blame
      return none

/-- The key of a member. -/
def key (d : Document) : Nat → Bool → Node → Taking (Option Value)
  | 0, _, _ => return none
  | fuel + 1, true, n => return (← textKey d fuel n).map fun s => .atom (.text s)
  | fuel + 1, false, n => value d fuel n

/-- The members of a table put into those of another, with the keys that count as
merged already. -/
def table (d : Document) : Nat → Bool → Option (List Atom) → List (Node × Node) →
    List (Atom × Value) → Taking (Option (Option (List Atom) × List (Atom × Value)))
  | 0, _, _, _, _ => return none
  | fuel + 1, texts, merged, members, out => do
    let faults := repeatedKeys members
    if !faults.isEmpty then
      faults.forM Taking.blame
      return none
    let own := members.filter fun m => !isMerge m.1
    let (merged, out) ← own.foldlM (fun acc m => member d fuel texts acc m) (merged, out)
    match (members.filter fun m => isMerge m.1).getLast? with
    | none => return some (merged, out)
    | some (_, tables) =>
      let keys ← match merged with
        | some keys => pure keys
        | none => ownKeys d fuel members
      let (keys, out) ← (d.mergedTables tables).foldlM (fun acc n => merge d fuel texts acc n)
        (keys, out)
      return some (merged.map fun _ => keys, out)

/-- The members of a table with one more, unless its key counts as merged. -/
def member (d : Document) : Nat → Bool → Option (List Atom) × List (Atom × Value) →
    Node × Node → Taking (Option (List Atom) × List (Atom × Value))
  | 0, _, acc, _ => return acc
  | fuel + 1, texts, (merged, out), (k, v) => do
    match ← key d fuel texts k with
    | none => return (merged, out)
    | some k =>
      let k ← atomOf k
      if merged.any (·.contains k) then return (merged, out)
      let merged := merged.map (k :: ·)
      match ← value d fuel v with
      | none => return (merged, out)
      | some v => return (merged, Value.setMember k v out)

/-- The keys of a table, which its merge key does not replace. -/
def ownKeys (d : Document) : Nat → List (Node × Node) → Taking (List Atom)
  | 0, _ => return []
  | fuel + 1, members =>
    members.foldlM (fun keys m => do
      match ← value d fuel m.1 with
      | none => return keys
      | some (.atom a) => return a :: keys
      | some (.list _) => throw (.unhashable "[]interface \x7b\x7d")
      | some (.table texts _) => throw (.unhashable (Value.tableType texts))) []

/-- The members of a table that is merged put into those of another. -/
def merge (d : Document) : Nat → Bool → List Atom × List (Atom × Value) → Node →
    Taking (List Atom × List (Atom × Value))
  | 0, _, acc, _ => return acc
  | fuel + 1, texts, (keys, out), n => do
    if !d.isTable n then throw .badMerge
    Taking.count
    match n with
    | .alias _ name place anchor =>
      Taking.follow name place (merge d fuel texts (keys, out) (d.target anchor))
    | .mapping _ _ members =>
      match ← table d fuel texts (some keys) members out with
      | none => return (keys, out)
      | some (merged, out) => return (merged.getD keys, out)
    | _ => throw .badMerge

end

/-- The members of a document that is a table or nothing. -/
def members (d : Document) (fuel : Nat) : Taking (List (Atom × Value)) := do
  Taking.count
  match d.root with
  | none => return []
  | some root =>
    Taking.count
    match root with
    | .mapping _ _ members => return ((← table d fuel true none members []).map (·.2)).getD []
    | .scalar _ tag text =>
      if (← Atom.ofTagged tag text) ≠ .null then
        Taking.blame (mismatch root (Value.tableType true))
      return []
    | _ =>
      Taking.blame (mismatch root (Value.tableType true))
      return []

end Document

/-- The members of the table that a text denotes. -/
def membersOf (text : String) : Except Fault (List (Atom × Value)) := do
  let d ← Document.ofText text
  let size := text.length + 8
  let (members, tally) ← (d.members (4 * size * size)).run ⟨0, 0, [], []⟩
  if tally.faults.isEmpty then return members
  throw (.nodes tally.faults.reverse)

end CellMachine.Yaml
