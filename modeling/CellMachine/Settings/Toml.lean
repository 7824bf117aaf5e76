import CellMachine.Settings.Toml.Outline
import CellMachine.Settings.Toml.Written

/-!
# Settings in tables of assignments

A configuration file of the TOML format is a table of settings. The lines of a text
are taken one after the other: each is read for its form, then its key is checked
against those before, then its value is looked at.
-/

namespace CellMachine.Toml

/-! ## Keys inside values -/

mutual

/-- Checks the keys of the tables inside a value. Each of these has an outline of its
own. -/
def checkValue : Written → Except Fault Unit
  | .list items => checkItems items
  | .table members => checkMembers .empty members
  | _ => .ok ()

/-- Checks the keys of the tables inside the items of a list. -/
def checkItems : List Written → Except Fault Unit
  | [] => .ok ()
  | v :: rest => do
    checkValue v
    checkItems rest

/-- Checks the keys of a table inside a value, given those before. -/
def checkMembers (o : Outline) : List (List String × Written) → Except Fault Unit
  | [] => .ok ()
  | (k, v) :: rest => do
    let o ← o.assign [] k
    checkValue v
    checkMembers o rest

end

/-! ## Tables of settings -/

/-- The members of a table in which `change` is made to the member of a key. -/
def changeMember (k : String) (change : Option ConfigValue → ConfigValue) :
    List (String × ConfigValue) → List (String × ConfigValue)
  | [] => [(k, change none)]
  | (j, v) :: rest =>
    if j = k then (j, change (some v)) :: rest else (j, v) :: changeMember k change rest

/-- The members of a table in which `change` is made to the member at a path. Of
several tables on the way, the last one is meant. -/
def changeAt (change : Option ConfigValue → ConfigValue) :
    List String → List (String × ConfigValue) → List (String × ConfigValue)
  | [], members => members
  | [k], members => changeMember k change members
  | k :: ks, members =>
    changeMember k (fun
      | some (.table inner) => .table (changeAt change ks inner)
      | some (.list items) =>
        match items.getLast? with
        | some (.table inner) => .list (items.dropLast ++ [.table (changeAt change ks inner)])
        | _ => .list items
      | _ => .table (changeAt change ks [])) members

/-- What a header makes of the member at its path. -/
def asTable : Option ConfigValue → ConfigValue
  | some v => v
  | none => .table []

/-- What the header of one of several tables makes of the member at its path. -/
def withItem : Option ConfigValue → ConfigValue
  | some (.list items) => .list (items ++ [.table []])
  | _ => .list [.table []]

mutual

/-- The value of a setting. -/
def settled : Written → Except Fault ConfigValue
  | .text s => .ok (.text s)
  | .truth b => .ok (.truth b)
  | .integer numeral => ((integerOf numeral).mapError .number).map .integer
  | .double numeral => ((doubleOf numeral).mapError .number).map .double
  | .moment kind text => ((kind.textOf text).mapError .moment).map .moment
  | .list items => (settledItems items).map .list
  | .table members => (settledMembers [] members).map .table

/-- The values of a list. -/
def settledItems : List Written → Except Fault (List ConfigValue)
  | [] => .ok []
  | v :: rest => do
    let v ← settled v
    return v :: (← settledItems rest)

/-- The members of a table, given those before. -/
def settledMembers (seen : List (String × ConfigValue)) :
    List (List String × Written) → Except Fault (List (String × ConfigValue))
  | [] => .ok seen
  | (k, v) :: rest => do
    let v ← settled v
    settledMembers (changeAt (fun _ => v) k seen) rest

end

/-! ## Reading -/

/-- The settings of a line, given those before, with the outline of the text. -/
def addLine (o : Outline) (members : List (String × ConfigValue)) :
    Line → Except Fault (Outline × List (String × ConfigValue))
  | .assignment k v => do
    let path := o.current
    let o ← o.assign path k
    checkValue v
    let v ← settled v
    return (o, changeAt (fun _ => v) (path ++ k) members)
  | .header k => do return (← o.enterTable k, changeAt asTable k members)
  | .item k => do return (← o.enterItem k, changeAt withItem k members)

/-- Reads the lines of a text, given the settings before. -/
def readFrom : Nat → Bool → Outline → List (String × ConfigValue) → List Char →
    Except Fault (List (String × ConfigValue))
  | 0, _, _, members, _ => .ok members
  | _ + 1, _, _, members, [] => .ok members
  | fuel + 1, first, o, members, c :: rest => do
    let cs ← if first then pure (c :: rest) else skipBreak (c :: rest)
    let (found, rest) ← line cs
    match found with
    | none => readFrom fuel false o members rest
    | some l =>
      let (o, members) ← addLine o members l
      readFrom fuel false o members rest

/-- The table that a text describes. -/
def read (s : String) : Except Fault (List (String × ConfigValue)) :=
  let cs := s.toList
  readFrom (cs.length + 2) true .empty [] cs

end CellMachine.Toml
