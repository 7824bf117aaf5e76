import CellMachine.Settings.Toml.Fault

/-!
# Outlines

The outline of a text says what each key in it is for, so that no key is used twice
or for two things. Keys are told by their paths. A table can be made by a header, and
it can be made in passing, by a key or header that leads through it. A header may
name a table that was made in passing once; a key may only add to tables that were
made by keys since the last header.
-/

namespace CellMachine.Toml

/-- What is known of a key. -/
structure Entry where
  kind : KeyKind
  /-- Whether nothing may be added by keys, and no header may name it again. -/
  explicit : Bool
  /-- Whether it was made by a key since the last header. -/
  recent : Bool
deriving DecidableEq, Inhabited

/-- The keys of a text so far, by their paths, and the path of the table that keys
are added to. -/
structure Outline where
  entries : List (List String × Entry)
  current : List String
deriving Inhabited

namespace Outline

/-- The outline of no text. -/
def empty : Outline := ⟨[], []⟩

/-- What is known of a path. -/
def find? (o : Outline) (path : List String) : Option Entry :=
  (o.entries.find? (·.1 == path)).map (·.2)

/-- The outline with something known of a path. -/
def set (o : Outline) (path : List String) (e : Entry) : Outline :=
  { o with entries := (path, e) :: o.entries.filter (·.1 != path) }

/-- Whether a path leads through another one. -/
def isBelow (top path : List String) : Bool :=
  top.isPrefixOf path && top.length < path.length

/-- Adds a key with a value, below a path. -/
def assign (o : Outline) (parent : List String) : List String → Except Fault Outline
  | [] => .ok o
  | [k] =>
    match o.find? (parent ++ [k]) with
    | some _ => .error (.repeated k)
    | none => .ok (o.set (parent ++ [k]) ⟨.value, false, true⟩)
  | k :: ks =>
    match o.find? (parent ++ [k]) with
    | none => (o.set (parent ++ [k]) ⟨.table, false, true⟩).assign (parent ++ [k]) ks
    | some e =>
      if e.kind ≠ .table then .error (.notTable k e.kind)
      else if e.explicit then .error (.redefined k)
      else o.assign (parent ++ [k]) ks

/-- Makes the keys below the current table explicit. -/
def close (o : Outline) : Outline :=
  { o with entries := o.entries.map fun (path, e) =>
      (path, if isBelow o.current path && e.recent then { e with explicit := true, recent := false }
        else e) }

/-- The tables on the way to the key of a header. -/
def pass (o : Outline) (parent : List String) : List String → Except Fault Outline
  | [] => .ok o
  | k :: ks =>
    match o.find? (parent ++ [k]) with
    | none => (o.set (parent ++ [k]) ⟨.table, false, false⟩).pass (parent ++ [k]) ks
    | some e =>
      if e.kind = .value then .error (.notTable k e.kind) else o.pass (parent ++ [k]) ks

/-- Adds the header of a table. -/
def enterTable (o : Outline) (path : List String) : Except Fault Outline := do
  let o ← o.close.pass [] path.dropLast
  let k := path.getLastD ""
  match o.find? path with
  | none => return { o.set path ⟨.table, true, false⟩ with current := path }
  | some e =>
    if e.kind ≠ .table then throw (.headerNotTable k e.kind)
    if e.explicit then throw (.headerRepeated k)
    return { o.set path { e with explicit := true } with current := path }

/-- Adds the header of one of several tables. What was below the last one is
forgotten. -/
def enterItem (o : Outline) (path : List String) : Except Fault Outline := do
  let o ← o.close.pass [] path.dropLast
  match o.find? path with
  | none => return { o.set path ⟨.tables, true, false⟩ with current := path }
  | some e =>
    if e.kind ≠ .tables then throw (.notTables (path.getLastD "") e.kind)
    return ⟨o.entries.filter fun (p, _) => !isBelow path p, path⟩

end Outline

end CellMachine.Toml
