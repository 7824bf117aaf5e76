import CellMachine.Settings.Value
import CellMachine.Yaml.Value

/-!
# Settings in documents

A configuration file in document form holds one table. Its members are settings.
-/

namespace CellMachine.YamlConfig

/-- A scalar as a value of a setting. -/
def ofAtom : Yaml.Atom → ConfigValue
  | .null => .null
  | .bool b => .truth b
  | .int n => .integer n
  | .double d => .double d
  | .moment m => .moment m.text
  | .text s => .text s

mutual

/-- A value of a document as a value of a setting. -/
def ofValue : Yaml.Value → ConfigValue
  | .atom a => ofAtom a
  | .list items => .list (ofValues items)
  | .table _ members => .table (ofMembers members)

/-- Values of a document as values of a setting. -/
def ofValues : List Yaml.Value → List ConfigValue
  | [] => []
  | v :: rest => ofValue v :: ofValues rest

/-- Members of a table in a document as members of a table of settings. -/
def ofMembers : List (Yaml.Atom × Yaml.Value) → List (String × ConfigValue)
  | [] => []
  | (k, v) :: rest => ((ofAtom k).toText, ofValue v) :: ofMembers rest

end

/-- The settings in a text. -/
def read (text : String) : Except Yaml.Fault (List (String × ConfigValue)) :=
  (Yaml.membersOf text).map ofMembers

end CellMachine.YamlConfig
