import CellMachine.Folder

/-!
# Surroundings

What a command can learn from where it runs: environment variables and files.
-/

namespace CellMachine

/-- Access to the surroundings. -/
class Host (m : Type → Type) where
  environment? : String → m (Option String)
  readFile : String → m (Except FileError ByteArray)
  isFile : String → m Bool

/-- Surroundings held in memory. -/
structure Surroundings where
  environment : List (String × String)
  folder : Folder
deriving Inhabited

/-- Computations with surroundings held in memory. -/
abbrev Surrounded := ReaderM Surroundings

instance : Host Surrounded where
  environment? name := return ((← read).environment.find? (·.1 == name)).map (·.2)
  readFile path := return (← read).folder.read path
  isFile path := return match (← read).folder.find path with
    | .ok node => node.isFile
    | .error _ => false

end CellMachine
