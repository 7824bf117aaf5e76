import CellMachine.Rig

/-!
# Networks

A network schedules machines of a rig in a fixed order. `ofMachines` takes
machines as they are wired; `build` makes a chain or a ring of machines that
run copies of one program, each with a phase waiting in its input pipe.
-/

namespace CellMachine

/-- A schedule of machines of a rig. -/
structure Network where
  /-- The machines' numbers in the order in which they take turns. -/
  members : List Nat
  /-- The pipes whose traffic counts as progress. -/
  pipes : List Nat
  /-- Whether the last machine writes to the input of the first. -/
  ring : Bool
  /-- The greatest number of rounds, or zero for no limit. -/
  limit : Nat
  /-- The number of rounds so far. -/
  rounds : Nat
deriving DecidableEq, Inhabited

/-- A choice made for a network when it is set up. -/
inductive NetworkSetting where
  | limit (rounds : Int)
  | journal (present : Bool)
  /-- A setting for each machine that the network builds. -/
  | machines (setting : Setting)
deriving DecidableEq, Inhabited

/-- Why a network is not set up. -/
inductive BuildError where
  | empty
  | absent (position : Nat)
  | badLimit (rounds : Int)
  | noJournal
  | machine (position : Nat) (cause : SetupError)
deriving DecidableEq, Inhabited

/-- The wording of a build error. -/
def BuildError.message : BuildError → String
  | empty => "empty network"
  | absent position => "nil machine #" ++ Numeral.write position
  | badLimit rounds => "invalid round limit " ++ Numeral.write rounds
  | noJournal => "nil logger"
  | machine position cause => "machine #" ++ Numeral.write position ++ ": " ++ cause.message

namespace Network

/-- What the settings of a new network amount to: a round limit and settings
for its machines. -/
structure Draft where
  limit : Nat
  machines : List Setting
deriving DecidableEq, Inhabited

/-- Applies one setting. -/
def Draft.apply (d : Draft) : NetworkSetting → Except BuildError Draft
  | .limit rounds =>
    if rounds < 0 then .error (.badLimit rounds) else .ok { d with limit := rounds.toNat }
  | .journal true => .ok d
  | .journal false => .error .noJournal
  | .machines setting => .ok { d with machines := d.machines ++ [setting] }

/-- What a list of settings amounts to. -/
def draft (settings : List NetworkSetting) : Except BuildError Draft :=
  settings.foldlM Draft.apply ⟨0, []⟩

/-- Adds a pipe number to a list unless it is there. -/
def addPipe (pipes : List Nat) (pipe : Nat) : List Nat :=
  if pipe ∈ pipes then pipes else pipes ++ [pipe]

/-- The pipes that machines are wired to, each once, in the order in which the
machines name them. -/
def wiredPipes (machines : List Machine) : List Nat :=
  machines.foldl (fun pipes m => addPipe (addPipe pipes m.input) m.output) []

/-- Whether the last machine writes to the input of the first. -/
def closes (machines : List Machine) : Bool :=
  match machines.head?, machines.getLast? with
  | some first, some last => last.output == first.input
  | _, _ => false

/-- The position of the first machine that is absent. -/
def firstAbsent (position : Nat) : List (Option Nat) → Except BuildError (List Nat)
  | [] => .ok []
  | none :: _ => .error (.absent position)
  | some k :: rest => (firstAbsent (position + 1) rest).map (k :: ·)

/-- A network of machines that are in the rig. -/
def ofMachines (rig : Rig) (machines : List (Option Nat)) (settings : List NetworkSetting) :
    Except BuildError Network := do
  if machines.isEmpty then throw .empty
  let members ← firstAbsent 0 machines
  let d ← draft settings
  let present := members.filterMap rig.machine?
  return ⟨members, wiredPipes present, closes present, d.limit, 0⟩

/-! ## Chains and rings -/

/-- The name of the machine at a position of a chain or ring: a capital letter. -/
def memberName (position : Nat) : String :=
  String.singleton (Char.ofNat ('A'.toNat + position % 26))

/-- The settings of the machine at a position. Machine `k` reads from pipe `k`
of the network and writes to the next one; `pipes` is the number of pipes and
`base` the number of the first in the rig. -/
def memberSettings (base pipes position : Nat) (extra : List Setting) : List Setting :=
  [.name (memberName position), .journal true, .input (some (base + position)),
    .output (some (base + (position + 1) % pipes))] ++ extra

/-- Installs the machines at the given positions. -/
def installMembers (memory : Memory) (base pipes : Nat) (extra : List Setting) :
    List Nat → Rig → Except BuildError (Rig × List Nat)
  | [], rig => .ok (rig, [])
  | position :: rest, rig =>
    match rig.install memory (memberSettings base pipes position extra) true with
    | .error cause => .error (.machine position cause)
    | .ok (rig, k) =>
      (installMembers memory base pipes extra rest rig).map fun (rig, ks) => (rig, k :: ks)

/-- The pipes of a chain or ring: one for each phase, which waits in it, and
for a chain one more for the results. -/
def phasePipes (phases : List Cell) (ring : Bool) : List Pipe :=
  phases.map (fun phase => Pipe.empty.push phase) ++ if ring then [] else [.empty]

/-- A chain or ring of machines that run copies of `memory`, one for each phase. -/
def build (rig : Rig) (memory : Memory) (phases : List Cell) (ring : Bool)
    (settings : List NetworkSetting) : Except BuildError (Rig × Network) := do
  if phases.isEmpty then throw .empty
  let d ← draft settings
  let base := rig.pipes.size
  let pipes := phasePipes phases ring
  let rig := { rig with pipes := pipes.foldl PipeTable.add rig.pipes }
  let (rig, members) ←
    installMembers memory base pipes.length d.machines (List.range phases.length) rig
  return (rig, ⟨members, List.range' base pipes.length, ring, d.limit, 0⟩)

/-! ## Reading and feeding a network -/

/-- The first machine. -/
def first? (nw : Network) (rig : Rig) : Option Machine :=
  nw.members.head?.bind rig.machine?

/-- The last machine. -/
def last? (nw : Network) (rig : Rig) : Option Machine :=
  nw.members.getLast?.bind rig.machine?

/-- Pushes a value to the input of the first machine. -/
def seed (nw : Network) (rig : Rig) (v : Cell) : Rig :=
  match nw.first? rig with
  | some m => { rig with pipes := rig.pipes.push m.input v }
  | none => rig

/-- The pipe that the last machine writes to. -/
def sink (nw : Network) (rig : Rig) : Nat :=
  ((nw.last? rig).map Machine.output).getD 0

/-- The last value written to the sink. -/
def result? (nw : Network) (rig : Rig) : Option Cell :=
  (rig.pipes.get (nw.sink rig)).last?

end Network

end CellMachine
