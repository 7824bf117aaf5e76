import CellMachine.Machine

/-!
# Rigs

A rig is a collection of machines with the pipes they share. Machines are
installed with settings that are applied in order, and the first one that
cannot be applied refuses the whole machine.
-/

namespace CellMachine

/-- A choice made for a machine when it is installed. A pipe or a journal that
is named but absent is refused. -/
inductive Setting where
  | name (name : String)
  | journal (present : Bool)
  | input (pipe : Option Nat)
  | output (pipe : Option Nat)
deriving DecidableEq, Inhabited

/-- Why a machine is not installed or not wired. -/
inductive SetupError where
  | emptyMemory
  | noJournal
  | noInput
  | noOutput
  | started
deriving DecidableEq, Inhabited

/-- The wording of a setup error. -/
def SetupError.message : SetupError → String
  | emptyMemory => "empty memory image"
  | noJournal => "nil logger"
  | noInput => "nil input pipe"
  | noOutput => "nil output pipe"
  | started => "pipes cannot be rewired on a started machine"

/-- What the settings of a new machine amount to. -/
structure Draft where
  name : String
  input : Option Nat
  output : Option Nat
deriving DecidableEq, Inhabited

namespace Draft

/-- A machine without settings. -/
def initial : Draft :=
  ⟨"vm", none, none⟩

/-- Applies one setting. -/
def apply (d : Draft) : Setting → Except SetupError Draft
  | .name name => .ok { d with name }
  | .journal true => .ok d
  | .journal false => .error .noJournal
  | .input (some pipe) => .ok { d with input := some pipe }
  | .input none => .error .noInput
  | .output (some pipe) => .ok { d with output := some pipe }
  | .output none => .error .noOutput

end Draft

namespace Machine

/-- A machine at its start. -/
def new (name : String) (member : Bool) (memory : Memory) (input output : Nat) : Machine :=
  { name, label := name, member, memory, pc := 0, status := .running, count := 0, fault := none,
    input, output }

/-- Connects the input to a pipe, unless the machine is started. -/
def connectInput (m : Machine) : Option Nat → Except SetupError Machine
  | none => .error .noInput
  | some pipe => if m.Started then .error .started else .ok { m with input := pipe }

/-- Connects the output to a pipe, unless the machine is started. -/
def connectOutput (m : Machine) : Option Nat → Except SetupError Machine
  | none => .error .noOutput
  | some pipe => if m.Started then .error .started else .ok { m with output := pipe }

end Machine

/-- Machines with the pipes they share. -/
structure Rig where
  machines : Array Machine
  pipes : PipeTable
deriving Inhabited

namespace Rig

/-- A rig with neither machines nor pipes. -/
def empty : Rig :=
  ⟨#[], ⟨#[]⟩⟩

/-- The machine with number `k`. -/
def machine? (rig : Rig) (k : Nat) : Option Machine :=
  rig.machines[k]?

/-- The rig with machine `k` replaced. -/
def setMachine (rig : Rig) (k : Nat) (m : Machine) : Rig :=
  { rig with machines := rig.machines.setIfInBounds k m }

/-- The number of a pipe that is given, or else of a new one in the rig. -/
def ensurePipe (rig : Rig) : Option Nat → Nat × Rig
  | some pipe => (pipe, rig)
  | none => (rig.pipes.size, { rig with pipes := rig.pipes.add .empty })

/-- Installs a machine. It gets pipes of its own where the settings name none. -/
def install (rig : Rig) (memory : Memory) (settings : List Setting) (member : Bool) :
    Except SetupError (Rig × Nat) := do
  if memory.size = 0 then throw .emptyMemory
  let draft ← settings.foldlM Draft.apply .initial
  let (input, rig) := rig.ensurePipe draft.input
  let (output, rig) := rig.ensurePipe draft.output
  let m := Machine.new draft.name member memory input output
  return ({ rig with machines := rig.machines.push m }, rig.machines.size)

/-- Steps machine `k`. -/
def step (rig : Rig) (k : Nat) : Rig :=
  match rig with
  | ⟨machines, pipes⟩ =>
    match machines[k]? with
    | none => ⟨machines, pipes⟩
    | some m =>
      match m.step pipes with
      | (m, pipes) => ⟨machines.setIfInBounds k m, pipes⟩

/-- Runs machine `k` until it halts, waits or faults. -/
def run (fuel : Nat) (rig : Rig) (k : Nat) : Option Rig :=
  match rig.machines[k]? with
  | none => some rig
  | some m =>
    match m.run fuel rig.pipes with
    | none => none
    | some (m, pipes) => some ⟨rig.machines.setIfInBounds k m, pipes⟩

end Rig

end CellMachine
