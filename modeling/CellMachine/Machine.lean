import CellMachine.Action
import CellMachine.Pipe
import CellMachine.Status

/-!
# Machines

A machine is a memory, a program counter and a status, wired by number to the
pipe it reads from and the pipe it writes to. `step` executes one instruction;
`run` steps until the machine halts, waits for input or faults. Both are pure
functions of the machine and the table of pipes.
-/

namespace CellMachine

/-- A fault with the name its machine had when it happened. -/
structure MachineFault where
  name : String
  cause : Fault
deriving DecidableEq, Inhabited

/-- The wording of a machine's fault. -/
def MachineFault.message (f : MachineFault) : String :=
  "machine " ++ f.name ++ ": " ++ f.cause.message

/-- A machine. -/
structure Machine where
  name : String
  /-- The name under which journal entries are made: the first one. -/
  label : String
  /-- Whether the machine was built as part of a network. -/
  member : Bool
  memory : Memory
  pc : Int
  status : Status
  /-- The number of instructions executed. An input instruction that waits is
  counted once, when it gets its value. -/
  count : Nat
  /-- The fault that stopped the machine, kept if the status is changed later. -/
  fault : Option MachineFault
  input : Nat
  output : Nat
deriving Inhabited

namespace Machine

/-- A machine is started once it has executed an instruction or left the
running status. -/
def Started (m : Machine) : Prop :=
  m.count > 0 ∨ m.status ≠ .running

instance (m : Machine) : Decidable m.Started :=
  inferInstanceAs (Decidable (_ ∨ _))

/-- The fault that keeps a machine from going on. -/
def error? (m : Machine) : Option MachineFault :=
  if m.status = .faulted then m.fault else none

/-- The machine after an instruction, at the next program counter. -/
def advance (m : Machine) (next : Int) : Machine :=
  { m with pc := next, status := .running, count := m.count + 1 }

/-- The machine with `v` stored in the cell with the given index. -/
def store (m : Machine) (index : Nat) (v : Cell) : Machine :=
  { m with memory := ⟨m.memory.cells.setIfInBounds index v⟩ }

/-- Carries out an action. -/
def perform (m : Machine) (pipes : PipeTable) : Action → Machine × PipeTable
  | .store index v next => ((m.store index v).advance next, pipes)
  | .receive index next =>
    match pipes.pop? m.input with
    | some (v, pipes) => ((m.store index v).advance next, pipes)
    | none => ({ m with status := .waiting }, pipes)
  | .send v next => (m.advance next, pipes.push m.output v)
  | .jump next => (m.advance next, pipes)
  | .halt => ({ m with status := .halted, count := m.count + 1 }, pipes)

/-- The machine stopped by a fault. -/
def stop (m : Machine) (cause : Fault) : Machine :=
  { m with status := .faulted, fault := some ⟨m.name, cause⟩ }

/-- Executes the instruction at the program counter. A halted or faulted
machine stays as it is; a waiting one tries its input instruction again. -/
def step (m : Machine) (pipes : PipeTable) : Machine × PipeTable :=
  if m.status = .halted ∨ m.status = .faulted then (m, pipes)
  else
    match plan m.memory m.pc with
    | .error cause => (m.stop cause, pipes)
    | .ok action => m.perform pipes action

/-- Steps until the machine is no longer running. The result is `none` if
`fuel` steps do not get there. -/
def run : Nat → Machine → PipeTable → Option (Machine × PipeTable)
  | 0, _, _ => none
  | fuel + 1, m, pipes =>
    if m.status = .halted then some (m, pipes)
    else
      match m.step pipes with
      | (m, pipes) => if m.status = .running then run fuel m pipes else some (m, pipes)

end Machine

end CellMachine
