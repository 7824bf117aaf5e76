import CellMachine.Instruction

/-!
# What an instruction does

`plan` reads the instruction at an address and checks every address it uses,
without touching anything. The result is an `Action` that cannot fail any more,
or the fault. Carrying out an action is the machine's part.
-/

namespace CellMachine

/-- The effect of an instruction whose addresses have all been checked. `next`
is the address of the instruction that follows. -/
inductive Action where
  | store (index : Nat) (v : Cell) (next : Int)
  | receive (index : Nat) (next : Int)
  | send (v : Cell) (next : Int)
  | jump (next : Int)
  | halt
deriving DecidableEq, Inhabited

namespace Instruction

/-- Operand `k` of the instruction at `pc`. -/
def operand (ins : Instruction) (m : Memory) (pc : Int) (k : Nat) : Except Fault Cell :=
  (m.read (pc + 1 + k) (ins.mode k)).mapError (Fault.address (some pc))

/-- The index of the cell that parameter `k` of the instruction at `pc` names
as a destination. Destinations are addresses in every mode. -/
def destination (m : Memory) (pc : Int) (k : Nat) : Except Fault Nat :=
  match m.get (pc + 1 + k) with
  | .error e => .error (.address (some pc) e)
  | .ok v =>
    match m.index v.toInt with
    | .error e => .error (.address (some pc) e)
    | .ok i => .ok i.val

/-- The effect of an instruction that stores a function of its two operands. -/
def combine (ins : Instruction) (m : Memory) (pc : Int) (f : Cell → Cell → Cell) :
    Except Fault Action := do
  let a ← ins.operand m pc 0
  let b ← ins.operand m pc 1
  let i ← destination m pc 2
  return .store i (f a b) (pc + 4)

/-- The effect of a jump taken when its first operand satisfies `p`. The target
is looked at only when the jump is taken. -/
def jump (ins : Instruction) (m : Memory) (pc : Int) (p : Cell → Bool) :
    Except Fault Action := do
  let a ← ins.operand m pc 0
  if p a then
    let target ← ins.operand m pc 1
    return .jump target.toInt
  else
    return .jump (pc + 3)

/-- The effect of an instruction at `pc`. -/
def action (ins : Instruction) (m : Memory) (pc : Int) : Except Fault Action :=
  match ins.op with
  | .add => ins.combine m pc (· + ·)
  | .mul => ins.combine m pc (· * ·)
  | .lessThan => ins.combine m pc fun a b => if a < b then 1 else 0
  | .equals => ins.combine m pc fun a b => if a = b then 1 else 0
  | .input => do
    let i ← destination m pc 0
    return .receive i (pc + 2)
  | .output => do
    let v ← ins.operand m pc 0
    return .send v (pc + 2)
  | .jumpIfTrue => ins.jump m pc (· != 0)
  | .jumpIfFalse => ins.jump m pc (· == 0)
  | .halt => .ok .halt

end Instruction

/-- The effect of the instruction at `pc`. -/
def plan (m : Memory) (pc : Int) : Except Fault Action :=
  match Instruction.decode m pc with
  | .error fault => .error fault
  | .ok ins => ins.action m pc

end CellMachine
