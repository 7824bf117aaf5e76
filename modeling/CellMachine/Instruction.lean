import CellMachine.Memory
import CellMachine.Opcode
import CellMachine.Text.Numeral

/-!
# Instructions and faults

An instruction cell holds the operation in its two lowest decimal digits and
the parameter modes in the digits above them, lowest first. `decode` reads it;
the ways in which reading or executing an instruction can fail are `Fault`.
-/

namespace CellMachine

/-- What stops a machine, or an access to a memory from outside a machine. -/
inductive Fault where
  /-- An access outside the memory by the instruction at `site`, or from
  outside any instruction. -/
  | address (site : Option Int) (cause : BadAddress)
  /-- The cell at `pc` holds no instruction. -/
  | opcode (pc : Int) (value : Cell)
deriving DecidableEq, Inhabited

namespace Fault

/-- The text of an integer after an address, shown only for addresses that a
memory can have. -/
def siteNote : Option Int → String
  | some pc => if pc < 0 then "" else " @pc=" ++ Numeral.write pc
  | none => ""

/-- The wording of a fault. -/
def message : Fault → String
  | address site cause =>
    "address " ++ Numeral.write cause.addr ++ " out of range [0, " ++ Numeral.write cause.size ++
      ")" ++ siteNote site
  | opcode pc value =>
    "unknown opcode " ++ Numeral.write (value.toInt.tmod 100) ++ " in cell value " ++
      Numeral.writeCell value ++ " @pc=" ++ Numeral.write pc

end Fault

/-- A decoded instruction: an operation and one mode for each parameter. -/
structure Instruction where
  op : Opcode
  modes : List Mode
deriving DecidableEq, Inhabited

namespace Instruction

/-- The mode of parameter `k`. -/
def mode (ins : Instruction) (k : Nat) : Mode :=
  ins.modes.getD k .position

/-- The modes in the lowest `k` decimal digits of `n`: zero is position. The
digits are looked at only up to the highest one that is not zero. -/
def modesOf : Nat → Nat → List Mode
  | 0, _ => []
  | k + 1, n =>
    if n = 0 then List.replicate (k + 1) .position
    else (if n % 10 = 0 then .position else .immediate) :: modesOf k (n / 10)

/-- The digits above the highest one are zeros like others. -/
theorem modesOf_succ (k n : Nat) :
    modesOf (k + 1) n = (if n % 10 = 0 then .position else .immediate) :: modesOf k (n / 10) := by
  rw [modesOf]
  split
  case isTrue h =>
    subst h
    cases k with
    | zero => rfl
    | succ k => rfl
  case isFalse => rfl

/-- The instruction that a cell holds. -/
def ofCell? (v : Cell) : Option Instruction :=
  if v.toInt < 0 then none
  else
    (Opcode.ofCode? (v.toInt.toNat % 100 : Nat)).map fun op =>
      ⟨op, modesOf op.arity (v.toInt.toNat / 100)⟩

/-- The instruction at address `pc`. -/
def decode (m : Memory) (pc : Int) : Except Fault Instruction :=
  match m.get pc with
  | .error e => .error (.address (some pc) e)
  | .ok v =>
    match ofCell? v with
    | some ins => .ok ins
    | none => .error (.opcode pc v)

end Instruction

end CellMachine
