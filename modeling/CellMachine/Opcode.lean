/-!
# Operations

The nine operations of a machine, each with the number that selects it in an
instruction cell, its name and the number of its parameters.
-/

namespace CellMachine

/-- An operation. -/
inductive Opcode where
  | add
  | mul
  | input
  | output
  | jumpIfTrue
  | jumpIfFalse
  | lessThan
  | equals
  | halt
deriving DecidableEq, Inhabited

namespace Opcode

/-- The number that selects an operation. -/
def code : Opcode → Nat
  | add => 1
  | mul => 2
  | input => 3
  | output => 4
  | jumpIfTrue => 5
  | jumpIfFalse => 6
  | lessThan => 7
  | equals => 8
  | halt => 99

/-- The operation that a number selects. -/
def ofCode? : Int → Option Opcode
  | 1 => some add
  | 2 => some mul
  | 3 => some input
  | 4 => some output
  | 5 => some jumpIfTrue
  | 6 => some jumpIfFalse
  | 7 => some lessThan
  | 8 => some equals
  | 99 => some halt
  | _ => none

/-- The name of an operation. -/
def name : Opcode → String
  | add => "add"
  | mul => "mul"
  | input => "in"
  | output => "out"
  | jumpIfTrue => "jt"
  | jumpIfFalse => "jf"
  | lessThan => "lt"
  | equals => "eq"
  | halt => "hlt"

/-- The name shown for the operation with a given number, if there is one. -/
def nameOfCode (n : Int) : String :=
  (ofCode? n).elim "???" name

/-- The number of parameters of an operation. -/
def arity : Opcode → Nat
  | add | mul | lessThan | equals => 3
  | input | output => 1
  | jumpIfTrue | jumpIfFalse => 2
  | halt => 0

/-- Whether parameter `k` of an operation is the address that it stores to. -/
def isDestination : Opcode → Nat → Bool
  | add, k | mul, k | lessThan, k | equals, k => k == 2
  | input, k => k == 0
  | _, _ => false

end Opcode

end CellMachine
