/-!
# Memory

A machine's memory is a fixed row of 64-bit cells. Addresses are integers, and
every access outside `[0, size)` is refused with the address at fault; nothing
grows the row.
-/

namespace CellMachine

/-- A memory location's content: a 64-bit signed integer. -/
abbrev Cell := Int64

/-- How a parameter denotes its operand: the cell holds the operand's address,
or the operand itself. -/
inductive Mode where
  | position
  | immediate
deriving DecidableEq, Inhabited

namespace Mode

/-- The mode with a given number: 1 is immediate, all others are position. -/
def ofInt (n : Int) : Mode :=
  if n = 1 then immediate else position

/-- The name of a mode. -/
def name : Mode → String
  | position => "position"
  | immediate => "immediate"

end Mode

/-- An address outside a memory of the given size. -/
structure BadAddress where
  addr : Int
  size : Nat
deriving DecidableEq, Inhabited

/-- A row of cells. -/
structure Memory where
  cells : Array Cell
deriving DecidableEq, Inhabited

namespace Memory

/-- The memory that holds the given cells. -/
def ofList (cells : List Cell) : Memory :=
  ⟨cells.toArray⟩

/-- The cells of a memory, in order of address. -/
def toList (m : Memory) : List Cell :=
  m.cells.toList

/-- The number of cells. -/
def size (m : Memory) : Nat :=
  m.cells.size

/-- Whether `addr` is the address of a cell. -/
def Has (m : Memory) (addr : Int) : Prop :=
  0 ≤ addr ∧ addr < m.size

instance (m : Memory) (addr : Int) : Decidable (m.Has addr) :=
  inferInstanceAs (Decidable (_ ∧ _))

/-- The address as an index into the row, or the refusal. -/
def index (m : Memory) (addr : Int) : Except BadAddress (Fin m.cells.size) :=
  if h : m.Has addr then
    .ok ⟨addr.toNat, by have := h.1; have : addr < m.cells.size := h.2; omega⟩
  else
    .error ⟨addr, m.size⟩

/-- The cell at an address. -/
def get (m : Memory) (addr : Int) : Except BadAddress Cell :=
  match m.index addr with
  | .ok i => .ok m.cells[i]
  | .error e => .error e

/-- The operand denoted by the cell at `addr` in the given mode. -/
def read (m : Memory) (addr : Int) : Mode → Except BadAddress Cell
  | .immediate => m.get addr
  | .position =>
    match m.get addr with
    | .ok v => m.get v.toInt
    | .error e => .error e

/-- The memory with `v` stored at an address. -/
def write (m : Memory) (addr : Int) (v : Cell) : Except BadAddress Memory :=
  match m.index addr with
  | .ok i => .ok ⟨m.cells.set i v⟩
  | .error e => .error e

end Memory

end CellMachine
