import CellMachine.Memory
import CellMachine.Sink.Basic
import CellMachine.Text.Blank
import CellMachine.Text.Numeral

/-!
# Program text

A program is written as its cells' numerals, separated by commas. White space
around a numeral and around the whole text is ignored when reading, and none is
written.
-/

namespace CellMachine

/-- Why a text is not a program. -/
inductive ImageError where
  | empty
  /-- The text of cell `k` is not a numeral. -/
  | cell (k : Nat) (cause : ReadingError)
deriving DecidableEq, Inhabited

/-- The wording of an image error. -/
def ImageError.message : ImageError → String
  | empty => "empty program"
  | cell k cause => "cell " ++ Numeral.write k ++ ": " ++ cause.message

namespace Image

/-- The parts of a text between commas. -/
def commaFields (t : Text) : List Text :=
  t.split (·.is ',')

/-- The cells written in fields, of which the first has number `k`. -/
def readCells (k : Nat) (seen : Array Cell) : List Text → Except ImageError (Array Cell)
  | [] => .ok seen
  | field :: rest =>
    match Numeral.read .cell field.trim with
    | .ok v => readCells (k + 1) (seen.push v) rest
    | .error cause => .error (.cell k cause)

/-- The memory that a program text describes. -/
def parse (t : Text) : Except ImageError Memory :=
  if t.trim.isEmpty then .error .empty
  else (readCells 0 #[] (commaFields t.trim)).map Memory.mk

end Image

namespace Memory

/-- The text of a memory, one piece for each cell with the comma before it. -/
def pieces (m : Memory) : List String :=
  match m.toList with
  | [] => []
  | v :: rest => Numeral.writeCell v :: rest.map fun v => "," ++ Numeral.writeCell v

/-- The program text of a memory. -/
def text (m : Memory) : String :=
  String.join m.pieces

section Writing

variable {σ : Type} [Destination σ]

/-- What is written before the numeral of cell `k`. -/
def separator (k : Nat) : String :=
  if k = 0 then "" else ","

/-- Writes cells, of which the first has number `k`, up to the first failed
write. -/
def dumpCells (s : Sticky σ) (k : Nat) : List Cell → Sticky σ × Option WriteError
  | [] => (s, s.error)
  | v :: rest =>
    let w := s.write (separator k ++ Numeral.writeCell v).toUTF8
    match w.error with
    | some e => (w.dest, some e)
    | none => dumpCells w.dest (k + 1) rest

/-- Writes the program text of a memory cell by cell. -/
def dump (m : Memory) (dest : σ) : σ × Option WriteError :=
  let (s, error) := dumpCells (.new dest) 0 m.toList
  (s.dest, error)

/-- If nothing is sent after a failed write, it does not matter that the cells
behind it are not written. -/
theorem dumpCells_cons (s : Sticky σ) (k : Nat) (v : Cell) {rest : List Cell} {pieces : List String}
    (hrest : ∀ s : Sticky σ,
      dumpCells s (k + 1) rest = (s.writeAll pieces, (s.writeAll pieces).error)) :
    dumpCells s k (v :: rest) =
      (s.writeAll ((separator k ++ Numeral.writeCell v) :: pieces),
        (s.writeAll ((separator k ++ Numeral.writeCell v) :: pieces)).error) := by
  show _ = ((s.write _).dest.writeAll pieces, ((s.write _).dest.writeAll pieces).error)
  rw [dumpCells]
  split
  case h_1 e h =>
    rw [Sticky.error_write] at h
    rw [Sticky.writeAll_of_error h, h]
  case h_2 => exact hrest _

theorem dumpCells_succ (s : Sticky σ) (k : Nat) (cells : List Cell) :
    dumpCells s (k + 1) cells =
      (s.writeAll (cells.map fun v => "," ++ Numeral.writeCell v),
        (s.writeAll (cells.map fun v => "," ++ Numeral.writeCell v)).error) := by
  induction cells generalizing s k with
  | nil => rfl
  | cons v rest ih => exact dumpCells_cons s (k + 1) v fun s => ih s (k + 1)

/-- Writing cell by cell is writing all pieces. -/
theorem dump_eq (m : Memory) (dest : σ) :
    m.dump dest =
      (((Sticky.new dest).writeAll m.pieces).dest,
        ((Sticky.new dest).writeAll m.pieces).error) := by
  have hcells : dumpCells (Sticky.new dest) 0 m.toList =
      ((Sticky.new dest).writeAll m.pieces, ((Sticky.new dest).writeAll m.pieces).error) := by
    unfold pieces
    split
    case h_1 h => rw [h]; rfl
    case h_2 v rest h =>
      -- only the first cell has nothing before its numeral
      rw [h, dumpCells_cons (.new dest) 0 v fun s => dumpCells_succ s 0 rest]
      simp only [separator, if_true, String.empty_append]
  rw [dump, hcells]

end Writing

end Memory

end CellMachine
