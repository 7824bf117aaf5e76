import CellMachine.Instruction
import CellMachine.Sink.Basic

/-!
# Listings

The assembly text of a memory. A cell that starts an instruction all of whose
parameters lie in memory is written as that instruction, and takes them along;
any other cell is written as a data value.
-/

namespace CellMachine.Listing

/-- The text of parameter `k` of the instruction at `pc`, piece by piece. -/
def parameterPieces (m : Memory) (ins : Instruction) (pc k : Nat) : List String :=
  [" "] ++ (if ins.mode k = .immediate then ["#"] else []) ++
    [Numeral.writeCell (m.cells.getD (pc + 1 + k) 0)]

/-- The instruction that a listing shows at `pc`, if it shows one. -/
def shown? (m : Memory) (pc : Nat) : Option Instruction :=
  match Instruction.decode m pc with
  | .ok ins => if pc + ins.op.arity < m.size then some ins else none
  | .error _ => none

/-- The text of the statement at `pc`, piece by piece. -/
def statementPieces (m : Memory) (pc : Nat) : List String :=
  match shown? m pc with
  | some ins => ins.op.name :: (List.range ins.op.arity).flatMap (parameterPieces m ins pc)
  | none => [".dat ", Numeral.writeCell (m.cells.getD pc 0)]

/-- The number of cells that the statement at `pc` takes. -/
def statementSize (m : Memory) (pc : Nat) : Nat :=
  match shown? m pc with
  | some ins => ins.op.arity + 1
  | none => 1

theorem statementSize_pos (m : Memory) (pc : Nat) : 0 < statementSize m pc := by
  unfold statementSize
  split <;> omega

/-- The addresses at which the statements from `pc` on start. -/
def statementsFrom (m : Memory) (pc : Nat) : List Nat :=
  if pc < m.size then pc :: statementsFrom m (pc + statementSize m pc) else []
termination_by m.size - pc
decreasing_by
  have := statementSize_pos m pc
  omega

/-- The addresses at which the statements of a listing start. -/
def statements (m : Memory) : List Nat :=
  statementsFrom m 0

/-- A text with blanks before it up to a width. -/
def alignRight (width : Nat) (s : String) : String :=
  String.ofList (List.replicate (width - s.length) ' ') ++ s

/-- What stands before the statement at `pc` if the first cell is shown with
address `base`. -/
def margin (base : Int64) (pc : Nat) : String :=
  alignRight 5 (Numeral.writeCell (base + Int64.ofNat pc)) ++ "  "

/-- A line of a listing whose first cell is shown with address `base`. -/
def linePieces (m : Memory) (base : Int64) (pc : Nat) : List String :=
  margin base pc :: statementPieces m pc ++ ["\n"]

/-- The text of the statement at `pc`. -/
def statementText (m : Memory) (pc : Nat) : String :=
  String.join (statementPieces m pc)

/-- The assembly text of a memory, one statement a line. -/
def source (m : Memory) : String :=
  String.join ((statements m).map fun pc => statementText m pc ++ "\n")

variable {σ : Type} [Destination σ]

/-- The outcome of writing one statement: the address after it, and what went
wrong. -/
inductive Outcome where
  | done (next : Int)
  | unwritten (next : Int) (cause : WriteError)
  | outside (pc : Int) (cause : BadAddress)
deriving DecidableEq, Inhabited

/-- The address at which writing goes on. Nothing is written for an address out of range, and
it is returned as it is. -/
def Outcome.next : Outcome → Int
  | .done next => next
  | .unwritten next _ => next
  | .outside pc _ => pc

/-- Writes the statement at `pc` to a destination that remembers its errors. -/
def putStatement (m : Memory) (pc : Int) (s : Sticky σ) : Sticky σ × Outcome :=
  match m.index pc with
  | .error e => (s, .outside pc e)
  | .ok i =>
    let s := s.writeAll (statementPieces m i.val)
    let next := pc + statementSize m i.val
    (s, s.error.elim (.done next) (.unwritten next))

/-- Writes the statement at `pc`. -/
def writeStatement (m : Memory) (pc : Int) (dest : σ) : σ × Outcome :=
  let (s, outcome) := putStatement m pc (.new dest)
  (s.dest, outcome)

theorem putStatement_of_lt {m : Memory} {pc : Nat} (h : pc < m.size) (s : Sticky σ) :
    putStatement m pc s =
      (s.writeAll (statementPieces m pc), (s.writeAll (statementPieces m pc)).error.elim
        (.done (pc + statementSize m pc)) (.unwritten (pc + statementSize m pc))) := by
  have hhas : m.Has pc := by
    simp only [Memory.Has]
    omega
  simp only [putStatement, Memory.index, hhas, dif_pos, Int.toNat_natCast]

/-- Where writing goes on does not depend on what becomes of the text. -/
theorem next_putStatement {m : Memory} {pc : Nat} (h : pc < m.size) (s : Sticky σ) :
    (putStatement m pc s).2.next = pc + statementSize m pc := by
  rw [putStatement_of_lt h]
  cases (s.writeAll (statementPieces m pc)).error with
  | none => rfl
  | some e => rfl

/-- Writes lines from `pc` on up to the first one that fails. -/
def writeFrom (m : Memory) (base : Int64) (pc : Nat) (s : Sticky σ) :
    Sticky σ × Option WriteError :=
  if pc < m.size then
    let s := (s.write (margin base pc).toUTF8).dest
    let r := putStatement m pc s
    let s := (r.1.write "\n".toUTF8).dest
    match s.error with
    | some e => (s, some e)
    | none => writeFrom m base r.2.next.toNat s
  else (s, none)
termination_by m.size - pc
decreasing_by
  have hpos := statementSize_pos m pc
  rw [next_putStatement ‹pc < m.size›]
  omega

/-- Writes a listing with addresses. -/
def write (m : Memory) (base : Int64) (dest : σ) : σ × Option WriteError :=
  let (s, error) := writeFrom m base 0 (.new dest)
  (s.dest, error)

theorem writeFrom_eq (m : Memory) (base : Int64) (pc : Nat) {s : Sticky σ} (hs : s.error = none) :
    writeFrom m base pc s =
      (s.writeAll ((statementsFrom m pc).flatMap (linePieces m base)),
        (s.writeAll ((statementsFrom m pc).flatMap (linePieces m base))).error) := by
  fun_induction statementsFrom m pc generalizing s with
  | case1 pc hlt ih =>
    rw [List.flatMap_cons, Sticky.writeAll_append, writeFrom, if_pos hlt]
    -- the pieces of the line have been written when the error is looked at
    have hline : ((putStatement m pc (s.write (margin base pc).toUTF8).dest).1.write
        "\n".toUTF8).dest = s.writeAll (linePieces m base pc) := by
      rw [putStatement_of_lt hlt]
      exact (Sticky.writeAll_append _ (statementPieces m pc) ["\n"]).symm
    simp only [hline, next_putStatement hlt]
    split
    case h_1 e h => rw [Sticky.writeAll_of_error h, h]
    case h_2 h => exact ih h
  | case2 pc hge =>
    rw [writeFrom, if_neg hge]
    exact congrArg (Prod.mk s) hs.symm

/-- Writing line by line is writing all pieces. -/
theorem write_eq (m : Memory) (base : Int64) (dest : σ) :
    write m base dest =
      (((Sticky.new dest).writeAll ((statements m).flatMap (linePieces m base))).dest,
        ((Sticky.new dest).writeAll ((statements m).flatMap (linePieces m base))).error) := by
  rw [write, writeFrom_eq m base 0 rfl]
  rfl

end CellMachine.Listing
