import CellMachine.Memory

/-!
# Pipes

A pipe is an unbounded first-in-first-out queue of cells that remembers its
whole history: every value pushed so far, and how many of them have been taken.
What is still queued, the last value and the number of pushes are read off the
history. A `PipeTable` holds the pipes that machines share, by number.
-/

namespace CellMachine

/-- A queue with its history. -/
structure Pipe where
  /-- All values pushed since the pipe was made, oldest first. -/
  history : Array Cell
  /-- The number of values taken from the front. -/
  taken : Nat
  taken_le : taken ≤ history.size

namespace Pipe

/-- A pipe that nothing has been pushed to. -/
def empty : Pipe :=
  ⟨#[], 0, Nat.le_refl 0⟩

instance : Inhabited Pipe :=
  ⟨empty⟩

/-- Values still queued, next one first. -/
def queue (p : Pipe) : List Cell :=
  p.history.toList.drop p.taken

/-- The number of queued values. -/
def length (p : Pipe) : Nat :=
  p.history.size - p.taken

/-- The number of values pushed since the pipe was made. -/
def pushes (p : Pipe) : Nat :=
  p.history.size

/-- The last value pushed, taken or not. -/
def last? (p : Pipe) : Option Cell :=
  p.history.back?

/-- The value at the head of the queue. -/
def peek? (p : Pipe) : Option Cell :=
  p.history[p.taken]?

/-- The pipe with `v` behind all queued values. -/
def push (p : Pipe) (v : Cell) : Pipe :=
  ⟨p.history.push v, p.taken, by have := p.taken_le; simp only [Array.size_push]; omega⟩

/-- A pipe that holds the given values. -/
def ofList (values : List Cell) : Pipe :=
  values.foldl push empty

/-- The value at the head and the pipe without it. -/
def pop? (p : Pipe) : Option (Cell × Pipe) :=
  if h : p.taken < p.history.size then
    some (p.history[p.taken], ⟨p.history, p.taken + 1, h⟩)
  else
    none

/-- The pipe with all queued values taken. -/
def drain (p : Pipe) : Pipe :=
  ⟨p.history, p.history.size, Nat.le_refl _⟩

/-- All queued values and the pipe without them. -/
def popAll (p : Pipe) : List Cell × Pipe :=
  (p.queue, p.drain)

end Pipe

/-- The pipes that machines share, by number. -/
structure PipeTable where
  pipes : Array Pipe
deriving Inhabited

namespace PipeTable

/-- The number of pipes. -/
def size (t : PipeTable) : Nat :=
  t.pipes.size

/-- The pipe with number `i`. A number that names no pipe reads as an empty one. -/
def get (t : PipeTable) (i : Nat) : Pipe :=
  t.pipes.getD i .empty

/-- The table with one more pipe, which gets the next number. -/
def add (t : PipeTable) (p : Pipe) : PipeTable :=
  ⟨t.pipes.push p⟩

/-- The table with pipe `i` changed. -/
def modify (t : PipeTable) (i : Nat) (f : Pipe → Pipe) : PipeTable :=
  ⟨t.pipes.modify i f⟩

/-- The table after `v` is pushed to pipe `i`. -/
def push (t : PipeTable) (i : Nat) (v : Cell) : PipeTable :=
  t.modify i (·.push v)

/-- The head of pipe `i` and the table after it is taken. -/
def pop? (t : PipeTable) (i : Nat) : Option (Cell × PipeTable) :=
  match (t.get i).pop? with
  | some (v, p) => some (v, t.modify i fun _ => p)
  | none => none

/-- All values queued in pipe `i` and the table after they are taken. -/
def popAll (t : PipeTable) (i : Nat) : List Cell × PipeTable :=
  let (values, p) := (t.get i).popAll
  (values, t.modify i fun _ => p)

end PipeTable

end CellMachine
