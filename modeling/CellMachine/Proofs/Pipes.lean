import CellMachine.Pipe

/-!
# Queues behind pipes

The operations of a pipe read through its queue: a push appends, a pop takes the
head, and the two commute while the queue is not empty (`Pipe.skip_push`). The
same facts are carried over to a table of pipes, where a change of one pipe
leaves the others alone (`PipeTable.get_modify_of_ne`) and where a table is
determined by its size and its pipes (`PipeTable.ext_get`). Only what is sent to a
pipe changes its history (`PipeTable.history_draw`, `PipeTable.history_feed`).

What is taken from a pipe could be forgotten: its queue, its last value and the
number of pushes are enough to go on with (`Pipe.window_push`, `Pipe.window_pop?`,
`Pipe.window_popAll`).
-/

set_option autoImplicit false

namespace CellMachine

attribute [ext] Pipe PipeTable

namespace Pipe

/-- The pipe without the head of its queue. An empty pipe stays as it is. -/
def skip (p : Pipe) : Pipe :=
  if h : p.taken < p.history.size then ⟨p.history, p.taken + 1, h⟩ else p

theorem queue_eq_nil_iff (p : Pipe) : p.queue = [] ↔ p.history.size ≤ p.taken := by
  simp [queue]

@[simp] theorem queue_empty : Pipe.empty.queue = [] := rfl

@[simp] theorem queue_push (p : Pipe) (v : Cell) : (p.push v).queue = p.queue ++ [v] := by
  have h := p.taken_le
  simp only [queue, push, Array.toList_push]
  rw [List.drop_append_of_le_length (by simpa using h)]

@[simp] theorem queue_skip (p : Pipe) : p.skip.queue = p.queue.tail := by
  by_cases h : p.taken < p.history.size
  · simp [skip, h, queue]
  · have hnil : p.queue = [] := (queue_eq_nil_iff p).2 (by omega)
    simp [skip, h, hnil]

@[simp] theorem history_skip (p : Pipe) : p.skip.history = p.history := by
  unfold skip
  split <;> rfl

@[simp] theorem queue_drain (p : Pipe) : p.drain.queue = [] := by
  simp [queue, drain]

@[simp] theorem history_push (p : Pipe) (v : Cell) : (p.push v).history = p.history.push v := rfl

@[simp] theorem history_drain (p : Pipe) : p.drain.history = p.history := rfl

/-- A pop returns the head of the queue and leaves the rest. -/
theorem pop?_eq (p : Pipe) : p.pop? = p.queue.head?.map fun v => (v, p.skip) := by
  by_cases h : p.taken < p.history.size
  · have hq : p.queue.head? = some p.history[p.taken] := by
      simp [queue, List.head?_drop, h]
    rw [hq]
    simp [pop?, skip, h]
  · have hnil : p.queue = [] := (queue_eq_nil_iff p).2 (by omega)
    simp [pop?, h, hnil]

/-- What is pushed behind a queue does not get in the way of taking its head. -/
theorem skip_push {p : Pipe} (h : p.queue ≠ []) (v : Cell) : (p.push v).skip = p.skip.push v := by
  have hlt : p.taken < p.history.size := by
    rw [Ne, queue_eq_nil_iff] at h
    omega
  have hlt' : p.taken < p.history.size + 1 := by omega
  simp [skip, push, hlt, hlt']

/-! ## Several values at once -/

/-- The pipe with the values behind all queued ones. -/
def pushAll (p : Pipe) (values : List Cell) : Pipe :=
  values.foldl push p

theorem pushAll_pushAll (p : Pipe) (values values' : List Cell) :
    (p.pushAll values).pushAll values' = p.pushAll (values ++ values') :=
  List.foldl_append.symm

@[simp] theorem queue_pushAll (p : Pipe) (values : List Cell) :
    (p.pushAll values).queue = p.queue ++ values := by
  induction values generalizing p with
  | nil => exact (List.append_nil _).symm
  | cons v rest ih =>
    show ((p.push v).pushAll rest).queue = p.queue ++ v :: rest
    rw [ih, queue_push, List.append_assoc]
    rfl

/-- A pipe made from a list holds that list. -/
@[simp] theorem queue_ofList (values : List Cell) : (ofList values).queue = values := by
  show (Pipe.empty.pushAll values).queue = values
  rw [queue_pushAll, queue_empty, List.nil_append]

/-- What is queued behind a value does not get in the way of taking it. -/
theorem skip_pushAll {p : Pipe} (h : p.queue ≠ []) (values : List Cell) :
    (p.pushAll values).skip = p.skip.pushAll values := by
  induction values generalizing p with
  | nil => rfl
  | cons v rest ih =>
    show ((p.push v).pushAll rest).skip = (p.skip.push v).pushAll rest
    rw [ih (by simp), skip_push h]

@[simp]
theorem taken_pushAll (p : Pipe) (values : List Cell) : (p.pushAll values).taken = p.taken := by
  induction values generalizing p with
  | nil => rfl
  | cons v rest ih => exact ih (p.push v)

@[simp] theorem history_pushAll (p : Pipe) (values : List Cell) :
    (p.pushAll values).history.toList = p.history.toList ++ values := by
  induction values generalizing p with
  | nil => exact (List.append_nil _).symm
  | cons v rest ih =>
    show ((p.push v).pushAll rest).history.toList = p.history.toList ++ v :: rest
    rw [ih]
    simp [push]

/-- The last value ever pushed to a pipe that was empty is the last of the list. -/
theorem last?_pushAll_empty (values : List Cell) :
    (Pipe.empty.pushAll values).last? = values.getLast? := by
  rw [last?, ← Array.getLast?_toList, history_pushAll]
  rfl

/-! ## Pipes without a history -/

/-- What is left of a pipe without its history: the queued values, the last value pushed, which is
0 before there is one, and the number of pushes. -/
structure Window where
  queue : List Cell
  last : Cell
  pushes : Nat

namespace Window

def empty : Window :=
  ⟨[], 0, 0⟩

def push (w : Window) (v : Cell) : Window :=
  ⟨w.queue ++ [v], v, w.pushes + 1⟩

def pop? (w : Window) : Option (Cell × Window) :=
  match w.queue with
  | [] => none
  | v :: rest => some (v, { w with queue := rest })

def popAll (w : Window) : List Cell × Window :=
  (w.queue, { w with queue := [] })

def last? (w : Window) : Option Cell :=
  if 0 < w.pushes then some w.last else none

end Window

/-- The window of a pipe. -/
def window (p : Pipe) : Window :=
  ⟨p.queue, p.last?.getD 0, p.pushes⟩

@[simp] theorem window_empty : Pipe.empty.window = .empty := rfl

@[simp] theorem window_push (p : Pipe) (v : Cell) : (p.push v).window = p.window.push v := by
  simp [window, Window.push, last?, pushes]

/-- Taking the head of the queue changes nothing else that is seen. -/
theorem window_pop? (p : Pipe) :
    (p.pop?.map fun (v, p') => (v, p'.window)) = p.window.pop? := by
  rw [pop?_eq, Window.pop?]
  cases hq : p.queue with
  | nil => simp [window, hq]
  | cons v rest => simp [window, hq, last?, pushes]

theorem window_popAll (p : Pipe) : (p.popAll.1, p.popAll.2.window) = p.window.popAll := by
  simp [popAll, window, Window.popAll, last?, pushes]

/-- The last value is there as soon as something has been pushed. -/
@[simp] theorem last?_window (p : Pipe) : p.window.last? = p.last? := by
  rw [Window.last?, window]
  cases h : p.last? with
  | none =>
    have hsize : p.history.size = 0 := by simpa [last?] using h
    exact if_neg (by rw [pushes, hsize]; exact Nat.lt_irrefl 0)
  | some v =>
    have hsize : 0 < p.history.size := by
      apply Nat.pos_of_ne_zero
      intro hnil
      simp [last?, Array.eq_empty_of_size_eq_zero hnil] at h
    exact if_pos hsize

@[simp] theorem head?_window (p : Pipe) : p.window.queue.head? = p.peek? := by
  simp [window, queue, peek?, List.head?_drop]

@[simp] theorem length_window (p : Pipe) : p.window.queue.length = p.length := by
  simp [window, queue, length]

end Pipe

namespace PipeTable

@[simp] theorem size_modify (t : PipeTable) (i : Nat) (f : Pipe → Pipe) :
    (t.modify i f).size = t.size := by
  simp [size, modify]

theorem get_of_size_le {t : PipeTable} {i : Nat} (h : t.size ≤ i) : t.get i = .empty := by
  simp only [size] at h
  simp [get, h]

@[simp] theorem get_modify_self {t : PipeTable} {i : Nat} (h : i < t.size) (f : Pipe → Pipe) :
    (t.modify i f).get i = f (t.get i) := by
  simp only [size] at h
  simp only [get, modify, Array.getD_eq_getD_getElem?, Array.getElem?_modify]
  simp [h]

@[simp] theorem get_modify_of_ne {i j : Nat} (h : i ≠ j) (t : PipeTable) (f : Pipe → Pipe) :
    (t.modify i f).get j = t.get j := by
  simp [get, modify, Array.getElem?_modify, h]

@[simp] theorem size_push (t : PipeTable) (i : Nat) (v : Cell) : (t.push i v).size = t.size :=
  size_modify t i _

@[simp] theorem get_push_self {t : PipeTable} {i : Nat} (h : i < t.size) (v : Cell) :
    (t.push i v).get i = (t.get i).push v :=
  get_modify_self h _

@[simp] theorem get_push_of_ne {i j : Nat} (h : i ≠ j) (t : PipeTable) (v : Cell) :
    (t.push i v).get j = t.get j :=
  get_modify_of_ne h t _

/-- A pipe with something in its queue is one of the table's pipes. -/
theorem lt_size_of_queue_ne_nil {t : PipeTable} {i : Nat} (h : (t.get i).queue ≠ []) :
    i < t.size := by
  apply Nat.lt_of_not_le
  intro hge
  rw [get_of_size_le hge] at h
  exact h Pipe.queue_empty

/-- A table is determined by its size and its pipes. -/
theorem ext_get {t u : PipeTable} (hsize : t.size = u.size) (hget : ∀ i, t.get i = u.get i) :
    t = u := by
  apply PipeTable.ext
  refine Array.ext hsize fun i hi hi' => ?_
  have h := hget i
  simpa [get, hi, hi'] using h

theorem modify_comm {i j : Nat} (h : i ≠ j) (t : PipeTable) (f g : Pipe → Pipe) :
    (t.modify i f).modify j g = (t.modify j g).modify i f := by
  apply ext_get
  · simp
  · intro k
    simp only [get, modify, Array.getD_eq_getD_getElem?, Array.getElem?_modify]
    by_cases hi : i = k
    · by_cases hj : j = k
      · exact absurd (hi.trans hj.symm) h
      · simp [hi, hj]
    · simp [hi]

theorem modify_modify (t : PipeTable) (i : Nat) (f g : Pipe → Pipe) :
    (t.modify i f).modify i g = t.modify i fun p => g (f p) := by
  apply ext_get
  · simp
  · intro k
    simp only [get, modify, Array.getD_eq_getD_getElem?, Array.getElem?_modify]
    by_cases hi : i = k
    · simp [hi, Function.comp_def]
    · simp [hi]

/-- Two changes of a pipe that agree on its content are the same change. -/
theorem modify_congr {t : PipeTable} {i : Nat} {f g : Pipe → Pipe}
    (h : f (t.get i) = g (t.get i)) : t.modify i f = t.modify i g := by
  apply ext_get
  · simp
  · intro k
    by_cases hi : i = k
    · subst hi
      by_cases hlt : i < t.size
      · rw [get_modify_self hlt, get_modify_self hlt, h]
      · rw [get_of_size_le (by simpa using hlt), get_of_size_le (by simpa using hlt)]
    · simp [hi]

/-- A pop of pipe `i` returns the head of its queue. -/
theorem pop?_eq (t : PipeTable) (i : Nat) :
    t.pop? i = (t.get i).queue.head?.map fun v => (v, t.modify i Pipe.skip) := by
  rw [pop?, Pipe.pop?_eq]
  cases hq : (t.get i).queue.head? with
  | none => rfl
  | some v =>
    have hskip : (t.modify i fun _ => (t.get i).skip) = t.modify i Pipe.skip :=
      modify_congr rfl
    simp [hskip]

/-- Taking all values of pipe `i` returns its queue. -/
theorem popAll_eq (t : PipeTable) (i : Nat) :
    t.popAll i = ((t.get i).queue, t.modify i Pipe.drain) := by
  have hdrain : (t.modify i fun _ => (t.get i).drain) = t.modify i Pipe.drain := modify_congr rfl
  rw [← hdrain]
  rfl

/-! ## Traffic of one machine -/

/-- The table after a machine has taken the head of pipe `i`, if `takes` says so. -/
def draw (t : PipeTable) (i : Nat) (takes : Bool) : PipeTable :=
  if takes then t.modify i Pipe.skip else t

/-- The table after a machine has sent a value to pipe `i`, if it sends one. -/
def feed (t : PipeTable) (i : Nat) (sends : Option Cell) : PipeTable :=
  sends.elim t (t.push i)

theorem draw_comm {i j : Nat} (h : i ≠ j) (t : PipeTable) (b c : Bool) :
    (t.draw i b).draw j c = (t.draw j c).draw i b := by
  cases b with
  | false => rfl
  | true =>
    cases c with
    | false => rfl
    | true => exact modify_comm h t Pipe.skip Pipe.skip

theorem feed_comm {i j : Nat} (h : i ≠ j) (t : PipeTable) (s s' : Option Cell) :
    (t.feed i s).feed j s' = (t.feed j s').feed i s := by
  cases s with
  | none => rfl
  | some v =>
    cases s' with
    | none => rfl
    | some v' => exact modify_comm h t _ _

/-- Sending to a pipe commutes with taking from a pipe that is not empty, even
if it is the same pipe. -/
theorem feed_draw_comm {t : PipeTable} {i : Nat} {b : Bool}
    (h : b = true → (t.get i).queue ≠ []) (j : Nat) (s : Option Cell) :
    (t.feed j s).draw i b = (t.draw i b).feed j s := by
  cases s with
  | none => rfl
  | some v =>
    cases b with
    | false => rfl
    | true =>
      by_cases hij : j = i
      · subst hij
        show (t.modify j (·.push v)).modify j Pipe.skip = (t.modify j Pipe.skip).modify j (·.push v)
        rw [modify_modify, modify_modify]
        exact modify_congr (Pipe.skip_push (h rfl) v)
      · exact modify_comm hij t _ _

@[simp] theorem size_draw (t : PipeTable) (i : Nat) (b : Bool) : (t.draw i b).size = t.size := by
  cases b with
  | false => rfl
  | true => exact size_modify t i _

@[simp]
theorem size_feed (t : PipeTable) (i : Nat) (s : Option Cell) : (t.feed i s).size = t.size := by
  cases s with
  | none => rfl
  | some v => exact size_modify t i _

@[simp] theorem get_draw_of_ne {i j : Nat} (h : i ≠ j) (t : PipeTable) (b : Bool) :
    (t.draw i b).get j = t.get j := by
  cases b with
  | false => rfl
  | true => exact get_modify_of_ne h t _

@[simp] theorem get_feed_of_ne {i j : Nat} (h : i ≠ j) (t : PipeTable) (s : Option Cell) :
    (t.feed i s).get j = t.get j := by
  cases s with
  | none => rfl
  | some v => exact get_modify_of_ne h t _

theorem get_draw_self (t : PipeTable) (i : Nat) (b : Bool) :
    (t.draw i b).get i = if b then (t.get i).skip else t.get i := by
  cases b with
  | false => rfl
  | true =>
    show (t.modify i Pipe.skip).get i = (t.get i).skip
    by_cases h : i < t.size
    · exact get_modify_self h Pipe.skip
    · rw [get_of_size_le (by simpa using h), get_of_size_le (by omega)]
      rfl

/-- Taking from a pipe drops the head of its queue, if there is one. -/
@[simp] theorem queue_draw_self (t : PipeTable) (i : Nat) (b : Bool) :
    ((t.draw i b).get i).queue = if b then (t.get i).queue.tail else (t.get i).queue := by
  rw [get_draw_self]
  cases b with
  | false => rfl
  | true => exact Pipe.queue_skip (t.get i)

theorem get_feed_self {t : PipeTable} {i : Nat} (h : i < t.size) (s : Option Cell) :
    (t.feed i s).get i = (t.get i).pushAll s.toList := by
  cases s with
  | none => rfl
  | some v => exact get_modify_self h _

@[simp] theorem queue_feed_self {t : PipeTable} {i : Nat} (h : i < t.size) (s : Option Cell) :
    ((t.feed i s).get i).queue = (t.get i).queue ++ s.toList := by
  simp [get_feed_self h]

/-- What is taken from a pipe stays in its history. -/
@[simp] theorem history_draw (t : PipeTable) (i : Nat) (b : Bool) (j : Nat) :
    ((t.draw i b).get j).history = (t.get j).history := by
  by_cases hij : i = j
  · subst hij
    rw [get_draw_self]
    cases b with
    | false => rfl
    | true => exact Pipe.history_skip (t.get i)
  · rw [get_draw_of_ne hij]

theorem history_feed {t : PipeTable} {j : Nat} (h : j < t.size) (i : Nat) (s : Option Cell) :
    ((t.feed i s).get j).history.toList =
      (t.get j).history.toList ++ if i = j then s.toList else [] := by
  by_cases hij : i = j
  · subst hij
    rw [get_feed_self h, Pipe.history_pushAll, if_pos rfl]
  · rw [get_feed_of_ne hij, if_neg hij, List.append_nil]

/-- Sending to a pipe keeps the head of every queue that has one. -/
theorem head?_queue_feed {t : PipeTable} {i : Nat} (h : (t.get i).queue ≠ []) (j : Nat)
    (s : Option Cell) : ((t.feed j s).get i).queue.head? = (t.get i).queue.head? := by
  by_cases hij : j = i
  · subst hij
    rw [queue_feed_self (lt_size_of_queue_ne_nil h)]
    obtain ⟨v, rest, hq⟩ := List.exists_cons_of_ne_nil h
    rw [hq, List.cons_append, List.head?_cons, List.head?_cons]
  · rw [get_feed_of_ne hij]

/-! ## Adding pipes -/

@[simp] theorem size_add (t : PipeTable) (p : Pipe) : (t.add p).size = t.size + 1 := by
  simp [size, add]

theorem get_add (t : PipeTable) (p : Pipe) (i : Nat) :
    (t.add p).get i = if i = t.size then p else t.get i := by
  simp only [get, add, size, Array.getD_eq_getD_getElem?, Array.getElem?_push]
  by_cases h : i = t.pipes.size <;> simp [h]

/-- Pipes that are added one after another get the numbers from the old size on. -/
@[simp] theorem size_addAll (ps : List Pipe) (t : PipeTable) :
    (ps.foldl add t).size = t.size + ps.length := by
  induction ps generalizing t with
  | nil => rfl
  | cons p rest ih =>
    rw [List.foldl_cons, ih, size_add, List.length_cons]
    omega

theorem get_addAll (ps : List Pipe) (t : PipeTable) (i : Nat) :
    (ps.foldl add t).get i = if i < t.size then t.get i else ps.getD (i - t.size) .empty := by
  induction ps generalizing t with
  | nil =>
    by_cases h : i < t.size
    · simp [h]
    · simp [h, get_of_size_le (show t.size ≤ i by omega)]
  | cons p rest ih =>
    rw [List.foldl_cons, ih, size_add, get_add]
    by_cases h : i < t.size
    · simp [h, show i < t.size + 1 by omega, show i ≠ t.size by omega]
    · by_cases h' : i = t.size
      · simp [h']
      · have hsub : i - t.size = (i - (t.size + 1)) + 1 := by omega
        simp [h, show ¬ i < t.size + 1 by omega, hsub]

end PipeTable

end CellMachine
