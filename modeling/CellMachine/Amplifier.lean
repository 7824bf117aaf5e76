import CellMachine.Network.Run

/-!
# Amplifiers

An amplifier is a chain or ring of machines that run one program, started with
the signal 0; its signal is the last value that the last machine writes. The
search tries all orders of the phase values and keeps the first of the orders
with the highest signal.

The orders come from a walk that makes one exchange after the other
(`Amplifier.Walk`). It counts the exchanges at each place like the digits of a
number, and each turn lowers the turns that are left (`Walk.ahead_turn_lt`).
-/

namespace CellMachine

/-- Why there is no signal. -/
inductive AmplifierError where
  | noValues
  | build (cause : BuildError)
  | run (phases : List Cell) (cause : RunError)
  | noOutput (phases : List Cell)
deriving DecidableEq, Inhabited

/-- Cells in brackets. -/
def bracketedCells (cells : List Cell) : String :=
  bracketed (cells.map Int64.toInt)

/-- The wording of an amplifier error. -/
def AmplifierError.message : AmplifierError → String
  | noValues => "no phase values"
  | build cause => cause.message
  | run phases cause => "phases " ++ bracketedCells phases ++ ": " ++ cause.message
  | noOutput phases => "phases " ++ bracketedCells phases ++ ": no output"

namespace Amplifier

/-- The signal of a network that has been run, or why there is none. -/
def signal (phases : List Cell) (nw : Network) : Network.Outcome → Except AmplifierError Cell
  | (_, some e) => .error (.run phases e)
  | (rig, none) =>
    match nw.result? rig with
    | some v => .ok v
    | none => .error (.noOutput phases)

/-- The signal of an amplifier with the given phases. The outer result is
`none` if `fuel` is not enough. -/
def amplify (fuel : Nat) (memory : Memory) (phases : List Cell) (feedback : Bool)
    (settings : List NetworkSetting) : Option (Except AmplifierError Cell) :=
  match Network.build .empty memory phases feedback settings with
  | .error e => some (.error (.build e))
  | .ok (rig, nw) =>
    match nw.run fuel (nw.seed rig 0) with
    | none => none
    | some (nw, outcome) => some (signal phases nw outcome)

/-! ## Orders of the phases -/

/-- The list with the entries at two positions exchanged. -/
def exchange (v : List Cell) (i j : Nat) : List Cell :=
  match v[i]?, v[j]? with
  | some x, some y => (v.set i y).set j x
  | _, _ => v

@[simp]
theorem length_exchange (v : List Cell) (i j : Nat) : (exchange v i j).length = v.length := by
  unfold exchange
  split
  · rw [List.length_set, List.length_set]
  · rfl

/-- The position exchanged with position `k` after pass number `c` over the
first `k` entries. -/
def partner (k c : Nat) : Nat :=
  if k % 2 = 0 then 0 else c

/-- A walk through the orders of a list: the list as it stands, the exchanges at
each place since the place was last cleared, the place that is looked at, and
the orders found. -/
structure Walk where
  values : List Cell
  counts : List Nat
  place : Nat
  orders : Array (List Cell)
  counted : counts.length = values.length

namespace Walk

/-- The walk that has found the list itself. -/
def start (values : List Cell) : Walk :=
  ⟨values, List.replicate values.length 0, 0, #[values], List.length_replicate⟩

/-- The exchanges at the place that is looked at. -/
def count (w : Walk) : Nat :=
  w.counts.getD w.place 0

/-- One more exchange, which gives a new order. The walk goes back to the first
place. -/
def advance (w : Walk) : Walk :=
  let values := exchange w.values (partner w.place w.count) w.place
  { values
    counts := w.counts.set w.place (w.count + 1)
    place := 0
    orders := w.orders.push values
    counted := by rw [List.length_set, length_exchange]; exact w.counted }

/-- The place is cleared, and the walk goes on to the next one. -/
def clear (w : Walk) : Walk :=
  { w with
    counts := w.counts.set w.place 0
    place := w.place + 1
    counted := by rw [List.length_set]; exact w.counted }

/-- One turn of a walk. A place is exchanged as often as there are places before
it. -/
def turn (w : Walk) : Walk :=
  if w.count < w.place then w.advance else w.clear

@[simp] theorem length_turn (w : Walk) : w.turn.values.length = w.values.length := by
  unfold turn
  split
  · exact length_exchange _ _ _
  · rfl

/-- The turns from the first place to place `k`, if the places before `k` are
clear. -/
def lap : Nat → Nat
  | 0 => 0
  | k + 1 => lap k + k * (lap k + 1) + 1

/-- A bound on the turns of a walk before it comes to place `k`. -/
def ahead (w : Walk) : Nat → Nat
  | 0 => 0
  | k + 1 => if k < w.place then 0 else w.ahead k + (k - w.counts.getD k 0) * (lap k + 1) + 1

theorem ahead_le_lap (w : Walk) (k : Nat) : w.ahead k ≤ lap k := by
  induction k with
  | zero => exact Nat.le_refl 0
  | succ k ih =>
    rw [ahead, lap]
    split
    · exact Nat.zero_le _
    · have hturns : (k - w.counts.getD k 0) * (lap k + 1) ≤ k * (lap k + 1) :=
        Nat.mul_le_mul_right _ (Nat.sub_le _ _)
      omega

theorem ahead_of_le {w : Walk} {k : Nat} (h : k ≤ w.place) : w.ahead k = 0 := by
  cases k with
  | zero => rfl
  | succ k => exact if_pos h

/-- A walk that is nearer to the next place than another one, with the same
counts from there on, is nearer to all places after it. -/
theorem ahead_lt_of_succ {w w' : Walk} {k : Nat} (hk : w.place < k)
    (hplace : w'.place ≤ w.place + 1)
    (hcounts : ∀ j, w.place < j → w'.counts.getD j 0 = w.counts.getD j 0)
    (h : w'.ahead (w.place + 1) < w.ahead (w.place + 1)) : w'.ahead k < w.ahead k := by
  induction hk with
  | refl => exact h
  | @step k hk ih =>
    have hk : w.place + 1 ≤ k := hk
    rw [ahead, ahead, if_neg (by omega), if_neg (by omega), hcounts k hk]
    omega

theorem ahead_succ_place (w : Walk) :
    w.ahead (w.place + 1) = (w.place - w.count) * (lap w.place + 1) + 1 := by
  rw [ahead, if_neg (Nat.lt_irrefl _), ahead_of_le (Nat.le_refl _), Nat.zero_add]
  rfl

theorem getD_set_of_lt (counts : List Nat) (c : Nat) {i j : Nat} (h : i < j) :
    (counts.set i c).getD j 0 = counts.getD j 0 := by
  rw [List.getD_eq_getElem?_getD, List.getElem?_set_ne (Nat.ne_of_lt h), List.getD_eq_getElem?_getD]

theorem getD_set_self {counts : List Nat} {i : Nat} (c : Nat) (h : i < counts.length) :
    (counts.set i c).getD i 0 = c := by
  rw [List.getD_eq_getElem?_getD, List.getElem?_set_self h]
  rfl

/-- A turn brings a walk nearer to all places after the one that it is at. -/
theorem ahead_turn_lt {w : Walk} {k : Nat} (hk : w.place < k) (hw : w.place < w.values.length) :
    w.turn.ahead k < w.ahead k := by
  unfold turn
  split
  case isTrue hcount =>
    apply ahead_lt_of_succ hk (Nat.zero_le _)
    · exact fun j hj => getD_set_of_lt _ _ hj
    · -- the new exchange makes up for going back to the first place
      have hback := w.advance.ahead_le_lap w.place
      have hcounts : w.advance.counts.getD w.place 0 = w.count + 1 :=
        getD_set_self _ (by rw [w.counted]; exact hw)
      have hsplit : w.place - w.count = w.place - (w.count + 1) + 1 := by omega
      have hfirst : ¬ w.place < w.advance.place := Nat.not_lt_zero w.place
      rw [ahead_succ_place, ahead, if_neg hfirst, hcounts, hsplit, Nat.succ_mul]
      omega
  case isFalse =>
    apply ahead_lt_of_succ hk (Nat.le_refl _)
    · exact fun j hj => getD_set_of_lt _ _ hj
    · have hnext : w.clear.ahead (w.place + 1) = 0 := ahead_of_le (Nat.le_refl _)
      rw [hnext, ahead_succ_place]
      exact Nat.succ_pos _

/-- The walk at its end. -/
def run (w : Walk) : Walk :=
  if w.place < w.values.length then w.turn.run else w
termination_by w.ahead w.values.length
decreasing_by
  rw [length_turn]
  exact ahead_turn_lt (by assumption) (by assumption)

end Walk

/-- All orders of a list, starting with the list itself. -/
def permutations (values : List Cell) : List (List Cell) :=
  (Walk.start values).run.orders.toList

/-- Tries phase orders and keeps the first with the highest signal. -/
def searchFrom (fuel : Nat) (memory : Memory) (feedback : Bool) (settings : List NetworkSetting) :
    Option (List Cell × Cell) → List (List Cell) →
      Option (Except AmplifierError (Option (List Cell × Cell)))
  | best, [] => some (.ok best)
  | best, phases :: rest =>
    match amplify fuel memory phases feedback settings with
    | none => none
    | some (.error e) => some (.error e)
    | some (.ok v) =>
      match best with
      | none => searchFrom fuel memory feedback settings (some (phases, v)) rest
      | some (phases', v') =>
        searchFrom fuel memory feedback settings
          (if v' < v then some (phases, v) else some (phases', v')) rest

/-- The phase order with the highest signal, and the signal. -/
def bestPhases (fuel : Nat) (memory : Memory) (values : List Cell) (feedback : Bool)
    (settings : List NetworkSetting) : Option (Except AmplifierError (List Cell × Cell)) :=
  if values.isEmpty then some (.error .noValues)
  else
    match searchFrom fuel memory feedback settings none (permutations values) with
    | none => none
    | some (.error e) => some (.error e)
    | some (.ok none) => some (.error .noValues)
    | some (.ok (some best)) => some (.ok best)

end Amplifier

end CellMachine
