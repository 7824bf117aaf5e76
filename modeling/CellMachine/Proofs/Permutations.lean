import CellMachine.Proofs.Arrangements
import Mathlib.Logic.Relation

/-!
# All orders of a list

A walk goes back to the first place after each exchange. If it is at the first place and the
places before `k` are clear, it comes to place `k` with the counts it started with, and on the
way it finds what `Amplifier.arrangements k` has after the list itself (`Walk.exists_swept`).
The induction is on `k`: between two visits of place `k` the walk does for the places before `k`
what it does from the start, and the exchange at a visit opens the next block.

The main statement is `Amplifier.permutations_exact`.
-/

set_option autoImplicit false

namespace CellMachine.Amplifier

open Relation (ReflTransGen)

namespace Walk

variable {k : Nat} {w w' : Walk}

/-- A turn of a walk that is not at its end. -/
def Turns (w w' : Walk) : Prop :=
  w.place < w.values.length ∧ w.turn = w'

/-! ## Runs -/

theorem run_of_lt (h : w.place < w.values.length) : w.run = w.turn.run := by
  rw [run, if_pos h]

theorem run_of_le (h : w.values.length ≤ w.place) : w.run = w := by
  rw [run, if_neg (Nat.not_lt.2 h)]

theorem run_eq_of_turns (h : ReflTransGen Turns w w') : w.run = w'.run := by
  induction h with
  | refl => rfl
  | tail _ hturn ih =>
    obtain ⟨hlt, rfl⟩ := hturn
    rw [ih, run_of_lt hlt]

theorem length_of_turns (h : ReflTransGen Turns w w') : w'.values.length = w.values.length := by
  induction h with
  | refl => rfl
  | tail _ hturn ih =>
    obtain ⟨-, rfl⟩ := hturn
    rw [length_turn, ih]

/-! ## Sweeps -/

/-- The walk `w'` is at place `k`, and on the way from `w` the first `k` values have gone through
all their orders. -/
structure Swept (k : Nat) (w w' : Walk) : Prop where
  turns : ReflTransGen Turns w w'
  place : w'.place = k
  counts : w'.counts = w.counts
  values : (arrangements k w.values).getLast? = some w'.values
  orders : w'.orders.toList = w.orders.toList ++ (arrangements k w.values).tail

/-- The walk `w'` is at place `k` with `c` exchanges made there since `w`, and the first `k` values
have gone through all their orders before the first exchange and after each. -/
structure Visits (k c : Nat) (w w' : Walk) : Prop where
  turns : ReflTransGen Turns w w'
  place : w'.place = k
  counts : w'.counts = w.counts.set k c
  values : (arrangements k (opening k w.values c)).getLast? = some w'.values
  orders : w'.orders.toList = w.orders.toList ++
    ((List.range (c + 1)).flatMap fun c => arrangements k (opening k w.values c)).tail

/-- The places before `k` are clear. -/
def Clear (k : Nat) (w : Walk) : Prop :=
  ∀ j < k, w.counts[j]? = some 0

theorem set_zero_of_clear (h : w.counts[k]? = some 0) : w.counts.set k 0 = w.counts := by
  obtain ⟨hlt, hk⟩ := List.getElem?_eq_some_iff.1 h
  rw [← hk, List.set_getElem_self]

theorem Swept.visits (h : Swept k w w') (hclear : w.counts[k]? = some 0) : Visits k 0 w w' where
  turns := h.turns
  place := h.place
  counts := by rw [h.counts, set_zero_of_clear hclear]
  values := h.values
  orders := by
    rw [h.orders, List.range_one, List.flatMap_singleton]
    rfl

section Visits

variable {c : Nat} (h : Visits k c w w') (hk : k < w.values.length)

include h hk

theorem Visits.lt : w'.place < w'.values.length := by
  rw [h.place, length_of_turns h.turns]
  exact hk

theorem Visits.count : w'.count = c := by
  rw [Walk.count, h.place, h.counts]
  exact getD_set_self c (by rw [w.counted]; exact hk)

/-- The exchange at a visit opens the next block. -/
theorem Visits.values_advance : w'.advance.values = opening k w.values (c + 1) := by
  rw [opening, List.getLastD_eq_getLast?, h.values, ← h.place, ← h.count hk]
  rfl

/-- After a visit with an exchange there is a next one, if the walk can sweep the places
before it. -/
theorem Visits.next (hc : c < k) (hclear : Clear (k + 1) w)
    (hsweep : ∀ u : Walk, u.place = 0 → k ≤ u.values.length → Clear k u → ∃ u', Swept k u u') :
    ∃ w'', Visits k (c + 1) w w'' := by
  have hturn : w'.turn = w'.advance := if_pos (by rw [h.count hk, h.place]; exact hc)
  have hcounts : w'.advance.counts = w.counts.set k (c + 1) := by
    show w'.counts.set w'.place (w'.count + 1) = _
    rw [h.counts, h.place, h.count hk, List.set_set]
  obtain ⟨w'', hswept⟩ := hsweep w'.advance rfl
    (by rw [← hturn, length_turn, length_of_turns h.turns]; exact Nat.le_of_lt hk)
    (by
      intro j hj
      rw [hcounts, List.getElem?_set_ne (Nat.ne_of_gt hj)]
      exact hclear j (Nat.lt_succ_of_lt hj))
  refine ⟨w'', ?_, hswept.place, hswept.counts.trans hcounts, ?_, ?_⟩
  · exact (h.turns.tail ⟨h.lt hk, hturn⟩).trans hswept.turns
  · rw [← h.values_advance hk]
    exact hswept.values
  · have horders : w'.advance.orders.toList = w'.orders.toList ++ [w'.advance.values] :=
      Array.toList_push
    -- the exchange gives the first list of the block, and the sweep the others
    calc w''.orders.toList
        = w'.orders.toList ++ (w'.advance.values :: (arrangements k w'.advance.values).tail) := by
          rw [hswept.orders, horders, List.append_assoc, List.singleton_append]
      _ = w'.orders.toList ++ arrangements k (opening k w.values (c + 1)) := by
          rw [← arrangements_eq_cons, h.values_advance hk]
      _ = _ := by rw [h.orders, tail_blocks_succ, List.append_assoc]

end Visits

theorem Visits.swept (h : Visits k k w w') (hk : k < w.values.length)
    (hclear : w.counts[k]? = some 0) : Swept (k + 1) w w'.clear where
  turns := by
    have hturn : w'.turn = w'.clear := if_neg (by rw [h.count hk, h.place]; exact Nat.lt_irrefl k)
    exact h.turns.tail ⟨h.lt hk, hturn⟩
  place := congrArg (· + 1) h.place
  counts := by
    show w'.counts.set w'.place 0 = w.counts
    rw [h.counts, h.place, List.set_set, set_zero_of_clear hclear]
  values := by
    rw [arrangements_succ, getLast?_blocks (arrangements_ne_nil k)]
    exact h.values
  orders := by
    rw [arrangements_succ]
    exact h.orders

/-- A walk at the first place comes to place `k`, if the places before it are clear. -/
theorem exists_swept (k : Nat) (w : Walk) (hplace : w.place = 0) (hk : k ≤ w.values.length)
    (hclear : Clear k w) : ∃ w', Swept k w w' := by
  induction k generalizing w with
  | zero => exact ⟨w, .refl, hplace, rfl, rfl, (List.append_nil _).symm⟩
  | succ k ih =>
    have hlast := hclear k (Nat.lt_succ_self k)
    -- the visits of place `k`, one after the other
    have hvisits : ∀ c ≤ k, ∃ w', Visits k c w w' := by
      intro c hc
      induction c with
      | zero =>
        obtain ⟨w', hswept⟩ := ih w hplace (Nat.le_of_lt hk) fun j hj =>
          hclear j (Nat.lt_succ_of_lt hj)
        exact ⟨w', hswept.visits hlast⟩
      | succ c ihc =>
        obtain ⟨w', hvisit⟩ := ihc (Nat.le_of_lt hc)
        exact hvisit.next hk hc hclear ih
    obtain ⟨w', hvisit⟩ := hvisits k (Nat.le_refl k)
    exact ⟨w'.clear, hvisit.swept hk hlast⟩

end Walk

/-- The walk through the orders of a list comes to its end, where it has found the arrangements of
all entries. -/
theorem exists_walk (values : List Cell) :
    ∃ w, ReflTransGen Walk.Turns (.start values) w ∧ w.place = values.length ∧
      w.orders.toList = arrangements values.length values := by
  have hclear : Walk.Clear values.length (.start values) := fun _ hj =>
    List.getElem?_replicate_of_lt hj
  obtain ⟨w, hswept⟩ := Walk.exists_swept values.length (.start values) rfl (Nat.le_refl _) hclear
  refine ⟨w, hswept.turns, hswept.place, ?_⟩
  rw [hswept.orders]
  exact (arrangements_eq_cons _ _).symm

theorem permutations_eq (values : List Cell) :
    permutations values = arrangements values.length values := by
  obtain ⟨w, hturns, hplace, horders⟩ := exists_walk values
  have hend : w.values.length ≤ w.place := by
    rw [hplace, Walk.length_of_turns hturns]
    exact Nat.le_refl _
  rw [permutations, Walk.run_eq_of_turns hturns, Walk.run_of_le hend, horders]

theorem mem_permutations {values l : List Cell} : l ∈ permutations values ↔ l.Perm values := by
  rw [permutations_eq, mem_arrangements (Nat.le_refl _), within_length]

theorem permutations_ne_nil (values : List Cell) : permutations values ≠ [] := by
  rw [permutations_eq]
  exact arrangements_ne_nil _ values

/-- The walk through the orders of a list comes to its end after finitely many turns. It has then
found all orders of the list, and nothing else: `n!` lists for a list of `n` values, the list itself
first. No list comes twice if the values are pairwise different. -/
theorem permutations_exact (values : List Cell) :
    (∃ w, ReflTransGen Walk.Turns (.start values) w ∧ w.place = values.length ∧
      w.orders.toList = permutations values) ∧
      (permutations values).length = values.length.factorial ∧
      (permutations values).head? = some values ∧
      (∀ l, l ∈ permutations values ↔ l.Perm values) ∧
      (values.Nodup → (permutations values).Nodup) := by
  refine ⟨?_, ?_, ?_, fun l => mem_permutations, ?_⟩
  · rw [permutations_eq]
    exact exists_walk values
  · rw [permutations_eq]
    exact length_arrangements _ values
  · rw [permutations_eq]
    exact head?_arrangements _ values
  · intro hvalues
    rw [permutations_eq]
    exact nodup_arrangements (Nat.le_refl _) hvalues

/-- The orders of four values, an even number. -/
theorem permutations_four :
    ([5, 6, 7, 8] : List Cell).Nodup ∧ (permutations [5, 6, 7, 8]).length = 24 ∧
      (permutations [5, 6, 7, 8]).getLast? = some [6, 7, 8, 5] ∧
      [8, 7, 6, 5] ∈ permutations [5, 6, 7, 8] ∧ (permutations [5, 6, 7, 8]).Nodup := by
  obtain ⟨-, hlength, -, hmem, hnodup⟩ := permutations_exact [5, 6, 7, 8]
  have hdistinct : ([5, 6, 7, 8] : List Cell).Nodup := by decide
  refine ⟨hdistinct, hlength, ?_, (hmem _).2 (by decide), hnodup hdistinct⟩
  rw [permutations_eq]
  decide +kernel

end CellMachine.Amplifier
