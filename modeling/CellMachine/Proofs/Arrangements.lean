import CellMachine.Amplifier
import Mathlib.Data.Nat.Factorial.Basic
import Mathlib.GroupTheory.Perm.List

/-!
# The orders of the first entries of a list

`Amplifier.arrangements (k + 1) v` goes through `k + 1` blocks, in each of which the first
`k` entries go through all their orders; between two blocks an entry is exchanged with the
one at position `k`. This gives all orders if every entry comes to position `k` once, and
for this it must be known where a block leaves the entries.

`Amplifier.pass k` says it, as a permutation of the positions. If `k` is odd, the first and
the last of the `k` entries have changed places; if `k` is even, the positions form a single
cycle (`Amplifier.pass_shape`). Each case follows from the other one, and in both every
position is once the source of what stands at position `k` (`Amplifier.visits`).

So `Amplifier.arrangements k v` has all lists that differ from `v` by the order of the first
`k` entries (`Amplifier.mem_arrangements`), and no list twice if the entries are pairwise
different (`Amplifier.nodup_arrangements`).
-/

set_option autoImplicit false

namespace CellMachine.Amplifier

open Equiv (swap)

/-- The orders reached from `v` by permuting its first `k` entries, in the order
in which single exchanges reach them. Each of the `k` entries passes through the
last place while the entries before it go through all their orders. -/
def arrangements : Nat → List Cell → List (List Cell)
  | 0, v => [v]
  | k + 1, v =>
    (List.range k).foldl
      (fun seen c => seen ++ arrangements k (exchange (seen.getLastD v) (partner k c) k))
      (arrangements k v)

/-! ## Positions -/

/-- Where the entries come from at the start of a block, if the blocks before it, over `k`
entries each, move them as `p` says. -/
def stage (p : Equiv.Perm Nat) (k : Nat) : Nat → Equiv.Perm Nat
  | 0 => 1
  | c + 1 => stage p k c * p * swap (partner k c) k

/-- Where the entries come from after the first `k` of them have gone through all their
orders. -/
def pass : Nat → Equiv.Perm Nat
  | 0 => 1
  | k + 1 => stage (pass k) k k * pass k

section Odd

variable {k : Nat}

/-- The positions that a permutation gives to `0`, …, `c - 1`, the last one first, and
then `k`. -/
def trail (σ : Equiv.Perm Nat) (k c : Nat) : List Nat :=
  ((List.range c).map σ).reverse ++ [k]

theorem trail_succ (σ : Equiv.Perm Nat) (k c : Nat) :
    trail σ k (c + 1) = σ c :: trail σ k c := by
  simp [trail, List.range_succ]

theorem nodup_trail {σ : Equiv.Perm Nat} (hσ : σ k = k) {c : Nat} (hc : c ≤ k) :
    (trail σ k c).Nodup := by
  induction c with
  | zero => simp [trail]
  | succ c ih =>
    rw [trail_succ, List.nodup_cons]
    refine ⟨?_, ih (by omega)⟩
    intro hmem
    rcases List.mem_append.1 hmem with h | h
    · obtain ⟨i, hi, he⟩ := List.mem_map.1 (List.mem_reverse.1 h)
      have hic : i = c := σ.injective he
      exact absurd (List.mem_range.1 hi) (by omega)
    · have hck : c = k := σ.injective ((List.mem_singleton.1 h).trans hσ.symm)
      omega

/-- One more exchange with position `k` puts one more position into the cycle. -/
theorem formPerm_trail_mul {σ : Equiv.Perm Nat} (hσ : σ k = k) {c : Nat} (hc : c < k) :
    (trail σ k c).formPerm * swap (σ c) k = (trail σ k (c + 1)).formPerm := by
  have hrot : trail σ k (c + 1) ~r ((List.range c).map σ).reverse ++ [k, σ c] := by
    rw [trail_succ]
    have h : [σ c] ++ trail σ k c ~r trail σ k c ++ [σ c] := List.isRotated_append
    simpa [trail] using h
  rw [List.formPerm_eq_of_isRotated (nodup_trail hσ hc) hrot, List.formPerm_append_pair,
    Equiv.swap_comm]
  rfl

theorem swap_pow_even (i j n : Nat) : (swap i j) ^ (2 * n) = 1 := by
  rw [pow_mul, sq, Equiv.swap_mul_self, one_pow]

/-- Position `c` is moved alike by `c + 1` exchanges of the first and the last of an odd
number of positions and by a single one: if `c` is odd, it is moved by neither. -/
theorem swap_pow_apply (hk : k % 2 = 1) (c : Nat) :
    (swap 0 (k - 1) ^ (c + 1)) c = swap 0 (k - 1) c := by
  by_cases hc : c % 2 = 0
  · obtain ⟨n, rfl⟩ : ∃ n, c = 2 * n := ⟨c / 2, by omega⟩
    rw [pow_succ, swap_pow_even, one_mul]
  · have hfix : swap 0 (k - 1) c = c :=
      Equiv.swap_apply_of_ne_of_ne (by omega) (by omega)
    rw [Equiv.Perm.pow_apply_eq_self_of_apply_eq_self hfix, hfix]

theorem swap_apply_centre (hk : k % 2 = 1) : swap 0 (k - 1) k = k :=
  Equiv.swap_apply_of_ne_of_ne (by omega) (by omega)

/-- Over an odd number of entries, blocks that exchange the first entry and the last one
and the exchanges between them form a cycle that grows by one position with each block. -/
theorem stage_odd (hk : k % 2 = 1) {c : Nat} (hc : c ≤ k) :
    stage (swap 0 (k - 1)) k c =
      (trail (swap 0 (k - 1)) k c).formPerm * swap 0 (k - 1) ^ c := by
  induction c with
  | zero => rfl
  | succ c ih =>
    have hcentre := swap_apply_centre hk
    have hpartner : partner k c = c := if_neg (by omega)
    calc stage (swap 0 (k - 1)) k (c + 1)
        = (trail (swap 0 (k - 1)) k c).formPerm * swap 0 (k - 1) ^ (c + 1) * swap c k := by
          rw [stage, ih (by omega), hpartner, pow_succ, ← mul_assoc]
      _ = (trail (swap 0 (k - 1)) k c).formPerm * swap (swap 0 (k - 1) c) k *
            swap 0 (k - 1) ^ (c + 1) := by
          -- the exchange moves past the blocks before it
          rw [mul_assoc, Equiv.mul_swap_eq_swap_mul, swap_pow_apply hk,
            Equiv.Perm.pow_apply_eq_self_of_apply_eq_self hcentre, mul_assoc]
      _ = (trail (swap 0 (k - 1)) k (c + 1)).formPerm * swap 0 (k - 1) ^ (c + 1) := by
          rw [formPerm_trail_mul hcentre (by omega)]

theorem stage_odd_apply (hk : k % 2 = 1) {c : Nat} (hc : c + 1 ≤ k) :
    stage (swap 0 (k - 1)) k (c + 1) k = swap 0 (k - 1) c := by
  rw [stage_odd hk hc, Equiv.Perm.mul_apply,
    Equiv.Perm.pow_apply_eq_self_of_apply_eq_self (swap_apply_centre hk), trail_succ, trail]
  exact List.formPerm_cons_concat_apply_last _ _ _

theorem map_swap_perm (hk : k % 2 = 1) :
    ((List.range k).map (swap 0 (k - 1))).Perm (List.range k) := by
  rw [List.perm_ext_iff_of_nodup ((List.nodup_map_iff (swap 0 (k - 1)).injective).2
    List.nodup_range) List.nodup_range]
  intro i
  have hlt : ∀ j, swap 0 (k - 1) j < k ↔ j < k := by
    intro j
    rw [Equiv.swap_apply_def]
    split_ifs <;> omega
  constructor
  · intro hi
    obtain ⟨j, hj, rfl⟩ := List.mem_map.1 hi
    exact List.mem_range.2 ((hlt j).2 (List.mem_range.1 hj))
  · intro hi
    refine List.mem_map.2 ⟨swap 0 (k - 1) i, ?_, Equiv.swap_apply_self 0 (k - 1) i⟩
    exact List.mem_range.2 ((hlt i).2 (List.mem_range.1 hi))

/-- Every position comes to position `k` once. -/
theorem visits_odd (hk : k % 2 = 1) :
    ((List.range (k + 1)).map fun c => stage (swap 0 (k - 1)) k c k).Perm (List.range (k + 1)) := by
  have hmap : ((List.range (k + 1)).map fun c => stage (swap 0 (k - 1)) k c k) =
      k :: (List.range k).map (swap 0 (k - 1)) := by
    rw [List.range_succ_eq_map, List.map_cons, List.map_map]
    congr 1
    apply List.map_congr_left
    intro c hc
    exact stage_odd_apply hk (List.mem_range.1 hc)
  rw [hmap, List.range_succ]
  exact ((map_swap_perm hk).cons k).trans (List.perm_append_singleton k (List.range k)).symm

/-- After the last of an even number of blocks the positions form a cycle. -/
theorem cycle_of_odd (hk : k % 2 = 1) :
    ∃ l, (l ++ [0]).Perm (List.range (k + 1)) ∧
      stage (swap 0 (k - 1)) k k * swap 0 (k - 1) = (l ++ [0]).formPerm := by
  obtain ⟨n, rfl⟩ : ∃ n, k = n + 1 := ⟨k - 1, by omega⟩
  have hcentre := swap_apply_centre hk
  have hlast : trail (swap 0 n) (n + 1) (n + 1) = 0 :: trail (swap 0 n) (n + 1) n := by
    rw [trail_succ, Equiv.swap_apply_right]
  refine ⟨trail (swap 0 n) (n + 1) n, ?_, ?_⟩
  · have hperm := (List.reverse_perm ((List.range (n + 1)).map (swap 0 n))).trans
      (map_swap_perm hk)
    have htrail : (trail (swap 0 n) (n + 1) (n + 1)).Perm (List.range (n + 1 + 1)) := by
      rw [List.range_succ]
      exact hperm.append_right [n + 1]
    rw [hlast] at htrail
    exact (List.perm_append_singleton 0 _).trans htrail
  · obtain ⟨h, heven⟩ : ∃ h, n + 1 + 1 = 2 * h := ⟨(n + 1 + 1) / 2, by omega⟩
    have hnodup := nodup_trail hcentre (Nat.le_refl (n + 1))
    rw [stage_odd hk (Nat.le_refl _), mul_assoc, ← pow_succ, heven, swap_pow_even, mul_one]
    apply List.formPerm_eq_of_isRotated hnodup
    rw [Nat.add_sub_cancel, hlast]
    exact List.isRotated_append (l := [0])

end Odd

section Even

variable {k : Nat} {l : List Nat}

/-- Over an even number of entries, all blocks with the exchanges after them are alike. -/
theorem stage_even (hk : k % 2 = 0) (p : Equiv.Perm Nat) (c : Nat) :
    stage p k c = (p * swap 0 k) ^ c := by
  induction c with
  | zero => rfl
  | succ c ih =>
    have hpartner : partner k c = 0 := if_pos hk
    rw [stage, ih, hpartner, pow_succ, mul_assoc]

theorem nodup_of_perm_range (hl : (l ++ [0]).Perm (List.range k)) : (k :: (l ++ [0])).Nodup := by
  rw [List.nodup_cons]
  refine ⟨?_, hl.nodup_iff.2 List.nodup_range⟩
  intro hmem
  exact absurd (List.mem_range.1 (hl.mem_iff.1 hmem)) (Nat.lt_irrefl k)

theorem length_of_perm_range (hl : (l ++ [0]).Perm (List.range k)) :
    (k :: (l ++ [0])).length = k + 1 := by
  rw [List.length_cons, hl.length_eq, List.length_range]

/-- The exchange with position `k` puts it into the cycle. -/
theorem formPerm_mul_swap (hl : (l ++ [0]).Perm (List.range k)) :
    (l ++ [0]).formPerm * swap 0 k = (k :: (l ++ [0])).formPerm := by
  have hrot : k :: (l ++ [0]) ~r l ++ [0, k] := by
    have h : [k] ++ (l ++ [0]) ~r l ++ [0] ++ [k] := List.isRotated_append
    simpa using h
  rw [List.formPerm_eq_of_isRotated (nodup_of_perm_range hl) hrot, List.formPerm_append_pair]

theorem visits_even (hk : k % 2 = 0) (hl : (l ++ [0]).Perm (List.range k)) :
    ((List.range (k + 1)).map fun c => stage (l ++ [0]).formPerm k c k).Perm
      (List.range (k + 1)) := by
  have hmap : ((List.range (k + 1)).map fun c => stage (l ++ [0]).formPerm k c k) =
      k :: (l ++ [0]) := by
    apply List.ext_getElem
    · rw [List.length_map, List.length_range, length_of_perm_range hl]
    · intro c hc hc'
      rw [List.getElem_map, List.getElem_range, stage_even hk, formPerm_mul_swap hl,
        List.formPerm_pow_apply_head _ _ (nodup_of_perm_range hl)]
      congr 1
      exact Nat.mod_eq_of_lt hc'
  rw [hmap, List.range_succ]
  exact (hl.cons k).trans (List.perm_append_singleton k (List.range k)).symm

/-- After the last of an odd number of blocks the cycle is closed, but for the last
exchange. -/
theorem swap_of_even (hk : k % 2 = 0) (hl : (l ++ [0]).Perm (List.range k)) :
    stage (l ++ [0]).formPerm k k * (l ++ [0]).formPerm = swap 0 k := by
  have hone : stage (l ++ [0]).formPerm k k * (l ++ [0]).formPerm * swap 0 k = 1 := by
    have hpow := List.formPerm_pow_length_eq_one_of_nodup _ (nodup_of_perm_range hl)
    rw [length_of_perm_range hl, ← formPerm_mul_swap hl, pow_succ, ← stage_even hk,
      ← mul_assoc] at hpow
    exact hpow
  rw [eq_inv_of_mul_eq_one_left hone, Equiv.swap_inv]

end Even

/-- Where a pass leaves the entries: the first and the last of an odd number of entries
have changed places, and an even number of entries has moved along a cycle. -/
theorem pass_shape (k : Nat) :
    (k % 2 = 1 → pass k = swap 0 (k - 1)) ∧
      (k % 2 = 0 → 0 < k → ∃ l, (l ++ [0]).Perm (List.range k) ∧ pass k = (l ++ [0]).formPerm) := by
  induction k with
  | zero => exact ⟨by omega, by omega⟩
  | succ k ih =>
    obtain ⟨hodd, heven⟩ := ih
    constructor
    · intro hk
      rw [Nat.add_sub_cancel]
      by_cases h0 : k = 0
      · subst h0
        exact (Equiv.swap_self 0).symm
      · obtain ⟨l, hl, hpass⟩ := heven (by omega) (by omega)
        rw [pass, hpass]
        exact swap_of_even (by omega) hl
    · intro hk _
      rw [pass, hodd (by omega)]
      exact cycle_of_odd (by omega)

/-- In the blocks of a pass, every position is once the source of what stands at
position `k`. -/
theorem visits (k : Nat) :
    ((List.range (k + 1)).map fun c => stage (pass k) k c k).Perm (List.range (k + 1)) := by
  obtain ⟨hodd, heven⟩ := pass_shape k
  by_cases hk : k % 2 = 1
  · rw [hodd hk]
    exact visits_odd hk
  · by_cases h0 : k = 0
    · subst h0
      exact List.Perm.refl _
    · obtain ⟨l, hl, hpass⟩ := heven (by omega) (by omega)
      rw [hpass]
      exact visits_even (by omega) hl

/-! ## Lists -/

/-- At each position, `w` has the entry that `v` has where the position comes from. -/
def Reads (σ : Equiv.Perm Nat) (v w : List Cell) : Prop :=
  ∀ i, w[i]? = v[σ i]?

theorem Reads.trans {σ τ : Equiv.Perm Nat} {u v w : List Cell} (h : Reads σ u v)
    (h' : Reads τ v w) : Reads (σ * τ) u w := by
  intro i
  rw [h' i, h (τ i), Equiv.Perm.mul_apply]

/-- `w` is `v` with its first `k` entries rearranged. -/
structure Within (k : Nat) (v w : List Cell) : Prop where
  front : (w.take k).Perm (v.take k)
  back : w.drop k = v.drop k

section Within

variable {k : Nat} {u v w : List Cell}

theorem Within.refl (k : Nat) (v : List Cell) : Within k v v :=
  ⟨.refl _, rfl⟩

theorem Within.symm (h : Within k v w) : Within k w v :=
  ⟨h.front.symm, h.back.symm⟩

theorem Within.trans (h : Within k u v) (h' : Within k v w) : Within k u w :=
  ⟨h'.front.trans h.front, h'.back.trans h.back⟩

theorem Within.perm (h : Within k v w) : w.Perm v := by
  rw [← List.take_append_drop k w, ← List.take_append_drop k v, h.back]
  exact h.front.append_right _

theorem within_length : Within v.length v w ↔ w.Perm v := by
  constructor
  · exact Within.perm
  · intro h
    refine ⟨?_, ?_⟩
    · rw [List.take_length, ← h.length_eq, List.take_length]
      exact h
    · rw [List.drop_length, ← h.length_eq, List.drop_length]

theorem Within.getElem?_eq (h : Within k v w) : w[k]? = v[k]? := by
  rw [← List.head?_drop, h.back, List.head?_drop]

theorem Within.succ (h : Within k v w) : Within (k + 1) v w := by
  refine ⟨?_, ?_⟩
  · rw [List.take_add_one, List.take_add_one, h.getElem?_eq]
    exact h.front.append_right _
  · rw [← List.tail_drop, h.back, List.tail_drop]

/-- Lists that agree at position `k` differ by no more than the entries before it. -/
theorem Within.of_succ (h : Within (k + 1) v w) (hk : k < v.length) (he : w[k]? = v[k]?) :
    Within k v w := by
  refine ⟨?_, ?_⟩
  · have hfront := h.front
    rw [List.take_add_one, List.take_add_one, he] at hfront
    exact (List.perm_append_right_iff _).1 hfront
  · have hw : k < w.length := by rw [h.perm.length_eq]; exact hk
    rw [List.getElem?_eq_getElem hw, List.getElem?_eq_getElem hk] at he
    rw [List.drop_eq_getElem_cons hw, List.drop_eq_getElem_cons hk, Option.some.inj he, h.back]

theorem exchange_eq {i j : Nat} (hi : i < v.length) (hj : j < v.length) :
    exchange v i j = (v.set i v[j]).set j v[i] := by
  simp only [exchange, List.getElem?_eq_getElem hi, List.getElem?_eq_getElem hj]

theorem reads_exchange {i j : Nat} (hi : i < v.length) (hj : j < v.length) :
    Reads (swap i j) v (exchange v i j) := by
  intro l
  rw [exchange_eq hi hj, Equiv.swap_apply_def]
  grind

theorem within_exchange {i : Nat} (hi : i ≤ k) (hk : k < v.length) :
    Within (k + 1) v (exchange v i k) := by
  have hi' : i < (v.take (k + 1)).length := by rw [List.length_take]; omega
  have hk' : k < (v.take (k + 1)).length := by rw [List.length_take]; omega
  rw [exchange_eq (by omega) hk]
  refine ⟨?_, ?_⟩
  · have hperm := List.set_set_perm hi' hk'
    rw [List.getElem_take, List.getElem_take] at hperm
    rw [List.take_set, List.take_set]
    exact hperm
  · rw [List.drop_set_of_lt (by omega), List.drop_set_of_lt (by omega)]

end Within

/-! ## Blocks -/

/-- The list at the start of a block of a pass over `k + 1` entries. -/
def opening (k : Nat) (v : List Cell) : Nat → List Cell
  | 0 => v
  | c + 1 => exchange ((arrangements k (opening k v c)).getLastD v) (partner k c) k

section Blocks

variable {k : Nat} {v : List Cell}

theorem blocks_succ (k : Nat) (v : List Cell) (c : Nat) :
    ((List.range (c + 1)).flatMap fun c => arrangements k (opening k v c)) =
      ((List.range c).flatMap fun c => arrangements k (opening k v c)) ++
        arrangements k (opening k v c) := by
  rw [List.range_succ, List.flatMap_append, List.flatMap_singleton]

/-- The last list of some blocks is the last one of the last block. -/
theorem getLast?_blocks (hne : ∀ w, arrangements k w ≠ []) (v : List Cell) (c : Nat) :
    ((List.range (c + 1)).flatMap fun c => arrangements k (opening k v c)).getLast? =
      (arrangements k (opening k v c)).getLast? := by
  rw [blocks_succ, List.getLast?_append, List.getLast?_eq_some_getLast (hne _)]
  rfl

theorem getLastD_blocks (hne : ∀ w, arrangements k w ≠ []) (v d : List Cell) (c : Nat) :
    ((List.range (c + 1)).flatMap fun c => arrangements k (opening k v c)).getLastD d =
      (arrangements k (opening k v c)).getLastD d := by
  rw [List.getLastD_eq_getLast?, List.getLastD_eq_getLast?, getLast?_blocks hne]

theorem foldl_blocks (hne : ∀ w, arrangements k w ≠ []) (v : List Cell) (c : Nat) :
    (List.range c).foldl
      (fun seen c => seen ++ arrangements k (exchange (seen.getLastD v) (partner k c) k))
      (arrangements k v) =
    (List.range (c + 1)).flatMap fun c => arrangements k (opening k v c) := by
  induction c with
  | zero => exact (List.append_nil _).symm
  | succ c ih =>
    calc (List.range (c + 1)).foldl
          (fun seen c => seen ++ arrangements k (exchange (seen.getLastD v) (partner k c) k))
          (arrangements k v)
        = ((List.range (c + 1)).flatMap fun c => arrangements k (opening k v c)) ++
            arrangements k (opening k v (c + 1)) := by
          rw [List.range_succ, List.foldl_append, ih, List.foldl_cons, List.foldl_nil,
            getLastD_blocks hne, ← List.range_succ]
          rfl
      _ = (List.range (c + 1 + 1)).flatMap fun c => arrangements k (opening k v c) :=
          (blocks_succ k v (c + 1)).symm

theorem head?_arrangements (k : Nat) (v : List Cell) : (arrangements k v).head? = some v := by
  induction k generalizing v with
  | zero => rfl
  | succ k ih =>
    have hne : ∀ w, arrangements k w ≠ [] := by
      intro w hnil
      have hhead := ih w
      rw [hnil] at hhead
      cases hhead
    rw [arrangements, foldl_blocks hne, List.range_succ_eq_map, List.flatMap_cons,
      List.head?_append, opening, ih]
    rfl

theorem arrangements_ne_nil (k : Nat) (v : List Cell) : arrangements k v ≠ [] := by
  intro hnil
  have hhead := head?_arrangements k v
  rw [hnil] at hhead
  cases hhead

theorem arrangements_eq_cons (k : Nat) (v : List Cell) :
    arrangements k v = v :: (arrangements k v).tail := by
  obtain ⟨rest, hrest⟩ := List.head?_eq_some_iff.1 (head?_arrangements k v)
  rw [hrest, List.tail_cons]

/-- One more block adds all its lists to those after the first. -/
theorem tail_blocks_succ (k : Nat) (v : List Cell) (c : Nat) :
    ((List.range (c + 2)).flatMap fun c => arrangements k (opening k v c)).tail =
      ((List.range (c + 1)).flatMap fun c => arrangements k (opening k v c)).tail ++
        arrangements k (opening k v (c + 1)) := by
  have hne : ((List.range (c + 1)).flatMap fun c => arrangements k (opening k v c)) ≠ [] := by
    rw [blocks_succ]
    exact List.append_ne_nil_of_right_ne_nil _ (arrangements_ne_nil k _)
  rw [blocks_succ k v (c + 1), List.tail_append_of_ne_nil hne]

theorem arrangements_succ (k : Nat) (v : List Cell) :
    arrangements (k + 1) v =
      (List.range (k + 1)).flatMap fun c => arrangements k (opening k v c) := by
  rw [arrangements]
  exact foldl_blocks (arrangements_ne_nil k) v k

theorem getLastD_mem (k : Nat) (v d : List Cell) :
    (arrangements k v).getLastD d ∈ arrangements k v := by
  have hne := arrangements_ne_nil k v
  rw [List.getLastD_eq_getLast?, List.getLast?_eq_some_getLast hne]
  exact List.getLast_mem hne

@[simp] theorem length_arrangements (k : Nat) (v : List Cell) :
    (arrangements k v).length = k.factorial := by
  induction k generalizing v with
  | zero => rfl
  | succ k ih =>
    rw [arrangements_succ, List.length_flatMap, Nat.factorial_succ]
    simp [ih]

theorem partner_le {c : Nat} (hc : c ≤ k) : partner k c ≤ k := by
  unfold partner
  split
  · exact Nat.zero_le k
  · exact hc

/-- Blocks rearrange what is before the position that is exchanged between them. -/
theorem within_opening_of_blocks (hk : k < v.length)
    (hblock : ∀ w : List Cell, k ≤ w.length → ∀ l ∈ arrangements k w, Within k w l) {c : Nat}
    (hc : c ≤ k) : Within (k + 1) v (opening k v c) := by
  induction c with
  | zero => exact Within.refl _ v
  | succ c ih =>
    have hopen := ih (by omega)
    have hlen := hopen.perm.length_eq
    have hlast := hblock _ (by omega) _ (getLastD_mem k (opening k v c) v)
    have hlen' := hlast.perm.length_eq
    exact (hopen.trans hlast.succ).trans (within_exchange (partner_le (by omega)) (by omega))

theorem within_of_mem (hk : k ≤ v.length) {l : List Cell} (h : l ∈ arrangements k v) :
    Within k v l := by
  induction k generalizing v l with
  | zero =>
    obtain rfl := List.mem_singleton.1 h
    exact Within.refl 0 l
  | succ k ih =>
    rw [arrangements_succ] at h
    obtain ⟨c, hc, hl⟩ := List.mem_flatMap.1 h
    have hopen := within_opening_of_blocks hk (fun w hw l hl => ih hw hl)
      (Nat.le_of_lt_succ (List.mem_range.1 hc))
    have hlen := hopen.perm.length_eq
    exact hopen.trans (ih (by omega) hl).succ

theorem within_opening (hk : k < v.length) {c : Nat} (hc : c ≤ k) :
    Within (k + 1) v (opening k v c) :=
  within_opening_of_blocks hk (fun _ hw _ hl => within_of_mem hw hl) hc

theorem length_opening (hk : k < v.length) {c : Nat} (hc : c ≤ k) :
    (opening k v c).length = v.length :=
  (within_opening hk hc).perm.length_eq

/-- What stands where at the start of a block. -/
theorem reads_opening_of_blocks (hk : k < v.length)
    (hblock : ∀ w d : List Cell, k ≤ w.length → Reads (pass k) w ((arrangements k w).getLastD d))
    {c : Nat} (hc : c ≤ k) : Reads (stage (pass k) k c) v (opening k v c) := by
  induction c with
  | zero =>
    intro i
    rfl
  | succ c ih =>
    have hopen := ih (by omega)
    have hlen := length_opening hk (by omega : c ≤ k)
    have hlast := hblock (opening k v c) v (by omega)
    have hlen' := (within_of_mem (by omega) (getLastD_mem k (opening k v c) v)).perm.length_eq
    have hpartner := partner_le (by omega : c ≤ k)
    exact (hopen.trans hlast).trans (reads_exchange (by omega) (by omega))

/-- What stands where after a pass. -/
theorem reads_last (hk : k ≤ v.length) (d : List Cell) :
    Reads (pass k) v ((arrangements k v).getLastD d) := by
  induction k generalizing v d with
  | zero =>
    intro i
    rfl
  | succ k ih =>
    have hopen := reads_opening_of_blocks hk (fun w d hw => ih hw d) (Nat.le_refl k)
    have hlen := length_opening hk (Nat.le_refl k)
    rw [arrangements_succ, getLastD_blocks (arrangements_ne_nil k)]
    exact hopen.trans (ih (by omega) d)

theorem getElem?_opening (hk : k < v.length) {c : Nat} (hc : c ≤ k) :
    (opening k v c)[k]? = v[stage (pass k) k c k]? :=
  reads_opening_of_blocks hk (fun _ d hw => reads_last hw d) hc k

end Blocks

/-! ## Completeness -/

theorem mem_of_within {k : Nat} {v l : List Cell} (hk : k ≤ v.length) (h : Within k v l) :
    l ∈ arrangements k v := by
  induction k generalizing v l with
  | zero => exact List.mem_singleton.2 h.back
  | succ k ih =>
    have hl : k < l.length := by rw [h.perm.length_eq]; exact hk
    -- the entry at position `k` is there at the start of some block
    have hmem : l[k] ∈ v.take (k + 1) := by
      apply h.front.mem_iff.1
      rw [List.take_add_one, List.getElem?_eq_getElem hl]
      exact List.mem_append_right _ List.mem_cons_self
    obtain ⟨i, hi, hvi⟩ := List.mem_iff_getElem.1 hmem
    rw [List.length_take] at hi
    rw [List.getElem_take] at hvi
    have hvisit := (visits k).mem_iff.2 (List.mem_range.2 (by omega : i < k + 1))
    obtain ⟨c, hc, hci⟩ := List.mem_map.1 hvisit
    have hck : c ≤ k := Nat.le_of_lt_succ (List.mem_range.1 hc)
    have hopen := within_opening hk hck
    have hlen := hopen.perm.length_eq
    have hentry : l[k]? = (opening k v c)[k]? := by
      rw [getElem?_opening hk hck, hci, List.getElem?_eq_getElem hl,
        List.getElem?_eq_getElem (by omega), hvi]
    rw [arrangements_succ]
    refine List.mem_flatMap.2 ⟨c, hc, ih (by omega) ?_⟩
    exact (hopen.symm.trans h).of_succ (by omega) hentry

theorem mem_arrangements {k : Nat} {v l : List Cell} (hk : k ≤ v.length) :
    l ∈ arrangements k v ↔ Within k v l :=
  ⟨within_of_mem hk, mem_of_within hk⟩

/-- No order comes twice, since no entry comes to a position twice. -/
theorem nodup_arrangements {k : Nat} {v : List Cell} (hk : k ≤ v.length) (hv : v.Nodup) :
    (arrangements k v).Nodup := by
  induction k generalizing v with
  | zero => exact List.nodup_singleton v
  | succ k ih =>
    rw [arrangements_succ, List.nodup_flatMap]
    refine ⟨?_, ?_⟩
    · intro c hc
      have hopen := within_opening hk (Nat.le_of_lt_succ (List.mem_range.1 hc))
      have hlen := hopen.perm.length_eq
      exact ih (by omega) (hopen.perm.nodup_iff.2 hv)
    · apply List.Nodup.pairwise_of_forall_ne List.nodup_range
      intro c hc c' hc' hne l hl hl'
      apply hne
      -- a list of two blocks has the entries of both at position `k`
      have hentry : ∀ c ∈ List.range (k + 1), l ∈ arrangements k (opening k v c) →
          l[k]? = v[stage (pass k) k c k]? := by
        intro c hc hl
        have hck : c ≤ k := Nat.le_of_lt_succ (List.mem_range.1 hc)
        have hlen := length_opening hk hck
        rw [(within_of_mem (by omega) hl).getElem?_eq, getElem?_opening hk hck]
      have hlt : stage (pass k) k c k < v.length := by
        have hmem := (visits k).mem_iff.1 (List.mem_map.2 ⟨c, hc, rfl⟩)
        exact Nat.lt_of_lt_of_le (List.mem_range.1 hmem) hk
      have hplace := (List.getElem?_inj hlt hv).1
        ((hentry c hc hl).symm.trans (hentry c' hc' hl'))
      exact List.inj_on_of_nodup_map ((visits k).nodup_iff.2 List.nodup_range) hc hc' hplace

end CellMachine.Amplifier
