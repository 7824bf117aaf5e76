import CellMachine.Proofs.Rounds

/-!
# Round limits

A round limit cuts a call off and does nothing else. The limit is tested before each
round and nowhere else, so as long as it is not reached a call goes through the same
rounds with a limit as without (`Network.Continues.withLimit`) and ends in the same way
(`Network.Ends.withLimit`). The count of rounds is that of all calls so far, and the
rounds of one call add up to it (`Network.Rounds.rounds_eq`).

`Network.limit_truncates` puts the two kinds of ending together: a call that ends within
the limit is not affected by it, and any other call stops after the last round that the
limit allows.
-/

set_option autoImplicit false

namespace CellMachine.Network

open Relation

/-- The network with another round limit. -/
def withLimit (nw : Network) (n : Nat) : Network :=
  { nw with limit := n }

/-- A call of the network returns, and this is what it returns. -/
def Returns (nw : Network) (rig : Rig) (out : Network × Outcome) : Prop :=
  ∃ least, ∀ fuel, least ≤ fuel → nw.run fuel rig = some out

/-- The network and the rig after a number of rounds, none of which meets a fault. -/
inductive Rounds (nw : Network) (rig : Rig) : Nat → Network → Rig → Prop where
  | zero : Rounds nw rig 0 nw rig
  | succ {k fuel : Nat} {nw₁ nw₂ : Network} {rig₁ rig₂ : Rig} :
      Rounds nw rig k nw₁ rig₁ → nw₁.round fuel rig₁ = some (nw₂, rig₂, none) →
      Rounds nw rig (k + 1) nw₂ rig₂

section

variable {nw nw₁ nw' : Network} {rig rig₁ rig' : Rig} {e : Option RunError}

/-! ## Calls that return -/

/-- More fuel does not change what a call has returned. -/
theorem returns_of_run {fuel : Nat} {out : Network × Outcome} (h : nw.run fuel rig = some out) :
    nw.Returns rig out :=
  ⟨fuel, fun _ hle => runFrom_mono h hle hle⟩

/-- A call returns one thing only. -/
theorem Returns.unique {out out' : Network × Outcome} (h : nw.Returns rig out)
    (h' : nw.Returns rig out') : out = out' := by
  obtain ⟨least, hrun⟩ := h
  obtain ⟨least', hrun'⟩ := h'
  have heq := hrun (max least least') (Nat.le_max_left _ _)
  rw [hrun' (max least least') (Nat.le_max_right _ _)] at heq
  exact (Option.some.inj heq).symm

theorem Returns.cases (h : nw.Returns rig (nw', rig', e)) :
    ∃ nw₁ rig₁, ReflTransGen Continues (nw, rig) (nw₁, rig₁) ∧ Ends nw₁ rig₁ nw' rig' e := by
  obtain ⟨least, hrun⟩ := h
  exact run_cases (hrun least (Nat.le_refl least))

/-- A call of a halted network returns at once, whatever the limit. -/
theorem returns_of_halted (h : nw.halted rig = true) : nw.Returns rig (nw, rig, none) :=
  run_of_ends .refl (.halted h)

/-! ## Rounds under another limit -/

theorem round_withLimit {fuel : Nat} (n : Nat) (h : nw.round fuel rig = some (nw', rig', e)) :
    (nw.withLimit n).round fuel rig = some (nw'.withLimit n, rig', e) := by
  obtain ⟨rfl, ht⟩ := round_eq_some.1 h
  exact round_eq_some.2 ⟨rfl, ht⟩

theorem rounds_of_round {fuel : Nat} (h : nw.round fuel rig = some (nw', rig', e)) :
    nw'.rounds = nw.rounds + 1 := by
  obtain ⟨rfl, -⟩ := round_eq_some.1 h
  rfl

theorem exhausted_withLimit {n : Nat} (hn : 0 < n) :
    (nw.withLimit n).exhausted = true ↔ n ≤ nw.rounds := by
  show (decide (0 < n) && decide (n ≤ nw.rounds)) = true ↔ n ≤ nw.rounds
  simp [hn]

theorem not_exhausted_withLimit {n : Nat} (h : nw.rounds < n) :
    (nw.withLimit n).exhausted = false := by
  have hn : 0 < n := by omega
  rw [← Bool.not_eq_true, exhausted_withLimit hn]
  omega

/-- Every round is counted. -/
theorem Rounds.rounds_eq {k : Nat} (h : Rounds nw rig k nw₁ rig₁) :
    nw₁.rounds = nw.rounds + k := by
  induction h with
  | zero => rfl
  | succ _ hround ih =>
    rw [rounds_of_round hround, ih]
    omega

/-- Rounds do not depend on the limit. -/
theorem Rounds.withLimit {k : Nat} (h : Rounds nw rig k nw₁ rig₁) (n : Nat) :
    Rounds (nw.withLimit n) rig k (nw₁.withLimit n) rig₁ := by
  induction h with
  | zero => exact .zero
  | succ _ hround ih => exact .succ ih (round_withLimit n hround)

/-! ## Calls under another limit -/

/-- A call keeps its limit. -/
theorem limit_of_continues {c c' : Network × Rig} (h : ReflTransGen Continues c c') :
    c'.1.limit = c.1.limit := by
  induction h with
  | refl => rfl
  | @tail b c' _ hstep ih =>
    obtain ⟨-, -, ⟨fuel, hround⟩, -⟩ := hstep
    obtain ⟨hnw, -⟩ := round_eq_some.1 hround
    rw [hnw]
    exact ih

/-- A call goes on under a limit while the rounds so far are within it. -/
theorem Continues.withLimit {n : Nat} {c : Network × Rig}
    (h : ReflTransGen Continues (nw.withLimit 0, rig) c) (hle : c.1.rounds ≤ n) :
    ReflTransGen Continues (nw.withLimit n, rig) (c.1.withLimit n, c.2) := by
  induction h with
  | refl => exact .refl
  | @tail b c _ hstep ih =>
    obtain ⟨hh, -, ⟨fuel, hround⟩, hgo⟩ := hstep
    have hnext : c.1.rounds = b.1.rounds + 1 := rounds_of_round hround
    have hx : (b.1.withLimit n).exhausted = false := not_exhausted_withLimit (by omega)
    exact (ih (by omega)).tail ⟨hh, hx, ⟨fuel, round_withLimit n hround⟩, hgo⟩

theorem Ends.rounds_le (h : Ends nw rig nw' rig' e) : nw.rounds ≤ nw'.rounds := by
  cases h with
  | halted | limit => exact Nat.le_refl _
  | fault _ _ hround | deadlock _ _ hround =>
    have hnext := rounds_of_round hround
    omega

/-- What ends a call without a limit ends it under a limit too, if that is within it. -/
theorem Ends.withLimit {n : Nat} (h : Ends nw rig nw' rig' e) (hx : nw.exhausted = false)
    (hle : nw'.rounds ≤ n) : Ends (nw.withLimit n) rig (nw'.withLimit n) rig' e := by
  cases h with
  | halted hh => exact .halted hh
  | limit _ hx' =>
    rw [hx] at hx'
    cases hx'
  | fault hh _ hround =>
    have hnext := rounds_of_round hround
    exact .fault hh (not_exhausted_withLimit (by omega)) (round_withLimit n hround)
  | deadlock hh _ hround hh' hsnap =>
    have hnext := rounds_of_round hround
    exact .deadlock hh (not_exhausted_withLimit (by omega)) (round_withLimit n hround) hh' hsnap

/-- A call that returns within the limit returns the same under the limit. -/
theorem Returns.withLimit {n : Nat} (h : (nw.withLimit 0).Returns rig (nw', rig', e))
    (hle : nw'.rounds ≤ n) : (nw.withLimit n).Returns rig (nw'.withLimit n, rig', e) := by
  obtain ⟨nw₁, rig₁, hreach, hends⟩ := h.cases
  have hx : nw₁.exhausted = false := by
    have hlimit : nw₁.limit = 0 := limit_of_continues hreach
    simp [exhausted, hlimit]
  have hle₁ := hends.rounds_le
  exact run_of_ends (Continues.withLimit hreach (Nat.le_trans hle₁ hle)) (hends.withLimit hx hle)

/-- If a call does not return within `n` rounds, and these rounds come to an end, then
the call goes through all of them. -/
theorem continues_of_past {n : Nat} (hh : nw.halted rig = false)
    (hpast : ∀ nw' rig' e, (nw.withLimit 0).Returns rig (nw', rig', e) → n < nw'.rounds)
    (hterm : ∀ k nw₁ rig₁, k < n - nw.rounds → Rounds nw rig k nw₁ rig₁ →
      ∃ fuel out, nw₁.round fuel rig₁ = some out)
    {k : Nat} (hk : k ≤ n - nw.rounds) :
    ∃ nw₁ rig₁, Rounds nw rig k nw₁ rig₁ ∧ nw₁.halted rig₁ = false ∧
      ReflTransGen Continues (nw.withLimit 0, rig) (nw₁.withLimit 0, rig₁) := by
  induction k with
  | zero => exact ⟨nw, rig, .zero, hh, .refl⟩
  | succ k ih =>
    obtain ⟨nw₁, rig₁, hrounds, hh₁, hreach⟩ := ih (by omega)
    obtain ⟨fuel, ⟨nw₂, rig₂, e⟩, hround⟩ := hterm k nw₁ rig₁ (by omega) hrounds
    have hround₀ := round_withLimit 0 hround
    have hcount : (nw₂.withLimit 0).rounds = nw.rounds + (k + 1) := by
      show nw₂.rounds = _
      rw [rounds_of_round hround, hrounds.rounds_eq, Nat.add_assoc]
    -- any ending in this round would be within the limit
    have hgoes : ∀ {nw₃ rig₃ e₃}, ReflTransGen Continues (nw.withLimit 0, rig) (nw₃, rig₃) →
        ¬ Ends nw₃ rig₃ (nw₂.withLimit 0) rig₂ e₃ := by
      intro nw₃ rig₃ e₃ hreach₃ hends
      have hlt := hpast _ _ _ (run_of_ends hreach₃ hends)
      omega
    cases e with
    | some err => exact absurd (.fault hh₁ rfl hround₀) (hgoes hreach)
    | none =>
      have hsnap : (nw₂.withLimit 0).halted rig₂ = true ∨
          (nw₂.withLimit 0).snapshot rig₂ ≠ (nw₁.withLimit 0).snapshot rig₁ := by
        by_cases hh₂ : (nw₂.withLimit 0).halted rig₂ = true
        · exact Or.inl hh₂
        · refine Or.inr fun hsame => ?_
          exact hgoes hreach (.deadlock hh₁ rfl hround₀ (by simpa using hh₂) hsame)
      have hstep : Continues (nw₁.withLimit 0, rig₁) (nw₂.withLimit 0, rig₂) :=
        ⟨hh₁, rfl, ⟨fuel, hround₀⟩, hsnap⟩
      have hreach₂ := hreach.tail hstep
      refine ⟨nw₂, rig₂, .succ hrounds hround, ?_, hreach₂⟩
      cases hh₂ : nw₂.halted rig₂ with
      | false => rfl
      | true => exact absurd (.halted hh₂) (hgoes hreach₂)

end

/-- A round limit only truncates. Under a limit of `n` rounds, a call returns what it
returns without a limit if the network has halted already or if no more than `n` rounds
have been run by then. Otherwise, if the rounds up to the `n`-th come to an end, it runs
these, leaves machines and pipes as they are after them, and reports the limit. -/
theorem limit_truncates (nw : Network) (rig : Rig) {n : Nat} (hn : 0 < n) :
    (nw.halted rig = true → (nw.withLimit 0).Returns rig (nw.withLimit 0, rig, none)) ∧
    (∀ nw' rig' e, (nw.withLimit 0).Returns rig (nw', rig', e) →
      nw.halted rig = true ∨ nw'.rounds ≤ n →
        (nw.withLimit n).Returns rig (nw'.withLimit n, rig', e)) ∧
    (nw.halted rig = false →
      (∀ nw' rig' e, (nw.withLimit 0).Returns rig (nw', rig', e) → n < nw'.rounds) →
      (∀ k nw₁ rig₁, k < n - nw.rounds → Rounds nw rig k nw₁ rig₁ →
        ∃ fuel out, nw₁.round fuel rig₁ = some out) →
      ∃ nw' rig', Rounds (nw.withLimit n) rig (n - nw.rounds) nw' rig' ∧
        nw'.rounds = max n nw.rounds ∧
        (nw.withLimit n).Returns rig (nw', rig', some (.limit (max n nw.rounds)))) := by
  refine ⟨fun hh => returns_of_halted hh, ?_, ?_⟩
  · intro nw' rig' e hret hcase
    rcases hcase with hh | hle
    · have hnow : (nw.withLimit 0).Returns rig (nw.withLimit 0, rig, none) := returns_of_halted hh
      have hlimited : (nw.withLimit n).Returns rig (nw.withLimit n, rig, none) :=
        returns_of_halted hh
      cases hret.unique hnow
      exact hlimited
    · exact hret.withLimit hle
  · intro hh hpast hterm
    obtain ⟨nw₁, rig₁, hrounds, hh₁, hreach⟩ := continues_of_past hh hpast hterm (Nat.le_refl _)
    have hcount : nw₁.rounds = max n nw.rounds := by
      rw [hrounds.rounds_eq]
      omega
    refine ⟨nw₁.withLimit n, rig₁, hrounds.withLimit n, hcount, ?_⟩
    have hx : (nw₁.withLimit n).exhausted = true := (exhausted_withLimit hn).2 (by omega)
    have hreach' : ReflTransGen Continues (nw.withLimit n, rig) (nw₁.withLimit n, rig₁) := by
      by_cases hR : nw.rounds ≤ n
      · exact Continues.withLimit hreach (show nw₁.rounds ≤ n by omega)
      · -- the limit had been passed before the call, which runs no round
        have hzero : n - nw.rounds = 0 := by omega
        rw [hzero] at hrounds
        cases hrounds
        exact .refl
    rw [← hcount]
    exact run_of_ends hreach' (.limit hh₁ hx)

/-- A machine whose first instruction reads from a pipe that nobody writes to. -/
def loneReader : Rig :=
  ⟨#[.new "vm" false ⟨#[3, 0]⟩ 0 1], ⟨#[.empty, .empty]⟩⟩

/-- The machine after it has been found waiting. -/
def loneReaderWaiting : Rig :=
  ⟨#[(Machine.new "vm" false ⟨#[3, 0]⟩ 0 1).await], ⟨#[.empty, .empty]⟩⟩

/-- One round has been run before the call, which finds the deadlock in the third. A
limit of three rounds lets it, a limit of two does not. -/
theorem lone_reader_limits :
    (Network.mk [0] [0, 1] false 3 1).Returns loneReader
      (Network.mk [0] [0, 1] false 3 3, loneReaderWaiting, some (.deadlock 3 [0])) ∧
    (Network.mk [0] [0, 1] false 2 1).Returns loneReader
      (Network.mk [0] [0, 1] false 2 2, loneReaderWaiting, some (.limit 2)) := by
  let nw : Network := ⟨[0], [0, 1], false, 0, 1⟩
  have hfree : (nw.withLimit 0).Returns loneReader
      (Network.mk [0] [0, 1] false 0 3, loneReaderWaiting, some (.deadlock 3 [0])) :=
    returns_of_run (show (nw.withLimit 0).run 2 loneReader = _ from rfl)
  have hround : nw.round 1 loneReader =
      some (Network.mk [0] [0, 1] false 0 2, loneReaderWaiting, none) := rfl
  obtain ⟨-, hwithin, -⟩ := limit_truncates nw loneReader (show 0 < 3 by decide)
  obtain ⟨-, -, hpast⟩ := limit_truncates nw loneReader (show 0 < 2 by decide)
  refine ⟨hwithin _ _ _ hfree (Or.inr (by decide)), ?_⟩
  obtain ⟨nw', rig', hrounds, -, hlimit⟩ := hpast rfl
    (by
      intro nw' rig' e hret
      cases hret.unique hfree
      decide)
    (by
      intro k nw₁ rig₁ hk hrounds
      obtain rfl : k = 0 := Nat.lt_one_iff.1 hk
      cases hrounds
      exact ⟨1, _, hround⟩)
  have hone : Rounds (nw.withLimit 2) loneReader 1 nw' rig' := hrounds
  cases hone with
  | @succ _ fuel _ _ _ _ hzero hlast =>
    cases hzero
    have hmore := round_mono hlast (Nat.le_max_left fuel 1)
    rw [round_mono (round_withLimit 2 hround) (Nat.le_max_right fuel 1)] at hmore
    cases hmore
    exact hlimit

end CellMachine.Network
