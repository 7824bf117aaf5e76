import CellMachine.Proofs.Reachable

/-!
# The verdict of a network

What a call of `Network.run` returns is right, for machines wired in any way: no
error means that all machines have halted, the error of a machine is the fault of
the machine it names, and a deadlock is final (`Network.run_verdict`). The detector
compares only marks; that this is enough rests on `Network.rests_of_round`.

Conversely a call notices when all that is left is waiting: after a round that ends
so, it reports the deadlock at once or in the next round, unless the round limit
comes first.
-/

set_option autoImplicit false

namespace CellMachine

open Relation

/-- Rigs reached from `rig` by steps and runs of machines in `S`, in any order. -/
inductive Rig.Driven (S : List Nat) (rig : Rig) : Rig → Prop where
  | refl : Driven S rig rig
  | step {rig' : Rig} {k : Nat} : Driven S rig rig' → k ∈ S → Driven S rig (rig'.step k)
  | run {rig' rig'' : Rig} {fuel k : Nat} : Driven S rig rig' → k ∈ S →
      rig'.run fuel k = some rig'' → Driven S rig rig''

/-- Machines at rest cannot be driven anywhere. -/
theorem Rig.Driven.eq_of_rests {S : List Nat} {rig rig' : Rig} (h : rig.Driven S rig')
    (hrest : ∀ k ∈ S, rig.RestsAt k) : rig' = rig := by
  induction h with
  | refl => rfl
  | step _ hk ih =>
    subst ih
    exact (hrest _ hk).step_eq
  | @run rig' rig'' fuel k _ hk hrun ih =>
    subst ih
    have h := run_mono hrun (Nat.le_succ fuel)
    rw [(hrest _ hk).run_eq fuel] at h
    exact (Option.some.inj h).symm

namespace Network

/-- The network is deadlocked: `waiting` are the positions of the machines that have
not halted, each of them waits for a value that is not there, and neither steps nor
runs change anything any more. -/
structure Deadlocked (nw : Network) (rig : Rig) (waiting : List Nat) : Prop where
  nonempty : waiting ≠ []
  increasing : waiting.Pairwise (· < ·)
  unhalted : ∀ k, k ∈ waiting ↔ ∃ m, (nw.machines rig)[k]? = some m ∧ m.status ≠ .halted
  blocked : ∀ k ∈ waiting, ∃ m, (nw.machines rig)[k]? = some m ∧ m.status = .waiting ∧
    (rig.pipes.get m.input).queue = []
  returns : ∀ k ∈ nw.members, ∀ fuel, rig.run (fuel + 1) k = some rig
  final : ∀ rig', rig.Driven nw.members rig' → rig' = rig

/-- What the error of a call says about the network afterwards. -/
structure Verdict (nw : Network) (rig : Rig) (e : Option RunError) : Prop where
  halted : e = none ↔ ∀ m ∈ nw.machines rig, m.status = .halted
  fault : ∀ k f, e = some (.machine k f) →
    ∃ m, (nw.machines rig)[k]? = some m ∧ m.status = .faulted ∧ m.fault = some f
  deadlock : ∀ round waiting, e = some (.deadlock round waiting) →
    round = nw.rounds ∧ nw.Deadlocked rig waiting

/-- Machines at rest, not all of them halted, are a deadlock. -/
theorem deadlocked_of_rests {nw : Network} {rig : Rig}
    (hrest : ∀ k ∈ nw.members, rig.RestsAt k) (hh : nw.halted rig = false) :
    nw.Deadlocked rig (nw.waiting rig) where
  nonempty := by
    intro hnil
    rw [waiting_eq_nil_iff.1 hnil] at hh
    cases hh
  increasing := pairwise_waiting nw rig
  unhalted := fun _ => mem_waiting
  blocked := by
    intro i hiw
    obtain ⟨m, hm, hnh⟩ := mem_waiting.1 hiw
    refine ⟨m, hm, ?_⟩
    rw [getElem?_machines (installed_of_rests hrest)] at hm
    obtain ⟨k, hk, hkm⟩ := Option.bind_eq_some_iff.1 hm
    obtain ⟨m', hm', hr⟩ := hrest k (List.mem_of_getElem? hk)
    rw [hkm] at hm'
    cases hm'
    obtain ⟨hw, -, hq⟩ := hr.resolve_left hnh
    exact ⟨hw, hq⟩
  returns := fun k hk fuel => (hrest k hk).run_eq fuel
  final := fun _ hd => hd.eq_of_rests hrest

/-- An ending gives the right verdict. -/
theorem Ends.verdict {nw nw' : Network} {rig rig' : Rig} {e : Option RunError} (hs : rig.Sound)
    (hi : nw.Installed rig) (h : Ends nw rig nw' rig' e) : nw'.Verdict rig' e := by
  cases h with
  | halted hh => exact ⟨⟨fun _ => halted_iff.1 hh, fun _ => rfl⟩, nofun, nofun⟩
  | limit hh hx =>
    refine ⟨⟨nofun, ?_⟩, nofun, nofun⟩
    intro hall
    rw [halted_iff.2 hall] at hh
    cases hh
  | fault _ _ hround =>
    obtain ⟨rfl, ht⟩ := round_eq_some.1 hround
    obtain ⟨sched, -, hsched⟩ := steps_of_turns ht
    obtain ⟨i, k, m, f, rfl, hk, hm, hf, hfault⟩ := faulted_of_turns ht
    have hi' : nw.Installed rig' := hsched ▸ hi.steps sched
    have hmi : (nw.countRound.machines rig')[i]? = some m := by
      rw [machines_countRound, getElem?_machines hi', hk, Option.bind_some, hm]
    refine ⟨⟨nofun, ?_⟩, ?_, nofun⟩
    · intro hall
      have hh := hall m (List.mem_of_getElem? hmi)
      rw [hf] at hh
      cases hh
    · intro k' f' he
      simp only [Option.some.injEq, RunError.machine.injEq, Nat.zero_add] at he
      obtain ⟨rfl, rfl⟩ := he
      exact ⟨m, hmi, hf, hfault⟩
  | deadlock hh hx hround hh' hsnap =>
    have hrest := rests_of_round hs hi hround hsnap
    obtain ⟨rfl, -⟩ := round_eq_some.1 hround
    refine ⟨⟨nofun, ?_⟩, nofun, ?_⟩
    · intro hall
      rw [halted_iff.2 hall] at hh'
      cases hh'
    · intro round waiting he
      simp only [Option.some.injEq, RunError.deadlock.injEq] at he
      obtain ⟨rfl, rfl⟩ := he
      exact ⟨rfl, deadlocked_of_rests hrest hh'⟩

/-- Every machine has halted or waits for a value that is not there, and at least one
has not halted. -/
structure OnlyWaits (nw : Network) (rig : Rig) : Prop where
  blocked : ∀ m ∈ nw.machines rig,
    m.status = .halted ∨ m.status = .waiting ∧ (rig.pipes.get m.input).queue = []
  unhalted : ∃ m ∈ nw.machines rig, m.status ≠ .halted

theorem OnlyWaits.halted_eq {nw : Network} {rig : Rig} (h : nw.OnlyWaits rig) :
    nw.halted rig = false := by
  obtain ⟨m, hm, hh⟩ := h.unhalted
  exact halted_eq_false hm hh

theorem OnlyWaits.rests {nw : Network} {rig : Rig} (hs : rig.Sound) (hi : nw.Installed rig)
    (h : nw.OnlyWaits rig) : ∀ k ∈ nw.members, rig.RestsAt k := by
  intro k hk
  obtain ⟨m, hm⟩ := Option.isSome_iff_exists.1 (hi k hk)
  refine ⟨m, hm, ?_⟩
  rcases h.blocked m (mem_machines.2 ⟨k, hk, hm⟩) with hh | ⟨hw, hq⟩
  · exact Or.inl hh
  · exact Or.inr ⟨hw, (hs k m hm).blocked hw, hq⟩

/-- A round after which all that is left is waiting has met no fault. -/
theorem OnlyWaits.round_error {fuel : Nat} {nw nw' : Network} {rig rig' : Rig}
    {e : Option RunError} (h : nw'.OnlyWaits rig')
    (hround : nw.round fuel rig = some (nw', rig', e)) : e = none := by
  cases e with
  | none => rfl
  | some err =>
    obtain ⟨rfl, ht⟩ := round_eq_some.1 hround
    obtain ⟨i, k, m, f, -, hk, hm, hf, -⟩ := faulted_of_turns ht
    have hmem : m ∈ nw.countRound.machines rig' :=
      mem_machines.2 ⟨k, List.mem_of_getElem? hk, hm⟩
    rcases h.blocked m hmem with hh | ⟨hw, -⟩
    · rw [hf] at hh
      cases hh
    · rw [hf] at hw
      cases hw

/-- The verdict of a call is right. The rig stays reachable and the machines stay in
it, so that the same can be said of the next call. If all that is left after some
round of the call is waiting, the call returns the deadlock at the end of that round
if the round changed no mark, and otherwise at the end of the next round if the limit
allows one. -/
theorem run_verdict {rig : Rig} {nw : Network} (hr : rig.Reachable) (hi : nw.Installed rig) :
    (∀ {fuel : Nat} {nw' : Network} {rig' : Rig} {e : Option RunError},
      nw.run fuel rig = some (nw', rig', e) →
        nw'.Verdict rig' e ∧ rig'.Reachable ∧ nw'.Installed rig') ∧
    ∀ {fuel : Nat} {nw₁ nw₂ : Network} {rig₁ rig₂ : Rig} {e : Option RunError},
      ReflTransGen Continues (nw, rig) (nw₁, rig₁) → nw₁.halted rig₁ = false →
      nw₁.exhausted = false → nw₁.round fuel rig₁ = some (nw₂, rig₂, e) → nw₂.OnlyWaits rig₂ →
        ∃ least, ∀ fuel', least ≤ fuel' → nw.run fuel' rig = some (
          if nw₂.snapshot rig₂ = nw₁.snapshot rig₁ then
            (nw₂, rig₂, some (.deadlock nw₂.rounds (nw₂.waiting rig₂)))
          else if nw₂.exhausted then (nw₂, rig₂, some (.limit nw₂.rounds))
          else (nw₂.countRound, rig₂, some (.deadlock (nw₂.rounds + 1) (nw₂.waiting rig₂)))) := by
  have hs := hr.sound
  constructor
  · intro fuel nw' rig' e hrun
    obtain ⟨nw₁, rig₁, hreach, hends⟩ := run_cases hrun
    obtain ⟨hs₁, hi₁, -⟩ := Continues.intact hs hi hreach
    refine ⟨hends.verdict hs₁ hi₁, hr.networkRun hrun, ?_⟩
    obtain ⟨hmem', sched', -, rfl⟩ := steps_of_run hrun
    intro k hk
    rw [hmem'] at hk
    exact hi.steps sched' k hk
  · intro fuel nw₁ nw₂ rig₁ rig₂ e hreach hh hx hround hwait
    obtain rfl := hwait.round_error hround
    -- the round itself may have repeated a snapshot, if the call began with a deadlock
    by_cases hsnap : nw₂.snapshot rig₂ = nw₁.snapshot rig₁
    · rw [if_pos hsnap]
      exact run_of_ends hreach (.deadlock hh hx hround hwait.halted_eq hsnap)
    · rw [if_neg hsnap]
      have hreach₂ : ReflTransGen Continues (nw, rig) (nw₂, rig₂) :=
        hreach.tail ⟨hh, hx, ⟨fuel, hround⟩, Or.inr hsnap⟩
      by_cases hx₂ : nw₂.exhausted = true
      · rw [if_pos hx₂]
        exact run_of_ends hreach₂ (.limit hwait.halted_eq hx₂)
      · rw [if_neg hx₂]
        -- all machines rest, so the next round repeats the snapshot
        obtain ⟨hs₂, hi₂, -⟩ := Continues.intact hs hi hreach₂
        have hround₂ := round_of_rests (hwait.rests hs₂ hi₂) 0
        exact run_of_ends hreach₂
          (.deadlock hwait.halted_eq (by simpa using hx₂) hround₂ hwait.halted_eq rfl)

/-- A machine whose first instruction reads. -/
def listener (input output : Nat) : Machine :=
  .new "vm" false ⟨#[3, 0]⟩ input output

/-- Two machines that each wait for the other to speak first. -/
def standoff : Rig :=
  ⟨#[listener 0 1, listener 1 0], ⟨#[.empty, .empty]⟩⟩

/-- The two machines after both have been found waiting. -/
def standoffNoticed : Rig :=
  ⟨#[(listener 0 1).await, (listener 1 0).await], ⟨#[.empty, .empty]⟩⟩

theorem standoff_reachable : standoff.Reachable := by
  have hpipes : Rig.Reachable ⟨#[], ⟨#[.empty, .empty]⟩⟩ := .pipe [] (.pipe [] .empty)
  have hfirst : Rig.install ⟨#[], ⟨#[.empty, .empty]⟩⟩ ⟨#[3, 0]⟩
      [.input (some 0), .output (some 1)] false =
        .ok (⟨#[listener 0 1], ⟨#[.empty, .empty]⟩⟩, 0) := rfl
  have hsecond : Rig.install ⟨#[listener 0 1], ⟨#[.empty, .empty]⟩⟩ ⟨#[3, 0]⟩
      [.input (some 1), .output (some 0)] false = .ok (standoff, 1) := rfl
  exact .install (.install hpipes hfirst) hsecond

/-- The two machines wait after the first round; the second round shows it. -/
theorem standoff_verdict :
    standoff.Reachable ∧ (Network.mk [0, 1] [0, 1] true 0 0).Installed standoff ∧
      (Network.mk [0, 1] [0, 1] true 0 2).Verdict standoffNoticed (some (.deadlock 2 [0, 1])) ∧
      ∃ least, ∀ fuel, least ≤ fuel → (Network.mk [0, 1] [0, 1] true 0 0).run fuel standoff =
        some (Network.mk [0, 1] [0, 1] true 0 2, standoffNoticed,
          some (.deadlock 2 [0, 1])) := by
  have hi : (Network.mk [0, 1] [0, 1] true 0 0).Installed standoff := by
    intro k hk
    simp only [List.mem_cons, List.not_mem_nil, or_false] at hk
    rcases hk with rfl | rfl <;> rfl
  have hrun : (Network.mk [0, 1] [0, 1] true 0 0).run 2 standoff =
      some (Network.mk [0, 1] [0, 1] true 0 2, standoffNoticed, some (.deadlock 2 [0, 1])) := by
    rfl
  have hwait : (Network.mk [0, 1] [0, 1] true 0 1).OnlyWaits standoffNoticed := by
    have hm : (Network.mk [0, 1] [0, 1] true 0 1).machines standoffNoticed =
        [(listener 0 1).await, (listener 1 0).await] := rfl
    refine ⟨?_, (listener 0 1).await, by rw [hm]; exact List.mem_cons_self, by decide⟩
    intro m hmem
    rw [hm] at hmem
    simp only [List.mem_cons, List.not_mem_nil, or_false] at hmem
    rcases hmem with rfl | rfl <;> exact Or.inr ⟨rfl, rfl⟩
  obtain ⟨hverdict, hnotice⟩ := run_verdict standoff_reachable hi
  refine ⟨standoff_reachable, hi, (hverdict hrun).1, ?_⟩
  have hround : (Network.mk [0, 1] [0, 1] true 0 0).round 1 standoff =
      some (Network.mk [0, 1] [0, 1] true 0 1, standoffNoticed, none) := rfl
  exact hnotice .refl rfl rfl hround hwait

end Network

end CellMachine
