import CellMachine.Proofs.Reachable
import CellMachine.Proofs.RoundLimit
import CellMachine.Proofs.Trace
import Mathlib.Data.List.Basic

/-!
# The scheduler does not spin

A round can change the marks of a network without executing anything: machines that were
running are found waiting. This happens in the first round of a call only. After a round
that meets no fault the network is `Settled`, every machine has halted or waits, and from
there on a round that executes nothing changes nothing
(`Network.Settled.snapshot_of_stalls`), so that the call ends with it.

So the rounds of a call are bounded by the instructions that it executes
(`Network.pace_run`), and a call that executes a bounded number of instructions returns.
-/

set_option autoImplicit false

namespace CellMachine

open Relation

theorem Rig.executions_pos_iff {rig : Rig} {ks : List Nat} :
    0 < rig.executions ks ↔
      ∃ front k back, ks = front ++ k :: back ∧ (rig.steps front).Executes k := by
  constructor
  · intro hpos
    induction ks generalizing rig with
    | nil => exact absurd hpos (Nat.lt_irrefl 0)
    | cons k rest ih =>
      by_cases hk : rig.Executes k
      · exact ⟨[], k, rest, rfl, hk⟩
      · rw [executions, if_neg hk, Nat.zero_add] at hpos
        obtain ⟨front, j, back, rfl, hj⟩ := ih hpos
        exact ⟨k :: front, j, back, rfl, hj⟩
  · rintro ⟨front, k, back, rfl, hk⟩
    rw [executions_append, executions, if_pos hk]
    omega

namespace Network

/-! ## Settled networks -/

/-- Every machine has halted or has been found waiting. -/
def Settled (nw : Network) (rig : Rig) : Prop :=
  ∀ k ∈ nw.members, ∃ m, rig.machine? k = some m ∧ (m.status = .halted ∨ m.status = .waiting)

/-- Turns without a fault leave the machines that took them halted or waiting. -/
theorem settled_of_turns {fuel position : Nat} {ks : List Nat} {rig rig' : Rig} (hs : rig.Sound)
    (hk : ∀ k ∈ ks, (rig.machine? k).isSome)
    (h : turns fuel position ks rig = some (rig', none)) :
    ∀ k ∈ ks, ∃ m, rig'.machine? k = some m ∧ (m.status = .halted ∨ m.status = .waiting) := by
  induction ks generalizing position rig with
  | nil => simp
  | cons k rest ih =>
    obtain ⟨rig₁, hrun, hcase⟩ := turns_cons.1 h
    rcases hcase with ⟨f, -, hr⟩ | ⟨he, ht⟩
    · cases hr
    obtain ⟨m, hm⟩ := Option.isSome_iff_exists.1 (hk k List.mem_cons_self)
    obtain ⟨m₁, hm₁, hsound, hrest⟩ := Rig.rests_or_faulted_of_run hm (hs k m hm) hrun
    have hnf : m₁.status ≠ .faulted := hsound.not_faulted (by simpa [hm₁] using he)
    obtain ⟨n, hn⟩ := Rig.steps_of_run hrun
    intro j hj
    by_cases hjr : j ∈ rest
    · refine ih (hn ▸ hs.steps _) ?_ ht j hjr
      intro i hi
      rw [hn, Rig.machine?_steps_isSome]
      exact hk i (List.mem_cons_of_mem k hi)
    · -- the machine is not among those that run after it
      obtain rfl : j = k := by simpa [hjr] using hj
      obtain ⟨sched, hsched, rfl⟩ := steps_of_turns ht
      refine ⟨m₁, ?_, ?_⟩
      · rw [Rig.steps_frame (fun hmem => hjr (hsched j hmem)), hm₁]
      · rcases hrest.resolve_right hnf with hh | ⟨hw, -⟩
        · exact Or.inl hh
        · exact Or.inr hw

/-- If nothing happens to a settled network, its machines stay as they are. -/
theorem Settled.machine?_of_stalls {nw : Network} {rig rig' : Rig} (h : nw.Settled rig)
    (hstall : rig.Stalls rig') : ∀ k ∈ nw.members, rig'.machine? k = rig.machine? k := by
  intro k hk
  obtain ⟨m, hm, hstatus⟩ := h k hk
  obtain ⟨m', hm', hsame | ⟨hi, hsame⟩⟩ := hstall.machines k m hm
  · rw [hm', hm, hsame]
  · rcases hstatus with hh | hw
    · exact absurd (Or.inl hh) hi.1
    · rw [hm', hm, hsame, Machine.await_of_waiting hw]

theorem Settled.snapshot_of_stalls {nw : Network} {rig rig' : Rig} (h : nw.Settled rig)
    (hstall : rig.Stalls rig') :
    nw.halted rig' = nw.halted rig ∧ nw.snapshot rig' = nw.snapshot rig := by
  have hmachines : nw.machines rig' = nw.machines rig :=
    List.filterMap_congr (h.machine?_of_stalls hstall)
  constructor
  · simp only [halted, hmachines]
  · simp only [snapshot, hmachines, hstall.pipes]

/-- A round after which a call goes on executes an instruction, if the network was settled
before. -/
theorem Settled.executes {fuel : Nat} {nw : Network} {rig rig' : Rig} (h : nw.Settled rig)
    (hs : rig.Sound) (hi : nw.Installed rig)
    (ht : turns fuel 0 nw.members rig = some (rig', none))
    (hgo : Continues (nw, rig) (nw.countRound, rig')) :
    0 < rig.executions (turnsTrace fuel nw.members rig) := by
  apply Nat.pos_of_ne_zero
  intro hzero
  obtain ⟨hh, -, -, hchange⟩ := hgo
  have hcount : ∀ k ∈ nw.members, rig'.count k = rig.count k := by
    intro k _
    rw [← steps_turnsTrace ht]
    exact Rig.count_steps_of_executions_eq_zero hzero k
  obtain ⟨hstall, -⟩ := rests_of_turns hs hi ht hcount
  obtain ⟨hhalted, hsnap⟩ := h.snapshot_of_stalls hstall
  -- the call would have found a deadlock in this round
  rcases hchange with hh' | hne
  · rw [show nw.countRound.halted rig' = nw.halted rig' from rfl, hhalted] at hh'
    simp only [hh'] at hh
    cases hh
  · exact hne hsnap

/-! ## Rounds and instructions -/

section Pace

variable {nw : Network} {rig : Rig}

/-- A round leads from a network whose machines are all there to a settled one. -/
theorem settled_of_round {fuel : Nat} {rig' : Rig} (hs : rig.Sound) (hi : nw.Installed rig)
    (ht : turns fuel 0 nw.members rig = some (rig', none)) :
    rig'.Sound ∧ nw.countRound.Installed rig' ∧ nw.countRound.Settled rig' := by
  have hset := settled_of_turns hs hi ht
  obtain ⟨sched, -, rfl⟩ := steps_of_turns ht
  exact ⟨hs.steps sched, hi.steps sched, hset⟩

/-- After the first round of a call the network is settled. -/
theorem settled_of_transGen {nw₁ : Network} {rig₁ : Rig} (hs : rig.Sound) (hi : nw.Installed rig)
    (h : TransGen Continues (nw, rig) (nw₁, rig₁)) : nw₁.Settled rig₁ := by
  obtain ⟨⟨nw₀, rig₀⟩, hreach, -, -, ⟨fuel, hround⟩, -⟩ := TransGen.tail'_iff.1 h
  obtain ⟨hs₀, hi₀, -⟩ := Continues.intact hs hi hreach
  obtain ⟨hnw, ht⟩ := round_eq_some.1 hround
  simp only at hnw ht
  subst hnw
  exact (settled_of_round hs₀ hi₀ ht).2.2

/-- There are no more rounds than instructions, except for the last round and those that
are spared, and fuel that is used up is used up by instructions. From a settled network on,
no round need be spared. -/
theorem pace (fuel rounds spared : Nat) (hspared : spared = 0 → nw.Settled rig) (hs : rig.Sound)
    (hi : nw.Installed rig) :
    let trace := traceFrom fuel rounds (nw.snapshot rig) nw rig
    trace.length ≤ rig.executions trace.flatten + spared + 1 ∧
      (runFrom fuel rounds (nw.snapshot rig) nw rig = none →
        min fuel rounds ≤ rig.executions trace.flatten + spared) := by
  induction rounds generalizing nw rig spared with
  | zero => exact ⟨Nat.zero_le _, fun _ => by omega⟩
  | succ rounds ih =>
    have hu := unfolds_succ fuel rounds nw rig
    simp only
    generalize runFrom fuel (rounds + 1) (nw.snapshot rig) nw rig = out at hu
    generalize traceFrom fuel (rounds + 1) (nw.snapshot rig) nw rig = trace at hu
    cases hu with
    | finished => exact ⟨Nat.zero_le _, nofun⟩
    | stuck ht =>
      have hle := le_executions_turnsTrace ht
      simp only [List.flatten_cons, List.flatten_nil, List.append_nil, List.length_singleton]
      exact ⟨by omega, fun _ => by omega⟩
    | ends => exact ⟨Nat.le_add_left 1 _, nofun⟩
    | goes ht hgo =>
      obtain ⟨hs', hi', hset⟩ := settled_of_round hs hi ht
      have hpos : 0 < rig.executions (turnsTrace fuel nw.members rig) + spared := by
        rcases Nat.eq_zero_or_pos spared with h0 | h0
        · exact Nat.add_pos_left ((hspared h0).executes hs hi ht hgo) spared
        · exact Nat.add_pos_right _ h0
      -- whether this round was spared or not, the network is settled after it
      obtain ⟨hlen, hnone⟩ := ih 0 (fun _ => hset) hs' hi'
      rw [List.flatten_cons, Rig.executions_append, steps_turnsTrace ht, List.length_cons]
      refine ⟨by omega, ?_⟩
      intro hout
      have hmore := hnone hout
      omega

/-- In a call, only the first round may be made for nothing, and the last one. -/
theorem pace_run (hs : rig.Sound) (hi : nw.Installed rig) (fuel : Nat) :
    (nw.trace fuel rig).length ≤ rig.executions (nw.trace fuel rig).flatten + 2 ∧
      (nw.run fuel rig = none → fuel ≤ rig.executions (nw.trace fuel rig).flatten + 1) := by
  have hpace := pace fuel fuel 1 (fun h => absurd h Nat.one_ne_zero) hs hi
  rw [Nat.min_self] at hpace
  exact hpace

theorem length_traceFrom_le (fuel rounds : Nat) (nw : Network) (rig : Rig) :
    (traceFrom fuel rounds (nw.snapshot rig) nw rig).length ≤ rounds := by
  induction rounds generalizing nw rig with
  | zero => exact Nat.le_refl 0
  | succ rounds ih =>
    have hu := unfolds_succ fuel rounds nw rig
    generalize runFrom fuel (rounds + 1) (nw.snapshot rig) nw rig = out at hu
    generalize traceFrom fuel (rounds + 1) (nw.snapshot rig) nw rig = trace at hu
    cases hu with
    | finished => exact Nat.zero_le _
    | stuck | ends => exact Nat.succ_le_succ (Nat.zero_le _)
    | goes => exact Nat.succ_le_succ (ih _ _)

/-- A call that executes no more than `n` instructions returns, after no more than `n + 2`
rounds. -/
theorem returns_of_executions_le (hs : rig.Sound) (hi : nw.Installed rig) {n : Nat}
    (h : ∀ fuel, rig.executions (nw.trace fuel rig).flatten ≤ n) :
    ∃ nw' rig' e, nw.Returns rig (nw', rig', e) ∧ nw'.rounds ≤ nw.rounds + n + 2 := by
  obtain ⟨-, hnone⟩ := pace_run hs hi (n + 2)
  have hle := h (n + 2)
  cases hrun : nw.run (n + 2) rig with
  | none =>
    have hfuel := hnone hrun
    omega
  | some out =>
    obtain ⟨nw', rig', e⟩ := out
    refine ⟨nw', rig', e, returns_of_run hrun, ?_⟩
    have hlen := length_traceFrom_le (n + 2) (n + 2) nw rig
    obtain ⟨-, hrounds⟩ := steps_traceFrom hrun
    omega

end Pace

/-- The scheduler does not spin. Every round after which a call goes on, except for its
first one, has a step that executes an instruction. A call that returns has run at most
two rounds more than it has executed instructions, and a call in which the instructions
that are executed do not exceed a number returns, with at most two rounds more than
that. -/
theorem call_never_spins {rig : Rig} {nw : Network} (hr : rig.Reachable) (hi : nw.Installed rig) :
    (∀ (fuel : Nat) (nw₁ nw₂ : Network) (rig₁ rig₂ : Rig),
      TransGen Continues (nw, rig) (nw₁, rig₁) → Continues (nw₁, rig₁) (nw₂, rig₂) →
      nw₁.round fuel rig₁ = some (nw₂, rig₂, none) →
        ∃ before k after, rig₁.steps (before ++ k :: after) = rig₂ ∧
          before ++ k :: after = turnsTrace fuel nw₁.members rig₁ ∧
          (rig₁.steps before).Executes k) ∧
    (∀ (fuel : Nat) (nw' : Network) (rig' : Rig) (e : Option RunError),
      nw.run fuel rig = some (nw', rig', e) →
        rig.steps (nw.trace fuel rig).flatten = rig' ∧
        nw'.rounds = nw.rounds + (nw.trace fuel rig).length ∧
        (nw.trace fuel rig).length ≤ rig.executions (nw.trace fuel rig).flatten + 2) ∧
    ∀ n : Nat, (∀ fuel, rig.executions (nw.trace fuel rig).flatten ≤ n) →
      ∃ nw' rig' e, nw.Returns rig (nw', rig', e) ∧ nw'.rounds ≤ nw.rounds + n + 2 := by
  have hs := hr.sound
  refine ⟨?_, ?_, fun n => returns_of_executions_le hs hi⟩
  · intro fuel nw₁ nw₂ rig₁ rig₂ hreach hgo hround
    obtain ⟨hs₁, hi₁, -⟩ := Continues.intact hs hi hreach.to_reflTransGen
    have hset : nw₁.Settled rig₁ := settled_of_transGen hs hi hreach
    obtain ⟨rfl, ht⟩ := round_eq_some.1 hround
    obtain ⟨before, k, after, htrace, hk⟩ :=
      Rig.executions_pos_iff.1 (hset.executes hs₁ hi₁ ht hgo)
    refine ⟨before, k, after, ?_, htrace.symm, hk⟩
    rw [← htrace, steps_turnsTrace ht]
  · intro fuel nw' rig' e hrun
    obtain ⟨hsteps, hrounds⟩ := steps_traceFrom hrun
    exact ⟨hsteps, hrounds, (pace_run hs hi fuel).1⟩

/-- Two machines on two pipes. The first reads a value and halts; the second sends a
value to it and then waits for an answer that does not come. -/
def unanswered : Rig :=
  ⟨#[.new "vm" false ⟨#[3, 0, 99]⟩ 0 1, .new "vm" false ⟨#[104, 7, 3, 0]⟩ 1 0],
    ⟨#[.empty, .empty]⟩⟩

/-- The value is sent in the first round and read in the second, and the third finds the
deadlock. -/
theorem unanswered_call :
    unanswered.Reachable ∧ (Network.mk [0, 1] [0, 1] true 0 0).Installed unanswered ∧
      (Network.mk [0, 1] [0, 1] true 0 0).trace 9 unanswered = [[0, 1, 1], [0, 0, 1], [1]] ∧
      unanswered.executions [0, 1, 1, 0, 0, 1, 1] = 3 ∧
      (∃ before k after, before ++ k :: after = [0, 0, 1] ∧
        ((unanswered.steps [0, 1, 1]).steps before).Executes k) ∧
      ((Network.mk [0, 1] [0, 1] true 0 0).trace 9 unanswered).length ≤ 3 + 2 := by
  let nw : Network := ⟨[0, 1], [0, 1], true, 0, 0⟩
  have hreach : unanswered.Reachable := by
    have hpipes : Rig.Reachable ⟨#[], ⟨#[.empty, .empty]⟩⟩ := .pipe [] (.pipe [] .empty)
    have hfirst : Rig.install ⟨#[], ⟨#[.empty, .empty]⟩⟩ ⟨#[3, 0, 99]⟩
        [.input (some 0), .output (some 1)] false =
          .ok (⟨#[.new "vm" false ⟨#[3, 0, 99]⟩ 0 1], ⟨#[.empty, .empty]⟩⟩, 0) := rfl
    have hsecond : Rig.install ⟨#[.new "vm" false ⟨#[3, 0, 99]⟩ 0 1], ⟨#[.empty, .empty]⟩⟩
        ⟨#[104, 7, 3, 0]⟩ [.input (some 1), .output (some 0)] false = .ok (unanswered, 1) := rfl
    exact .install (.install hpipes hfirst) hsecond
  have hi : nw.Installed unanswered := by
    have hmade : ofMachines unanswered [some 0, some 1] [] = .ok nw := rfl
    refine installed_ofMachines ?_ hmade
    intro k hk
    rcases List.mem_pair.1 hk with hk | hk
    · cases hk
      rfl
    · cases hk
      rfl
  obtain ⟨hround, hcall, -⟩ := call_never_spins hreach hi
  have htrace : nw.trace 9 unanswered = [[0, 1, 1], [0, 0, 1], [1]] := by decide +kernel
  have hcount : unanswered.executions [0, 1, 1, 0, 0, 1, 1] = 3 := by decide +kernel
  -- the first round and the second one, each followed by another
  have hone : nw.round 9 unanswered =
      some (nw.countRound, unanswered.steps [0, 1, 1], none) := rfl
  have htwo : nw.countRound.round 9 (unanswered.steps [0, 1, 1]) =
      some (nw.countRound.countRound, (unanswered.steps [0, 1, 1]).steps [0, 0, 1], none) := rfl
  have hgo : Continues (nw, unanswered) (nw.countRound, unanswered.steps [0, 1, 1]) :=
    ⟨by decide +kernel, rfl, ⟨9, hone⟩, Or.inr (by decide +kernel)⟩
  have hgo' : Continues (nw.countRound, unanswered.steps [0, 1, 1])
      (nw.countRound.countRound, (unanswered.steps [0, 1, 1]).steps [0, 0, 1]) :=
    ⟨by decide +kernel, rfl, ⟨9, htwo⟩, Or.inr (by decide +kernel)⟩
  refine ⟨hreach, hi, htrace, hcount, ?_, ?_⟩
  · obtain ⟨before, k, after, -, hsplit, hk⟩ :=
      hround 9 _ _ _ _ (.single hgo) hgo' htwo
    refine ⟨before, k, after, ?_, hk⟩
    rw [hsplit]
    decide +kernel
  · have hsome : ((nw.run 9 unanswered).map fun out => out.1.rounds) = some 3 := by decide +kernel
    obtain ⟨⟨nw', rig', e⟩, hrun, -⟩ := Option.map_eq_some_iff.1 hsome
    have hle := (hcall 9 nw' rig' e hrun).2.2
    rw [htrace] at hle
    rw [htrace]
    exact Nat.le_trans hle (Nat.le_of_eq (congrArg (· + 2) hcount))

end Network

end CellMachine
