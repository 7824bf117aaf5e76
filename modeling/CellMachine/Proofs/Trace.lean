import CellMachine.Proofs.Rounds

/-!
# The steps of a call

A call of `Network.run` is made of single steps. `Network.trace` lists them, one list
of machine numbers for each round, as far as the fuel goes; for a call that returns, the
steps lead from the rig before it to the rig after it, and there is one list for each
round that is counted (`Network.steps_traceFrom`).

Some of these steps execute an instruction, others are made for nothing: the machine has
stopped, faults, or is left waiting. `Rig.executions` counts the former, and this is what
the machines count themselves (`Rig.count_step`). A call that uses up its fuel within a
round has executed as many instructions as it had fuel (`Network.le_executions_turnsTrace`).
-/

set_option autoImplicit false

namespace CellMachine

/-! ## Executed instructions -/

namespace Machine

/-- A step of the machine executes an instruction: the machine has not stopped, and the
step neither faults nor leaves it waiting. -/
def Executes (m : Machine) (t : PipeTable) : Prop :=
  ¬ m.Stopped ∧ (m.step t).1.status ≠ .faulted ∧ (m.step t).1.status ≠ .waiting

instance (m : Machine) (t : PipeTable) : Decidable (m.Executes t) :=
  inferInstanceAs (Decidable (_ ∧ _ ∧ _))

/-- A machine counts the instructions that it executes. -/
theorem count_step (m : Machine) (t : PipeTable) :
    (m.step t).1.count = m.count + if m.Executes t then 1 else 0 := by
  have hafter : (m.step t).1 = (m.react (t.get m.input).queue.head?).after := by rw [step_eq]
  simp only [Executes, hafter]
  generalize (t.get m.input).queue.head? = head
  have hr := m.reacts_react head
  generalize m.react head = r at hr
  cases hr with
  | stopped _ hs => simp [hs]
  | faults => simp [stop]
  | waits => simp [await]
  | stores _ hs | takes hs | sends _ hs | jumps _ hs => simp [hs, advance, store]
  | halts _ hs => simp [hs, finish]

/-- A step that leaves its machine running has executed an instruction. -/
theorem executes_of_running {m : Machine} {t : PipeTable} (h : (m.step t).1.status = .running) :
    m.Executes t := by
  refine ⟨?_, by simp [h], by simp [h]⟩
  intro hs
  rw [step_of_stopped hs] at h
  rcases hs with hs | hs
  · simp [hs] at h
  · simp [hs] at h

end Machine

namespace Rig

/-- A step of machine `k` executes an instruction. -/
def Executes (rig : Rig) (k : Nat) : Prop :=
  ∃ m, rig.machine? k = some m ∧ m.Executes rig.pipes

theorem executes_iff {rig : Rig} {k : Nat} {m : Machine} (h : rig.machine? k = some m) :
    rig.Executes k ↔ m.Executes rig.pipes := by
  constructor
  · rintro ⟨m', hm', he⟩
    rw [h] at hm'
    cases hm'
    exact he
  · intro he
    exact ⟨m, h, he⟩

theorem not_executes_of_none {rig : Rig} {k : Nat} (h : rig.machine? k = none) :
    ¬ rig.Executes k := by
  rintro ⟨m, hm, -⟩
  rw [h] at hm
  cases hm

instance (rig : Rig) (k : Nat) : Decidable (rig.Executes k) :=
  match h : rig.machine? k with
  | none => isFalse (not_executes_of_none h)
  | some m => decidable_of_iff (m.Executes rig.pipes) (executes_iff h).symm

/-- The number of instructions that a schedule executes. -/
def executions : Rig → List Nat → Nat
  | _, [] => 0
  | rig, k :: ks => (if rig.Executes k then 1 else 0) + (rig.step k).executions ks

theorem executions_append (rig : Rig) (ks ks' : List Nat) :
    rig.executions (ks ++ ks') = rig.executions ks + (rig.steps ks).executions ks' := by
  induction ks generalizing rig with
  | nil => exact (Nat.zero_add _).symm
  | cons k rest ih =>
    rw [List.cons_append, executions, executions, ih, steps_cons, Nat.add_assoc]

/-- A step adds to the count of its own machine, if it executes an instruction. -/
theorem count_step (rig : Rig) (k j : Nat) :
    (rig.step k).count j = rig.count j + if j = k ∧ rig.Executes k then 1 else 0 := by
  by_cases hkj : k = j
  · subst hkj
    cases hk : rig.machine? k with
    | none => simp [step_of_none hk, not_executes_of_none hk]
    | some m =>
      rw [count_of_machine? hk, count_of_machine? (machine?_step_self hk), Machine.count_step]
      simp [executes_iff hk]
  · have hjk : j ≠ k := fun h => hkj h.symm
    simp [count, hkj, hjk]

/-- A schedule that executes nothing leaves all counts as they are. -/
theorem count_steps_of_executions_eq_zero {rig : Rig} {ks : List Nat}
    (h : rig.executions ks = 0) (j : Nat) : (rig.steps ks).count j = rig.count j := by
  induction ks generalizing rig with
  | nil => rfl
  | cons k rest ih =>
    rw [executions] at h
    have hk : ¬ rig.Executes k := by
      intro he
      simp [he] at h
    rw [steps_cons, ih (by omega), count_step]
    simp [hk]

/-- What the machines have counted together. -/
def total (rig : Rig) : List Nat → Nat
  | [] => 0
  | k :: ks => rig.count k + rig.total ks

theorem total_le_step (rig : Rig) (k : Nat) (S : List Nat) : rig.total S ≤ (rig.step k).total S := by
  induction S with
  | nil => exact Nat.le_refl 0
  | cons j rest ih => exact Nat.add_le_add (count_le_step rig k j) ih

theorem total_le_steps (rig : Rig) (ks S : List Nat) : rig.total S ≤ (rig.steps ks).total S := by
  induction ks generalizing rig with
  | nil => exact Nat.le_refl _
  | cons k rest ih => exact Nat.le_trans (total_le_step rig k S) (ih (rig.step k))

/-- An instruction of one of the machines adds to what they count. -/
theorem total_step {rig : Rig} {k : Nat} {S : List Nat} (hk : k ∈ S) :
    rig.total S + (if rig.Executes k then 1 else 0) ≤ (rig.step k).total S := by
  induction S with
  | nil => cases hk
  | cons j rest ih =>
    rw [total, total]
    by_cases hjk : j = k
    · have hrest := total_le_step rig k rest
      have hcount := count_step rig k j
      simp only [hjk, true_and] at hcount ⊢
      omega
    · have hrest := ih ((List.mem_cons.1 hk).resolve_left (Ne.symm hjk))
      have hcount := count_le_step rig k j
      omega

theorem total_steps {rig : Rig} {ks S : List Nat} (hks : ∀ k ∈ ks, k ∈ S) :
    rig.total S + rig.executions ks ≤ (rig.steps ks).total S := by
  induction ks generalizing rig with
  | nil => exact Nat.le_refl _
  | cons k rest ih =>
    have hstep : rig.total S + _ ≤ _ := total_step (hks k List.mem_cons_self)
    have hrest : (rig.step k).total S + _ ≤ _ :=
      ih fun j hj => hks j (List.mem_cons_of_mem k hj)
    rw [executions, steps_cons]
    omega

/-! ## The steps of a run -/

/-- The steps of a run of machine `k`, as far as `fuel` goes. -/
def runTrace : Nat → Rig → Nat → List Nat
  | 0, _, _ => []
  | fuel + 1, rig, k =>
    match rig.machine? k with
    | none => []
    | some m =>
      if m.status = .halted then []
      else k :: if (m.step rig.pipes).1.status = .running then runTrace fuel (rig.step k) k else []

theorem runTrace_of_none {rig : Rig} {k : Nat} (h : rig.machine? k = none) (fuel : Nat) :
    rig.runTrace fuel k = [] := by
  cases fuel with
  | zero => rfl
  | succ fuel => simp only [runTrace, h]

theorem runTrace_succ {rig : Rig} {k : Nat} {m : Machine} (h : rig.machine? k = some m)
    (fuel : Nat) :
    rig.runTrace (fuel + 1) k =
      if m.status = .halted then []
      else k :: if (m.step rig.pipes).1.status = .running then (rig.step k).runTrace fuel k
        else [] := by
  simp only [runTrace, h]

theorem mem_runTrace {fuel : Nat} {rig : Rig} {k j : Nat} (h : j ∈ rig.runTrace fuel k) :
    j = k := by
  induction fuel generalizing rig with
  | zero => cases h
  | succ fuel ih =>
    cases hk : rig.machine? k with
    | none =>
      rw [runTrace_of_none hk] at h
      cases h
    | some m =>
      rw [runTrace_succ hk] at h
      split at h
      · cases h
      · rcases List.mem_cons.1 h with h | h
        · exact h
        · split at h
          · exact ih h
          · cases h

/-- The steps of a run that ends lead to its end. -/
theorem steps_runTrace {fuel : Nat} {rig rig' : Rig} {k : Nat} (h : rig.run fuel k = some rig') :
    rig.steps (rig.runTrace fuel k) = rig' := by
  induction fuel generalizing rig with
  | zero =>
    cases hk : rig.machine? k with
    | none =>
      rw [run_of_none hk] at h
      exact Option.some.inj h
    | some m =>
      have hk' : rig.machines[k]? = some m := hk
      simp [run, hk', Machine.run] at h
  | succ fuel ih =>
    cases hk : rig.machine? k with
    | none =>
      rw [run_of_none hk] at h
      rw [runTrace_of_none hk]
      exact Option.some.inj h
    | some m =>
      rw [run_succ hk] at h
      rw [runTrace_succ hk]
      by_cases hh : m.status = .halted
      · rw [if_pos hh] at h ⊢
        exact Option.some.inj h
      · rw [if_neg hh] at h ⊢
        by_cases hr : (m.step rig.pipes).1.status = .running
        · rw [if_pos hr] at h ⊢
          exact ih h
        · rw [if_neg hr] at h ⊢
          exact Option.some.inj h

/-- A run that uses up its fuel has executed an instruction with each unit of it. -/
theorem le_executions_runTrace {fuel : Nat} {rig : Rig} {k : Nat} (h : rig.run fuel k = none) :
    fuel ≤ rig.executions (rig.runTrace fuel k) := by
  induction fuel generalizing rig with
  | zero => exact Nat.zero_le _
  | succ fuel ih =>
    cases hk : rig.machine? k with
    | none =>
      rw [run_of_none hk] at h
      cases h
    | some m =>
      rw [run_succ hk] at h
      by_cases hh : m.status = .halted
      · rw [if_pos hh] at h
        cases h
      · by_cases hr : (m.step rig.pipes).1.status = .running
        · rw [if_neg hh, if_pos hr] at h
          have hexec : rig.Executes k := ⟨m, hk, Machine.executes_of_running hr⟩
          have hrest := ih h
          rw [runTrace_succ hk, if_neg hh, if_pos hr, executions, if_pos hexec]
          omega
        · rw [if_neg hh, if_neg hr] at h
          cases h

end Rig

namespace Network

/-! ## The steps of a round -/

/-- The steps of machines that run in turn. -/
def turnsTrace (fuel : Nat) : List Nat → Rig → List Nat
  | [], _ => []
  | k :: rest, rig =>
    rig.runTrace fuel k ++
      match rig.run fuel k with
      | none => []
      | some rig =>
        match (rig.machine? k).bind Machine.error? with
        | some _ => []
        | none => turnsTrace fuel rest rig

theorem mem_turnsTrace {fuel : Nat} {ks : List Nat} {rig : Rig} {j : Nat}
    (h : j ∈ turnsTrace fuel ks rig) : j ∈ ks := by
  induction ks generalizing rig with
  | nil => cases h
  | cons k rest ih =>
    rcases List.mem_append.1 h with h | h
    · rw [Rig.mem_runTrace h]
      exact List.mem_cons_self
    · apply List.mem_cons_of_mem
      split at h
      · cases h
      · split at h
        · cases h
        · exact ih h

theorem steps_turnsTrace {fuel position : Nat} {ks : List Nat} {rig rig' : Rig}
    {e : Option RunError} (h : turns fuel position ks rig = some (rig', e)) :
    rig.steps (turnsTrace fuel ks rig) = rig' := by
  induction ks generalizing position rig with
  | nil =>
    cases h
    rfl
  | cons k rest ih =>
    obtain ⟨rig₁, hrun, hcase⟩ := turns_cons.1 h
    simp only [turnsTrace, hrun]
    rw [Rig.steps_append, Rig.steps_runTrace hrun]
    rcases hcase with ⟨f, hf, hr⟩ | ⟨hnone, hrest⟩
    · cases hr
      simp only [hf]
      rfl
    · simp only [hnone]
      exact ih hrest

/-- Turns that use up the fuel have executed an instruction with each unit of it. -/
theorem le_executions_turnsTrace {fuel position : Nat} {ks : List Nat} {rig : Rig}
    (h : turns fuel position ks rig = none) :
    fuel ≤ rig.executions (turnsTrace fuel ks rig) := by
  induction ks generalizing position rig with
  | nil => cases h
  | cons k rest ih =>
    cases hrun : rig.run fuel k with
    | none =>
      -- the machine whose turn it is never comes to an end
      have hle := Rig.le_executions_runTrace hrun
      simp only [turnsTrace, hrun, List.append_nil]
      exact hle
    | some rig₁ =>
      cases he : (rig₁.machine? k).bind Machine.error? with
      | some f => simp [turns, hrun, he] at h
      | none =>
        simp only [turns, hrun, he] at h
        have hle := ih h
        simp only [turnsTrace, hrun, he]
        rw [Rig.executions_append, Rig.steps_runTrace hrun]
        omega

/-! ## The steps of a call -/

/-- The steps of rounds, given the snapshot taken before the first. -/
def traceFrom (fuel : Nat) : Nat → Snapshot → Network → Rig → List (List Nat)
  | 0, _, _, _ => []
  | rounds + 1, before, nw, rig =>
    if nw.halted rig then []
    else if nw.exhausted then []
    else
      turnsTrace fuel nw.members rig ::
        match nw.round fuel rig with
        | none => []
        | some (_, _, some _) => []
        | some (nw, rig, none) =>
          let after := nw.snapshot rig
          if !nw.halted rig && after = before then [] else traceFrom fuel rounds after nw rig

/-- The steps of a call, one list for each round that it begins. -/
def trace (fuel : Nat) (nw : Network) (rig : Rig) : List (List Nat) :=
  traceFrom fuel fuel (nw.snapshot rig) nw rig

/-- What becomes of a call at its next round, with the steps that it goes on to make: it
is over, it uses up its fuel, its last round ends it, or it goes on. -/
inductive Unfolds (fuel rounds : Nat) (nw : Network) (rig : Rig) :
    Option (Network × Outcome) → List (List Nat) → Prop where
  | finished {e : Option RunError} :
      (e = none ↔ nw.halted rig = true) → Unfolds fuel rounds nw rig (some (nw, rig, e)) []
  | stuck : turns fuel 0 nw.members rig = none →
      Unfolds fuel rounds nw rig none [turnsTrace fuel nw.members rig]
  | ends {rig' : Rig} {e : Option RunError} (err : RunError) :
      turns fuel 0 nw.members rig = some (rig', e) →
      Unfolds fuel rounds nw rig (some (nw.countRound, rig', some err))
        [turnsTrace fuel nw.members rig]
  | goes {rig' : Rig} : turns fuel 0 nw.members rig = some (rig', none) →
      Continues (nw, rig) (nw.countRound, rig') →
      Unfolds fuel rounds nw rig
        (runFrom fuel rounds (nw.countRound.snapshot rig') nw.countRound rig')
        (turnsTrace fuel nw.members rig ::
          traceFrom fuel rounds (nw.countRound.snapshot rig') nw.countRound rig')

theorem unfolds_succ (fuel rounds : Nat) (nw : Network) (rig : Rig) :
    Unfolds fuel rounds nw rig (runFrom fuel (rounds + 1) (nw.snapshot rig) nw rig)
      (traceFrom fuel (rounds + 1) (nw.snapshot rig) nw rig) := by
  by_cases hh : nw.halted rig = true
  · simp only [runFrom, traceFrom, hh, if_true]
    exact .finished (by simp [hh])
  by_cases hx : nw.exhausted = true
  · simp only [runFrom, traceFrom, hh, hx, if_true]
    exact .finished (by simp [hh])
  cases hround : nw.round fuel rig with
  | none =>
    have ht : turns fuel 0 nw.members rig = none := by
      simpa only [round, Option.map_eq_none_iff] using hround
    simp only [runFrom, traceFrom, hh, hx, hround]
    exact .stuck ht
  | some out =>
    obtain ⟨nw₁, rig₁, e⟩ := out
    obtain ⟨rfl, ht⟩ := round_eq_some.1 hround
    cases e with
    | some err =>
      simp only [runFrom, traceFrom, hh, hx, hround]
      exact .ends err ht
    | none =>
      by_cases hd : (!nw.countRound.halted rig₁ &&
          decide (nw.countRound.snapshot rig₁ = nw.snapshot rig)) = true
      · simp only [runFrom, traceFrom, hh, hx, hround, hd, if_true]
        exact .ends _ ht
      · simp only [runFrom, traceFrom, hh, hx, hround, hd]
        refine .goes ht ⟨by simpa using hh, by simpa using hx, ⟨fuel, hround⟩, ?_⟩
        by_cases hh₁ : nw.countRound.halted rig₁ = true
        · exact Or.inl hh₁
        · exact Or.inr fun hsnap => hd (by simp [hh₁, hsnap])

/-- All steps of a call are steps of its machines. -/
theorem mem_traceFrom {fuel rounds : Nat} {nw : Network} {rig : Rig} {j : Nat}
    (h : j ∈ (traceFrom fuel rounds (nw.snapshot rig) nw rig).flatten) : j ∈ nw.members := by
  induction rounds generalizing nw rig with
  | zero => cases h
  | succ rounds ih =>
    have hu := unfolds_succ fuel rounds nw rig
    generalize traceFrom fuel (rounds + 1) (nw.snapshot rig) nw rig = trace at h hu
    generalize runFrom fuel (rounds + 1) (nw.snapshot rig) nw rig = out at hu
    cases hu with
    | finished => cases h
    | stuck | ends =>
      rw [List.flatten_cons, List.flatten_nil, List.append_nil] at h
      exact mem_turnsTrace h
    | goes =>
      rw [List.flatten_cons] at h
      rcases List.mem_append.1 h with h | h
      · exact mem_turnsTrace h
      · have hmem : j ∈ nw.countRound.members := ih h
        exact hmem

/-- The steps of a call that returns lead to where it returns, and each of its rounds is
counted. -/
theorem steps_traceFrom {fuel rounds : Nat} {nw nw' : Network} {rig rig' : Rig}
    {e : Option RunError}
    (h : runFrom fuel rounds (nw.snapshot rig) nw rig = some (nw', rig', e)) :
    rig.steps (traceFrom fuel rounds (nw.snapshot rig) nw rig).flatten = rig' ∧
      nw'.rounds = nw.rounds + (traceFrom fuel rounds (nw.snapshot rig) nw rig).length := by
  induction rounds generalizing nw rig with
  | zero => cases h
  | succ rounds ih =>
    have hu := unfolds_succ fuel rounds nw rig
    rw [h] at hu
    generalize traceFrom fuel (rounds + 1) (nw.snapshot rig) nw rig = trace at hu
    generalize hout : some (nw', rig', e) = out at hu
    cases hu with
    | finished =>
      cases hout
      exact ⟨rfl, rfl⟩
    | stuck => cases hout
    | ends _ ht =>
      cases hout
      refine ⟨?_, rfl⟩
      rw [List.flatten_cons, List.flatten_nil, List.append_nil]
      exact steps_turnsTrace ht
    | goes ht =>
      obtain ⟨hsteps, hrounds⟩ := ih hout.symm
      rw [List.flatten_cons, Rig.steps_append, steps_turnsTrace ht]
      refine ⟨hsteps, ?_⟩
      rw [hrounds, List.length_cons]
      show nw.rounds + 1 + _ = _
      omega

end Network

end CellMachine
