import CellMachine.Proofs.Reaction

/-!
# Schedules of single steps

A schedule is a list of machine numbers; `Rig.steps` steps them one after another.
A run of one machine is a schedule that names only that machine
(`Rig.steps_of_run`), and more fuel does not change a run that has ended
(`Rig.run_mono`).

A machine `Rests` if it has halted, or waits at an input instruction with nothing
to read. Resting machines are left alone by steps and by runs, and a run ends with
its machine at rest or faulted (`Rig.rests_or_faulted_of_run`).
-/

set_option autoImplicit false

namespace CellMachine

attribute [ext] Rig

namespace Machine

/-! ## Machines at rest -/

/-- The machine has halted, or waits for a value that is not there. -/
def Rests (m : Machine) (t : PipeTable) : Prop :=
  m.status = .halted ∨ m.status = .waiting ∧ m.AtInput ∧ (t.get m.input).queue = []

theorem await_of_waiting {m : Machine} (h : m.status = .waiting) : m.await = m := by
  rw [await, ← h]

theorem step_of_stopped {m : Machine} (h : m.Stopped) (t : PipeTable) : m.step t = (m, t) := by
  have hs : m.status = .halted ∨ m.status = .faulted := h
  simp only [step, hs, if_true]

/-- A step at an input instruction with an empty queue only notes the waiting. -/
theorem step_of_atInput {m : Machine} {t : PipeTable} (h : m.AtInput)
    (hq : (t.get m.input).queue = []) : m.step t = (m.await, t) := by
  have hr : m.react (t.get m.input).queue.head? = ⟨m.await, false, none⟩ := by
    rw [hq]
    exact react_none_of_atInput h
  rw [step_eq, hr]
  rfl

theorem Rests.step_eq {m : Machine} {t : PipeTable} (h : m.Rests t) : m.step t = (m, t) := by
  rcases h with hh | ⟨hw, hi, hq⟩
  · exact step_of_stopped (Or.inl hh) t
  · rw [step_of_atInput hi hq, await_of_waiting hw]

theorem Rests.run_eq {m : Machine} {t : PipeTable} (h : m.Rests t) (fuel : Nat) :
    m.run (fuel + 1) t = some (m, t) := by
  have hstep := h.step_eq
  rcases h with hh | ⟨hw, -, -⟩
  · simp only [run, hh, if_true]
  · simp [run, hw, hstep]

/-- A step that leaves its machine waiting found the input queue empty. -/
theorem rests_of_step_waiting {m : Machine} {t : PipeTable}
    (h : (m.step t).1.status = .waiting) : (m.step t).1.Rests (m.step t).2 := by
  have hr := m.reacts_react (t.get m.input).queue.head?
  obtain ⟨hq, hi, -⟩ := hr.of_waiting (by rwa [step_eq] at h)
  have hq' : (t.get m.input).queue = [] := List.head?_eq_none_iff.1 hq
  rw [step_of_atInput hi hq']
  obtain ⟨-, index, next, hp⟩ := hi
  exact Or.inr ⟨rfl, ⟨by simp [Stopped, await], index, next, hp⟩, hq'⟩

/-- A step that is the last one of a run leaves its machine at rest or faulted. -/
theorem rests_or_faulted_of_step {m : Machine} {t : PipeTable} (hm : (m.step t).1.Sound)
    (h : (m.step t).1.status ≠ .running) :
    (m.step t).1.Rests (m.step t).2 ∨ (m.step t).1.status = .faulted := by
  cases hs : (m.step t).1.status with
  | running => exact absurd hs h
  | waiting => exact Or.inl (rests_of_step_waiting hs)
  | halted => exact Or.inl (Or.inl hs)
  | faulted => exact Or.inr rfl
  | unknown => exact absurd hs hm.known

theorem run_of_stopped {m : Machine} (h : m.Stopped) (t : PipeTable) (fuel : Nat) :
    m.run (fuel + 1) t = some (m, t) := by
  simp only [run, step_of_stopped h]
  rcases h with hh | hf
  · simp [hh]
  · simp [hf]

/-! ## Fuel -/

/-- What every step keeps, a run keeps. -/
theorem run_induction {P : Machine → PipeTable → Prop}
    (hstep : ∀ m t, P m t → P (m.step t).1 (m.step t).2) {fuel : Nat} {m m' : Machine}
    {t t' : PipeTable} (h : P m t) (hrun : m.run fuel t = some (m', t')) : P m' t' := by
  induction fuel generalizing m t with
  | zero => cases hrun
  | succ fuel ih =>
    simp only [run] at hrun
    split at hrun
    · cases hrun
      exact h
    · split at hrun
      · exact ih (hstep m t h) hrun
      · cases hrun
        exact hstep m t h

theorem run_mono {fuel fuel' : Nat} {m : Machine} {t : PipeTable} {r : Machine × PipeTable}
    (h : m.run fuel t = some r) (hle : fuel ≤ fuel') : m.run fuel' t = some r := by
  induction fuel generalizing fuel' m t with
  | zero => cases h
  | succ fuel ih =>
    obtain ⟨fuel', rfl⟩ : ∃ n, fuel' = n + 1 := ⟨fuel' - 1, by omega⟩
    simp only [run] at h ⊢
    split
    · next hh => rwa [if_pos hh] at h
    · next hh =>
      rw [if_neg hh] at h
      split
      · next hr =>
        rw [if_pos hr] at h
        exact ih h (by omega)
      · next hr => rwa [if_neg hr] at h

end Machine

namespace Rig

/-! ## Single steps of a rig -/

theorem step_of_machine? {rig : Rig} {k : Nat} {m : Machine} (h : rig.machine? k = some m) :
    rig.step k = ⟨rig.machines.setIfInBounds k (m.step rig.pipes).1, (m.step rig.pipes).2⟩ := by
  have h' : rig.machines[k]? = some m := h
  simp only [step, h']

theorem step_of_none {rig : Rig} {k : Nat} (h : rig.machine? k = none) : rig.step k = rig := by
  have h' : rig.machines[k]? = none := h
  simp only [step, h']

@[simp] theorem machine?_set_self {rig : Rig} {k : Nat} {m : Machine} (h : rig.machine? k = some m)
    (m' : Machine) (t : PipeTable) :
    Rig.machine? ⟨rig.machines.setIfInBounds k m', t⟩ k = some m' := by
  have hlt : k < rig.machines.size := (Array.getElem?_eq_some_iff.1 h).1
  exact Array.getElem?_setIfInBounds_self_of_lt hlt

@[simp]
theorem machine?_set_of_ne {k j : Nat} (hkj : k ≠ j) (rig : Rig) (m : Machine) (t : PipeTable) :
    Rig.machine? ⟨rig.machines.setIfInBounds k m, t⟩ j = rig.machine? j :=
  Array.getElem?_setIfInBounds_ne hkj

theorem set_machine?_self {rig : Rig} {k : Nat} {m : Machine} (h : rig.machine? k = some m) :
    rig.machines.setIfInBounds k m = rig.machines := by
  apply Array.ext_getElem?
  intro j
  by_cases hkj : k = j
  · subst hkj
    exact (machine?_set_self h m rig.pipes).trans h.symm
  · exact Array.getElem?_setIfInBounds_ne hkj

@[simp]
theorem machine?_step_self {rig : Rig} {k : Nat} {m : Machine} (h : rig.machine? k = some m) :
    (rig.step k).machine? k = some (m.step rig.pipes).1 := by
  rw [step_of_machine? h]
  exact machine?_set_self h _ _

@[simp] theorem pipes_step {rig : Rig} {k : Nat} {m : Machine} (h : rig.machine? k = some m) :
    (rig.step k).pipes = (m.step rig.pipes).2 := by
  rw [step_of_machine? h]

@[simp] theorem machine?_step_of_ne {k j : Nat} (hkj : k ≠ j) (rig : Rig) :
    (rig.step k).machine? j = rig.machine? j := by
  cases h : rig.machine? k with
  | none => rw [step_of_none h]
  | some m =>
    rw [step_of_machine? h]
    exact machine?_set_of_ne hkj rig _ _

/-- A machine whose step changes nothing leaves the whole rig as it is. -/
theorem step_eq_self {rig : Rig} {k : Nat} {m : Machine} (h : rig.machine? k = some m)
    (hs : m.step rig.pipes = (m, rig.pipes)) : rig.step k = rig := by
  rw [step_of_machine? h, hs, set_machine?_self h]

/-- Steps keep the number of machines. -/
@[simp] theorem machine?_step_isSome (rig : Rig) (k j : Nat) :
    ((rig.step k).machine? j).isSome = (rig.machine? j).isSome := by
  by_cases hkj : k = j
  · subst hkj
    cases h : rig.machine? k with
    | none => rw [step_of_none h, h]
    | some m => simp [h]
  · simp [hkj]

/-! ## Schedules -/

/-- Steps the machines with the given numbers, one after another. -/
def steps (rig : Rig) (ks : List Nat) : Rig :=
  ks.foldl step rig

@[simp] theorem steps_cons (rig : Rig) (k : Nat) (ks : List Nat) :
    rig.steps (k :: ks) = (rig.step k).steps ks := rfl

@[simp] theorem steps_append (rig : Rig) (ks ks' : List Nat) :
    rig.steps (ks ++ ks') = (rig.steps ks).steps ks' :=
  List.foldl_append

theorem steps_induction {P : Rig → Prop} {S : List Nat}
    (hstep : ∀ rig : Rig, ∀ k ∈ S, P rig → P (rig.step k)) {rig : Rig} (h : P rig)
    {ks : List Nat} (hks : ∀ k ∈ ks, k ∈ S) : P (rig.steps ks) := by
  induction ks generalizing rig with
  | nil => exact h
  | cons k rest ih =>
    rw [steps_cons]
    exact ih (hstep rig k (hks k List.mem_cons_self) h)
      fun j hj => hks j (List.mem_cons_of_mem k hj)

@[simp] theorem machine?_steps_isSome (rig : Rig) (ks : List Nat) (j : Nat) :
    ((rig.steps ks).machine? j).isSome = (rig.machine? j).isSome := by
  induction ks generalizing rig with
  | nil => rfl
  | cons k rest ih => rw [steps_cons, ih, machine?_step_isSome]

/-- Machines that a schedule does not name stay as they are. -/
theorem steps_frame {rig : Rig} {ks : List Nat} {j : Nat} (hj : j ∉ ks) :
    (rig.steps ks).machine? j = rig.machine? j := by
  induction ks generalizing rig with
  | nil => rfl
  | cons k rest ih =>
    simp only [List.mem_cons, not_or] at hj
    rw [steps_cons, ih hj.2, machine?_step_of_ne (Ne.symm hj.1)]

/-- All machines of the rig are sound. -/
def Sound (rig : Rig) : Prop :=
  ∀ k m, rig.machine? k = some m → m.Sound

theorem Sound.step {rig : Rig} (h : rig.Sound) (k : Nat) : (rig.step k).Sound := by
  intro j m hm
  by_cases hkj : k = j
  · subst hkj
    cases hk : rig.machine? k with
    | none =>
      rw [step_of_none hk, hk] at hm
      cases hm
    | some m₀ =>
      rw [machine?_step_self hk, Machine.step_eq] at hm
      cases hm
      exact (h k m₀ hk).react _
  · rw [machine?_step_of_ne hkj] at hm
    exact h j m hm

theorem Sound.steps {rig : Rig} (h : rig.Sound) (ks : List Nat) : (rig.steps ks).Sound :=
  steps_induction (fun _ k _ hr => hr.step k) h fun _ hk => hk

/-- Machine `k` is there and at rest. -/
def RestsAt (rig : Rig) (k : Nat) : Prop :=
  ∃ m, rig.machine? k = some m ∧ m.Rests rig.pipes

theorem RestsAt.step_eq {rig : Rig} {k : Nat} (h : rig.RestsAt k) : rig.step k = rig := by
  obtain ⟨m, hm, hr⟩ := h
  exact step_eq_self hm hr.step_eq

/-! ## Runs of one machine -/

/-- A run unfolded by one step. -/
theorem run_succ {rig : Rig} {k : Nat} {m : Machine} (h : rig.machine? k = some m) (fuel : Nat) :
    rig.run (fuel + 1) k =
      if m.status = .halted then some rig
      else if (m.step rig.pipes).1.status = .running then (rig.step k).run fuel k
      else some (rig.step k) := by
  have h' : rig.machines[k]? = some m := h
  have hself : (rig.step k).machines[k]? = some (m.step rig.pipes).1 := machine?_step_self h
  by_cases hh : m.status = .halted
  · simp [run, h', Machine.run, hh, set_machine?_self h]
  · by_cases hr : (m.step rig.pipes).1.status = .running
    · simp only [run, h', hself, Machine.run, hh, hr, if_true, if_false, pipes_step h]
      cases hrun : (m.step rig.pipes).1.run fuel (m.step rig.pipes).2 with
      | none => rfl
      | some r => simp [step_of_machine? h, Array.setIfInBounds_setIfInBounds]
    · simp [run, h', Machine.run, hh, hr, step_of_machine? h]

theorem run_of_none {rig : Rig} {k : Nat} (h : rig.machine? k = none) (fuel : Nat) :
    rig.run fuel k = some rig := by
  have h' : rig.machines[k]? = none := h
  simp only [run, h']

/-- A run of machine `k` is a schedule that names only `k`. -/
theorem steps_of_run {fuel : Nat} {rig rig' : Rig} {k : Nat} (h : rig.run fuel k = some rig') :
    ∃ n, rig' = rig.steps (List.replicate n k) := by
  induction fuel generalizing rig with
  | zero =>
    cases hk : rig.machine? k with
    | none =>
      rw [run_of_none hk] at h
      exact ⟨0, (Option.some.inj h).symm⟩
    | some m =>
      have hk' : rig.machines[k]? = some m := hk
      simp [run, hk', Machine.run] at h
  | succ fuel ih =>
    cases hk : rig.machine? k with
    | none =>
      rw [run_of_none hk] at h
      exact ⟨0, (Option.some.inj h).symm⟩
    | some m =>
      rw [run_succ hk] at h
      split at h
      · -- halted before the first step
        exact ⟨0, (Option.some.inj h).symm⟩
      · split at h
        · -- still running after the first step
          obtain ⟨n, hn⟩ := ih h
          exact ⟨n + 1, hn⟩
        · exact ⟨1, (Option.some.inj h).symm⟩

theorem RestsAt.run_eq {rig : Rig} {k : Nat} (h : rig.RestsAt k) (fuel : Nat) :
    rig.run (fuel + 1) k = some rig := by
  obtain ⟨m, hm, hr⟩ := h
  have hm' : rig.machines[k]? = some m := hm
  simp only [run, hm', hr.run_eq, set_machine?_self hm]

theorem run_mono {fuel fuel' : Nat} {rig rig' : Rig} {k : Nat} (h : rig.run fuel k = some rig')
    (hle : fuel ≤ fuel') : rig.run fuel' k = some rig' := by
  cases hk : rig.machine? k with
  | none =>
    rw [run_of_none hk] at h ⊢
    exact h
  | some m =>
    have hk' : rig.machines[k]? = some m := hk
    simp only [run, hk'] at h ⊢
    cases hr : m.run fuel rig.pipes with
    | none => simp [hr] at h
    | some r =>
      rw [hr] at h
      rw [Machine.run_mono hr hle]
      exact h

/-- A run ends with its machine at rest or faulted. -/
theorem rests_or_faulted_of_run {fuel : Nat} {rig rig' : Rig} {k : Nat} {m : Machine}
    (hk : rig.machine? k = some m) (hm : m.Sound) (h : rig.run fuel k = some rig') :
    ∃ m', rig'.machine? k = some m' ∧ m'.Sound ∧ (m'.Rests rig'.pipes ∨ m'.status = .faulted) := by
  induction fuel generalizing rig m with
  | zero =>
    have hk' : rig.machines[k]? = some m := hk
    simp [run, hk', Machine.run] at h
  | succ fuel ih =>
    have hsound : (m.step rig.pipes).1.Sound := by
      rw [Machine.step_eq]
      exact hm.react _
    rw [run_succ hk] at h
    split at h
    · next hh =>
      cases h
      exact ⟨m, hk, hm, Or.inl (Or.inl hh)⟩
    · split at h
      · exact ih (machine?_step_self hk) hsound h
      · next hr =>
        cases h
        refine ⟨_, machine?_step_self hk, hsound, ?_⟩
        rw [pipes_step hk]
        exact Machine.rests_or_faulted_of_step hsound hr

/-! ## Runs that execute nothing -/

/-- The instruction count of machine `k`. -/
def count (rig : Rig) (k : Nat) : Nat :=
  (rig.machine? k).elim 0 Machine.count

theorem count_of_machine? {rig : Rig} {k : Nat} {m : Machine} (h : rig.machine? k = some m) :
    rig.count k = m.count := by
  rw [count, h]
  rfl

theorem count_le_step (rig : Rig) (k j : Nat) : rig.count j ≤ (rig.step k).count j := by
  by_cases hkj : k = j
  · subst hkj
    cases hk : rig.machine? k with
    | none => exact Nat.le_of_eq (by rw [step_of_none hk])
    | some m =>
      rw [count_of_machine? hk, count_of_machine? (machine?_step_self hk), Machine.step_eq]
      exact (m.reacts_react _).count_le
  · exact Nat.le_of_eq (by simp [count, hkj])

theorem count_le_steps (rig : Rig) (ks : List Nat) (j : Nat) :
    rig.count j ≤ (rig.steps ks).count j := by
  induction ks generalizing rig with
  | nil => exact Nat.le_refl _
  | cons k rest ih => exact Nat.le_trans (count_le_step rig k j) (ih (rig.step k))

/-- Nothing has happened between two rigs but that machines were found waiting. -/
structure Stalls (rig rig' : Rig) : Prop where
  pipes : rig'.pipes = rig.pipes
  machines : ∀ j m, rig.machine? j = some m →
    ∃ m', rig'.machine? j = some m' ∧ (m' = m ∨ m.AtInput ∧ m' = m.await)

theorem Stalls.refl (rig : Rig) : rig.Stalls rig :=
  ⟨rfl, fun _ m hm => ⟨m, hm, Or.inl rfl⟩⟩

theorem Stalls.trans {rig₁ rig₂ rig₃ : Rig} (h : rig₁.Stalls rig₂) (h' : rig₂.Stalls rig₃) :
    rig₁.Stalls rig₃ := by
  refine ⟨h'.pipes.trans h.pipes, ?_⟩
  intro j m hm
  obtain ⟨m', hm', hc⟩ := h.machines j m hm
  obtain ⟨m'', hm'', hc'⟩ := h'.machines j m' hm'
  refine ⟨m'', hm'', ?_⟩
  rcases hc' with rfl | ⟨hi', rfl⟩
  · exact hc
  · rcases hc with rfl | ⟨hi, rfl⟩
    · exact Or.inr ⟨hi', rfl⟩
    · exact Or.inr ⟨hi, rfl⟩

/-- A machine at rest stays at rest while nothing happens. -/
theorem Stalls.restsAt {rig rig' : Rig} (h : rig.Stalls rig') {k : Nat} (hk : rig.RestsAt k) :
    rig'.RestsAt k := by
  obtain ⟨m, hm, hr⟩ := hk
  obtain ⟨m', hm', hc⟩ := h.machines k m hm
  refine ⟨m', hm', ?_⟩
  rw [h.pipes]
  rcases hc with rfl | ⟨hi, rfl⟩
  · exact hr
  · rcases hr with hh | ⟨hw, hr⟩
    · exact absurd (Or.inl hh) hi.1
    · rw [Machine.await_of_waiting hw]
      exact Or.inr ⟨hw, hr⟩

theorem stalls_step {rig : Rig} {k : Nat} {m : Machine} (hm : rig.machine? k = some m)
    (hi : m.AtInput) (hs : m.step rig.pipes = (m.await, rig.pipes)) : rig.Stalls (rig.step k) := by
  refine ⟨by rw [pipes_step hm, hs], ?_⟩
  intro j m' hm'
  by_cases hkj : k = j
  · subst hkj
    rw [hm] at hm'
    cases hm'
    exact ⟨m.await, by simp [hm, hs], Or.inr ⟨hi, rfl⟩⟩
  · exact ⟨m', by simp [hkj, hm'], Or.inl rfl⟩

/-- A run that executes no instruction and does not fault only finds its machine
waiting. -/
theorem stalls_of_run {fuel : Nat} {rig rig' : Rig} {k : Nat} {m m' : Machine}
    (hm : rig.machine? k = some m) (h : rig.run fuel k = some rig')
    (hm' : rig'.machine? k = some m') (hcount : rig'.count k = rig.count k)
    (hf : m'.status ≠ .faulted) : rig.Stalls rig' := by
  cases fuel with
  | zero =>
    have hk : rig.machines[k]? = some m := hm
    simp [run, hk, Machine.run] at h
  | succ fuel =>
    rw [run_succ hm] at h
    split at h
    · cases h
      exact Stalls.refl rig
    · next hh =>
      have hself := machine?_step_self hm
      -- the first step executes nothing either, since counts never go down
      have hstep : (m.step rig.pipes).1.count = m.count := by
        have h₁ := count_le_step rig k k
        have h₂ : (rig.step k).count k ≤ rig'.count k := by
          split at h
          · obtain ⟨n, rfl⟩ := steps_of_run h
            exact count_le_steps _ _ _
          · cases h
            exact Nat.le_refl _
        rw [count_of_machine? hm] at hcount h₁
        rw [count_of_machine? hself] at h₁ h₂
        omega
      have hr := m.reacts_react (rig.pipes.get m.input).queue.head?
      have hafter : (m.step rig.pipes).1 = (m.react (rig.pipes.get m.input).queue.head?).after := by
        rw [Machine.step_eq]
      obtain ⟨-, -, ⟨hs, ha⟩ | ha | ⟨hq, ha⟩⟩ := hr.of_count_eq (by rw [← hafter, hstep])
      · -- a stopped machine that has not halted has faulted
        have hsf : m.status = .faulted := hs.resolve_left hh
        rw [hafter, ha, if_neg (by simp [hsf])] at h
        cases h
        rw [hself, hafter, ha] at hm'
        cases hm'
        exact absurd hsf hf
      · -- a fault in the first step is excluded as well
        rw [hafter, if_neg (by simp [ha])] at h
        cases h
        rw [hself, hafter] at hm'
        cases hm'
        exact absurd ha hf
      · -- the first step finds the machine waiting, and the run is over
        rw [hafter, ha, if_neg (by simp [Machine.await])] at h
        cases h
        obtain ⟨-, hi, -⟩ := hr.of_waiting (by rw [ha]; rfl)
        exact stalls_step hm hi (Machine.step_of_atInput hi (List.head?_eq_none_iff.1 hq))

end Rig

end CellMachine
