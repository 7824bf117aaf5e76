import CellMachine.Proofs.Schedule
import Mathlib.Logic.Relation

/-!
# Independence of the schedule

Machines are `Separate` if no two of them read from one pipe and no two write to
one pipe. Steps of two separate machines commute unless one of them would only
wait (`Rig.step_comm`), and waiting is forgotten by `Rig.wake`. So steps up to
waking have the diamond property, and by the Church-Rosser theorem a rig in which
all machines rest can still be reached from every point of every schedule
(`Rig.steps_to_rest`).
-/

set_option autoImplicit false

namespace CellMachine

open Relation

namespace Rig

/-- No two of the machines share a pipe that both read, or one that both write. -/
def Separate (rig : Rig) (S : List Nat) : Prop :=
  ∀ i ∈ S, ∀ j ∈ S, i ≠ j → ∀ m m', rig.machine? i = some m → rig.machine? j = some m' →
    m.input ≠ m'.input ∧ m.output ≠ m'.output

/-- The wiring of a machine does not change. -/
theorem wiring_step {rig : Rig} {k j : Nat} {m : Machine}
    (h : (rig.step k).machine? j = some m) :
    ∃ m₀, rig.machine? j = some m₀ ∧ m.input = m₀.input ∧ m.output = m₀.output := by
  by_cases hkj : k = j
  · subst hkj
    cases hk : rig.machine? k with
    | none =>
      rw [step_of_none hk, hk] at h
      cases h
    | some m₀ =>
      rw [machine?_step_self hk, Machine.step_eq] at h
      cases h
      obtain ⟨hin, hout, -⟩ := (m₀.reacts_react _).wiring
      exact ⟨m₀, rfl, hin, hout⟩
  · rw [machine?_step_of_ne hkj] at h
    exact ⟨m, h, rfl, rfl⟩

theorem exists_machine?_step {rig : Rig} {j : Nat} {m : Machine} (h : rig.machine? j = some m)
    (k : Nat) :
    ∃ m', (rig.step k).machine? j = some m' ∧ m'.input = m.input ∧ m'.output = m.output := by
  have hsome : ((rig.step k).machine? j).isSome := by rw [machine?_step_isSome, h]; rfl
  obtain ⟨m', hm'⟩ := Option.isSome_iff_exists.1 hsome
  obtain ⟨m₀, hm₀, hwiring⟩ := wiring_step hm'
  rw [h] at hm₀
  cases hm₀
  exact ⟨m', hm', hwiring⟩

theorem Separate.step {rig : Rig} {S : List Nat} (h : rig.Separate S) (k : Nat) :
    (rig.step k).Separate S := by
  intro i hi j hj hij m m' hm hm'
  obtain ⟨m₀, hm₀, hin, hout⟩ := wiring_step hm
  obtain ⟨m₁, hm₁, hin', hout'⟩ := wiring_step hm'
  rw [hin, hout, hin', hout']
  exact h i hi j hj hij m₀ m₁ hm₀ hm₁

/-! ## Commuting steps -/

/-- The machine has something to read if it is about to read. -/
def Ready (m : Machine) (t : PipeTable) : Prop :=
  m.AtInput → (t.get m.input).queue ≠ []

/-- What another machine sends does not change the reaction of a machine that is
ready. -/
theorem react_after_traffic {m m' : Machine} {t : PipeTable} (hin : m.input ≠ m'.input)
    (hr : Ready m' t) (takes : Bool) (sends : Option Cell) :
    m'.react ((((t.draw m.input takes).feed m.output sends).get m'.input).queue.head?) =
      m'.react (t.get m'.input).queue.head? := by
  by_cases hi : m'.AtInput
  · have hdraw : (t.draw m.input takes).get m'.input = t.get m'.input :=
      PipeTable.get_draw_of_ne hin t takes
    rw [PipeTable.head?_queue_feed (by rw [hdraw]; exact hr hi), hdraw]
  · exact Machine.react_of_not_atInput hi _ _

/-- Traffic of two machines on different ends of the pipes commutes. -/
theorem traffic_comm {t : PipeTable} {i o i' o' : Nat} {b b' : Bool} (hin : i ≠ i') (hout : o ≠ o')
    (hb : b = true → (t.get i).queue ≠ []) (hb' : b' = true → (t.get i').queue ≠ [])
    (s s' : Option Cell) :
    (((t.draw i b).feed o s).draw i' b').feed o' s' =
      (((t.draw i' b').feed o' s').draw i b).feed o s := by
  have hb₁ : b' = true → ((t.draw i b).get i').queue ≠ [] := by
    rw [PipeTable.get_draw_of_ne hin]
    exact hb'
  have hb₂ : b = true → ((t.draw i' b').get i).queue ≠ [] := by
    rw [PipeTable.get_draw_of_ne hin.symm]
    exact hb
  rw [PipeTable.feed_draw_comm hb₁, PipeTable.feed_draw_comm hb₂, PipeTable.draw_comm hin,
    PipeTable.feed_comm hout]

theorem queue_ne_nil_of_takes {m : Machine} {t : PipeTable}
    (h : (m.react (t.get m.input).queue.head?).takes = true) : (t.get m.input).queue ≠ [] := by
  intro hq
  have hne := (m.reacts_react (t.get m.input).queue.head?).head_ne_none h
  rw [hq] at hne
  exact hne rfl

/-- Steps of two machines that are ready commute. -/
theorem step_comm {rig : Rig} {i j : Nat} (hij : i ≠ j) {m m' : Machine}
    (hm : rig.machine? i = some m) (hm' : rig.machine? j = some m')
    (hin : m.input ≠ m'.input) (hout : m.output ≠ m'.output)
    (hr : Ready m rig.pipes) (hr' : Ready m' rig.pipes) :
    (rig.step i).step j = (rig.step j).step i := by
  have hj : (rig.step i).machine? j = some m' := by simp [hij, hm']
  have hi : (rig.step j).machine? i = some m := by simp [hij.symm, hm]
  rw [step_of_machine? hj, step_of_machine? hi, pipes_step hm, pipes_step hm',
    step_of_machine? hm, step_of_machine? hm']
  simp only [Machine.step_eq]
  -- each machine reacts the same way before and after the step of the other
  rw [react_after_traffic hin hr', react_after_traffic hin.symm hr,
    Array.setIfInBounds_comm _ _ hij]
  congr 1
  exact traffic_comm hin hout queue_ne_nil_of_takes queue_ne_nil_of_takes _ _

/-! ## Steps up to waking -/

/-- The rig with the waiting status of all machines forgotten. -/
def wake (rig : Rig) : Rig :=
  ⟨rig.machines.map Machine.wake, rig.pipes⟩

theorem machine?_wake (rig : Rig) (k : Nat) :
    rig.wake.machine? k = (rig.machine? k).map Machine.wake :=
  Array.getElem?_map

theorem pipes_eq_of_wake_eq {rig rig' : Rig} (h : rig.wake = rig'.wake) :
    rig.pipes = rig'.pipes := by
  have hp : rig.wake.pipes = rig'.wake.pipes := by rw [h]
  exact hp

theorem wake_wake (rig : Rig) : rig.wake.wake = rig.wake := by
  have h : ∀ m : Machine, m.wake.wake = m.wake := by
    intro m
    by_cases hw : m.status = .waiting
    · simp [Machine.wake, hw]
    · rw [Machine.wake_of_ne hw, Machine.wake_of_ne hw]
  simp only [wake, Array.map_map]
  congr 1
  exact Array.map_congr_left fun m _ => h m

/-- Waking before a step makes no difference after it. -/
theorem wake_step_wake (rig : Rig) (k : Nat) : (rig.wake.step k).wake = (rig.step k).wake := by
  cases hk : rig.machine? k with
  | none =>
    have hk' : rig.wake.machine? k = none := by rw [machine?_wake, hk]; rfl
    rw [step_of_none hk, step_of_none hk', wake_wake]
  | some m =>
    have hk' : rig.wake.machine? k = some m.wake := by rw [machine?_wake, hk]; rfl
    have hpipes : rig.wake.pipes = rig.pipes := rfl
    rw [step_of_machine? hk, step_of_machine? hk', hpipes, Machine.step_wake]
    simp only [wake, Array.map_setIfInBounds]
    congr 2
    simpa only [wake] using congrArg Rig.machines (wake_wake rig)

theorem wake_steps_congr {rig rig' : Rig} (h : rig.wake = rig'.wake) (ks : List Nat) :
    (rig.steps ks).wake = (rig'.steps ks).wake := by
  induction ks generalizing rig rig' with
  | nil => exact h
  | cons k rest ih =>
    apply ih
    rw [← wake_step_wake, h, wake_step_wake]

theorem Sound.wake {rig : Rig} (h : rig.Sound) : rig.wake.Sound := by
  intro k m hm
  rw [machine?_wake] at hm
  obtain ⟨m₀, hm₀, rfl⟩ := Option.map_eq_some_iff.1 hm
  by_cases hw : m₀.status = .waiting
  · have hs : m₀.wake.status = .running := by simp [Machine.wake, hw]
    exact ⟨by simp [hs], by simp [hs], by simp [hs]⟩
  · rw [Machine.wake_of_ne hw]
    exact h k m₀ hm₀

theorem Separate.wake {rig : Rig} {S : List Nat} (h : rig.Separate S) : rig.wake.Separate S := by
  intro i hi j hj hij m m' hm hm'
  rw [machine?_wake] at hm hm'
  obtain ⟨m₀, hm₀, rfl⟩ := Option.map_eq_some_iff.1 hm
  obtain ⟨m₁, hm₁, rfl⟩ := Option.map_eq_some_iff.1 hm'
  simp only [Machine.wake_input, Machine.wake_output]
  exact h i hi j hj hij m₀ m₁ hm₀ hm₁

/-- A step of a machine that is not ready is forgotten. -/
theorem wake_step_of_not_ready {rig : Rig} {k : Nat} {m : Machine} (hs : rig.Sound)
    (hm : rig.machine? k = some m) (hr : ¬ Ready m rig.pipes) : (rig.step k).wake = rig.wake := by
  obtain ⟨hi, hq⟩ : m.AtInput ∧ (rig.pipes.get m.input).queue = [] := by
    simpa [Ready] using hr
  have hwake : m.await.wake = m.wake := Machine.wake_await m hi.1 (hs k m hm).known
  rw [step_of_machine? hm, Machine.step_of_atInput hi hq]
  simp only [wake, Array.map_setIfInBounds, hwake]
  have hself : rig.wake.machine? k = some m.wake := by rw [machine?_wake, hm]; rfl
  congr 1
  exact set_machine?_self hself

/-- Steps of machines in `S` up to waking, from rigs in which these are sound and
separate. -/
def WakeStep (S : List Nat) (rig rig' : Rig) : Prop :=
  (rig.Sound ∧ rig.Separate S ∧ rig.wake = rig) ∧ ∃ k ∈ S, rig' = (rig.step k).wake

theorem WakeStep.keeps {S : List Nat} {rig rig' : Rig} (h : WakeStep S rig rig') :
    rig'.Sound ∧ rig'.Separate S ∧ rig'.wake = rig' := by
  obtain ⟨⟨hs, hsep, -⟩, k, -, rfl⟩ := h
  exact ⟨(hs.step k).wake, (hsep.step k).wake, wake_wake _⟩

/-- Two steps of one rig can be completed by one step each, unless they are the
same or one of them does nothing. -/
theorem wakeStep_diamond {S : List Nat} {rig a b : Rig} (ha : WakeStep S rig a)
    (hb : WakeStep S rig b) : ∃ d, ReflGen (WakeStep S) a d ∧ ReflTransGen (WakeStep S) b d := by
  obtain ⟨hinv, i, hi, hai⟩ := ha
  obtain ⟨-, j, hj, hbj⟩ := hb
  obtain ⟨hs, hsep, hw⟩ := hinv
  have ha' : WakeStep S rig a := ⟨⟨hs, hsep, hw⟩, i, hi, hai⟩
  have hb' : WakeStep S rig b := ⟨⟨hs, hsep, hw⟩, j, hj, hbj⟩
  -- a step without effect leads back to the rig, and the other step is the join
  have left : a = rig → ∃ d, ReflGen (WakeStep S) a d ∧ ReflTransGen (WakeStep S) b d := by
    rintro rfl
    exact ⟨b, .single hb', .refl⟩
  have right : b = rig → ∃ d, ReflGen (WakeStep S) a d ∧ ReflTransGen (WakeStep S) b d := by
    rintro rfl
    exact ⟨a, .refl, .single ha'⟩
  by_cases hij : i = j
  · subst hij
    rw [hai, hbj]
    exact ⟨_, .refl, .refl⟩
  cases hm : rig.machine? i with
  | none => exact left (by rw [hai, step_of_none hm, hw])
  | some m =>
    cases hm' : rig.machine? j with
    | none => exact right (by rw [hbj, step_of_none hm', hw])
    | some m' =>
      by_cases hr : Ready m rig.pipes
      · by_cases hr' : Ready m' rig.pipes
        · -- both have an effect, and either may come first
          obtain ⟨hin, hout⟩ := hsep i hi j hj hij m m' hm hm'
          have hcomm := step_comm hij hm hm' hin hout hr hr'
          refine ⟨((rig.step i).step j).wake, .single ⟨ha'.keeps, j, hj, ?_⟩,
            .single ⟨hb'.keeps, i, hi, ?_⟩⟩
          · rw [hai, wake_step_wake]
          · rw [hbj, wake_step_wake, hcomm]
        · exact right (by rw [hbj, wake_step_of_not_ready hs hm' hr', hw])
      · exact left (by rw [hai, wake_step_of_not_ready hs hm hr, hw])

/-- A schedule is a sequence of steps up to waking. -/
theorem wakeSteps_of_steps {S ks : List Nat} (hks : ∀ k ∈ ks, k ∈ S) {rig : Rig} (hs : rig.Sound)
    (hsep : rig.Separate S) : ReflTransGen (WakeStep S) rig.wake (rig.steps ks).wake := by
  induction ks generalizing rig with
  | nil => exact .refl
  | cons k rest ih =>
    have hk : k ∈ S := hks k List.mem_cons_self
    have hstep : WakeStep S rig.wake (rig.step k).wake :=
      ⟨⟨hs.wake, hsep.wake, wake_wake rig⟩, k, hk, (wake_step_wake rig k).symm⟩
    exact .head hstep
      (ih (fun j hj => hks j (List.mem_cons_of_mem k hj)) (hs.step k) (hsep.step k))

/-- A sequence of steps up to waking comes from a schedule. -/
theorem steps_of_wakeSteps {S : List Nat} {rig d : Rig}
    (h : ReflTransGen (WakeStep S) rig.wake d) :
    ∃ ks, (∀ k ∈ ks, k ∈ S) ∧ d = (rig.steps ks).wake := by
  induction h with
  | refl => exact ⟨[], by simp, rfl⟩
  | tail _ hstep ih =>
    obtain ⟨ks, hks, rfl⟩ := ih
    obtain ⟨-, k, hk, rfl⟩ := hstep
    refine ⟨ks ++ [k], ?_, ?_⟩
    · intro j hj
      rcases List.mem_append.1 hj with hj | hj
      · exact hks j hj
      · rw [List.mem_singleton.1 hj]
        exact hk
    · rw [wake_step_wake, steps_append]
      rfl

/-! ## Rigs at rest -/

section Rest

variable {rig final : Rig} {S : List Nat}

/-- No step up to waking leads away from a rig at rest. -/
theorem wakeSteps_fixed (hrest : ∀ k ∈ S, final.RestsAt k) {d : Rig}
    (h : ReflTransGen (WakeStep S) final.wake d) : d = final.wake := by
  induction h with
  | refl => rfl
  | tail _ hstep ih =>
    obtain ⟨-, k, hk, rfl⟩ := hstep
    rw [ih, wake_step_wake, (hrest k hk).step_eq]

/-- One more step gives a machine the status it has at rest. -/
theorem settle_step {k : Nat} (hw : rig.wake = final.wake) (hk : final.RestsAt k) :
    (rig.step k).machine? k = final.machine? k ∧ (rig.step k).wake = final.wake := by
  constructor
  · obtain ⟨mf, hmf, hrest⟩ := hk
    have hmk : rig.wake.machine? k = some mf.wake := by rw [hw, machine?_wake, hmf]; rfl
    rw [machine?_wake] at hmk
    obtain ⟨m, hm, hmw⟩ := Option.map_eq_some_iff.1 hmk
    have hpipes : rig.pipes = final.pipes := pipes_eq_of_wake_eq hw
    rw [machine?_step_self hm, hmf, ← Machine.step_wake, hmw, Machine.step_wake, hpipes,
      hrest.step_eq]
  · rw [← wake_step_wake, hw, wake_step_wake, hk.step_eq]

/-- One more step of each machine turns a rig that is at rest up to waking into
the one at rest. -/
theorem settle_steps {L : List Nat} (hw : rig.wake = final.wake)
    (hL : ∀ k ∈ L, final.RestsAt k) :
    (rig.steps L).wake = final.wake ∧ ∀ k ∈ L, (rig.steps L).machine? k = final.machine? k := by
  induction L generalizing rig with
  | nil => exact ⟨hw, by simp⟩
  | cons k rest ih =>
    obtain ⟨hself, hw'⟩ := settle_step hw (hL k List.mem_cons_self)
    obtain ⟨hwake, hrest⟩ := ih hw' fun j hj => hL j (List.mem_cons_of_mem k hj)
    refine ⟨hwake, ?_⟩
    intro j hj
    by_cases hjr : j ∈ rest
    · exact hrest j hjr
    · -- a machine that is stepped no more keeps what it has settled to
      obtain rfl : j = k := by simpa [hjr] using hj
      rw [steps_cons, steps_frame hjr, hself]

theorem steps_eq_of_wake_eq (hw : rig.wake = final.wake) (hrest : ∀ k ∈ S, final.RestsAt k)
    (hframe : ∀ j, j ∉ S → rig.machine? j = final.machine? j) : rig.steps S = final := by
  obtain ⟨hwake, hset⟩ := settle_steps hw hrest
  refine Rig.ext (Array.ext_getElem? fun j => ?_) (pipes_eq_of_wake_eq hwake)
  by_cases hj : j ∈ S
  · exact hset j hj
  · exact (steps_frame hj).trans (hframe j hj)

/-- Machines outside of `S` are not stepped. -/
theorem machine?_steps_of_notMem {ks : List Nat} (hks : ∀ k ∈ ks, k ∈ S) {j : Nat} (hj : j ∉ S) :
    (rig.steps ks).machine? j = rig.machine? j :=
  steps_frame fun hjk => hj (hks j hjk)

/-- From every point of every schedule, a rig at rest that some schedule reaches
can still be reached. -/
theorem steps_to_rest (hs : rig.Sound) (hsep : rig.Separate S) {sched : List Nat}
    (hsched : ∀ k ∈ sched, k ∈ S) (hfinal : rig.steps sched = final)
    (hrest : ∀ k ∈ S, final.RestsAt k) {ks : List Nat} (hks : ∀ k ∈ ks, k ∈ S) :
    ∃ ks', (∀ k ∈ ks', k ∈ S) ∧ rig.steps (ks ++ ks') = final := by
  have hleft := wakeSteps_of_steps hsched hs hsep
  have hright := wakeSteps_of_steps hks hs hsep
  rw [hfinal] at hleft
  obtain ⟨d, hfd, hkd⟩ := church_rosser (fun _ _ _ => wakeStep_diamond) hleft hright
  -- the common rig of both schedules is the one at rest, up to waking
  rw [wakeSteps_fixed hrest hfd] at hkd
  obtain ⟨ks', hks', hw⟩ := steps_of_wakeSteps hkd
  refine ⟨ks' ++ S, ?_, ?_⟩
  · intro k hk
    exact (List.mem_append.1 hk).elim (hks' k) id
  · rw [steps_append, steps_append]
    apply steps_eq_of_wake_eq hw.symm hrest
    intro j hj
    rw [machine?_steps_of_notMem hks' hj, machine?_steps_of_notMem hks hj, ← hfinal,
      machine?_steps_of_notMem hsched hj]

theorem steps_fixed (h : ∀ k ∈ S, rig.step k = rig) {ks : List Nat} (hks : ∀ k ∈ ks, k ∈ S) :
    rig.steps ks = rig := by
  induction ks with
  | nil => rfl
  | cons k rest ih =>
    rw [steps_cons, h k (hks k List.mem_cons_self)]
    exact ih fun j hj => hks j (List.mem_cons_of_mem k hj)

/-- A fault stays through every schedule. -/
theorem faulted_steps {k : Nat} {m : Machine} (hm : rig.machine? k = some m)
    (hf : m.status = .faulted) (ks : List Nat) : (rig.steps ks).machine? k = some m := by
  induction ks generalizing rig with
  | nil => exact hm
  | cons j rest ih =>
    apply ih
    by_cases hjk : j = k
    · subst hjk
      rw [machine?_step_self hm, Machine.step_of_stopped (Or.inr hf)]
    · simp [hjk, hm]

theorem RestsAt.not_faulted {k : Nat} (h : final.RestsAt k) {m : Machine}
    (hm : final.machine? k = some m) : m.status ≠ .faulted := by
  obtain ⟨m', hm', hr⟩ := h
  rw [hm'] at hm
  cases hm
  rcases hr with hh | ⟨hw, -⟩
  · rw [hh]
    nofun
  · rw [hw]
    nofun

end Rest

end Rig

end CellMachine
