import CellMachine.Proofs.Independence
import CellMachine.Proofs.LateInput
import CellMachine.Proofs.Progress
import CellMachine.Proofs.Signal
import CellMachine.Proofs.Verdict

/-!
# Seeding a chain in parts

No machine of a chain writes to the pipe that is seeded. So what is seeded later commutes
with all that the machines do before, except that a machine which waits on one side need
not wait on the other (`Rig.Fed.steps_writeAll`): a rig at rest that is reached with a
pause before the last values is reached without it as well (`Rig.Fed.steps_to_rest`).

Machines that are separate and that some schedule brings to rest are brought there by a
call of the network, too (`Network.returns_of_rest`). All they can execute on any schedule
is what they have executed at rest, and a call does not spin.

Both together say that a chain can be seeded in parts with calls in between, or all at
once with a single call in the end (`Network.incremental_seeding`).
-/

set_option autoImplicit false

namespace CellMachine

namespace Rig

/-! ## Arrivals from outside -/

/-- Machine `k` reads from pipe `i`, and no machine of `S` writes to it. -/
structure Fed (rig : Rig) (S : List Nat) (k i : Nat) : Prop where
  there : ∃ m, rig.machine? k = some m ∧ m.input = i
  unwritten : ∀ j ∈ S, ∀ m, rig.machine? j = some m → m.output ≠ i

section Arrivals

variable {rig : Rig} {S : List Nat} {k i : Nat}

@[simp] theorem machine?_writeAll (rig : Rig) (k j : Nat) (values : List Cell) :
    (rig.writeAll k values).machine? j = rig.machine? j := by
  induction values generalizing rig with
  | nil => rfl
  | cons v rest ih => exact (ih (rig.write k v)).trans (machine?_write rig k j v)

theorem wake_writeAll (rig : Rig) (k : Nat) (values : List Cell) :
    (rig.writeAll k values).wake = rig.wake.writeAll k values := by
  have hwrite : ∀ (rig : Rig) (v : Cell), (rig.write k v).wake = rig.wake.write k v := by
    intro rig v
    cases hk : rig.machine? k with
    | none =>
      have hk' : rig.wake.machine? k = none := by rw [machine?_wake, hk]; rfl
      simp only [write, hk, hk']
    | some m =>
      have hk' : rig.wake.machine? k = some m.wake := by rw [machine?_wake, hk]; rfl
      rw [write_of_machine? hk, write_of_machine? hk', Machine.wake_input]
      rfl
  induction values generalizing rig with
  | nil => rfl
  | cons v rest ih =>
    show ((rig.write k v).writeAll k rest).wake = (rig.wake.write k v).writeAll k rest
    rw [ih, hwrite]

theorem Fed.step (h : rig.Fed S k i) (j : Nat) : (rig.step j).Fed S k i := by
  refine ⟨?_, ?_⟩
  · obtain ⟨m, hm, rfl⟩ := h.there
    obtain ⟨m', hm', hin, -⟩ := exists_machine?_step hm j
    exact ⟨m', hm', hin⟩
  · intro l hl m hm
    obtain ⟨m₀, hm₀, -, hout⟩ := wiring_step hm
    rw [hout]
    exact h.unwritten l hl m₀ hm₀

/-- What arrives later commutes with a step, unless the step finds nothing to read, and then
the step is forgotten. -/
theorem Fed.step_writeAll (h : rig.Fed S k i) (hs : rig.Sound) {j : Nat} (hj : j ∈ S)
    (values : List Cell) :
    (rig.writeAll k values).step j = (rig.step j).writeAll k values ∨
      (rig.writeAll k values).wake = ((rig.step j).writeAll k values).wake := by
  obtain ⟨m, hm, hin⟩ := h.there
  cases hj' : rig.machine? j with
  | none =>
    right
    rw [step_of_none hj']
  | some m' =>
    have hout : m'.output ≠ m.input := hin ▸ h.unwritten j hj m' hj'
    by_cases hr : Ready m' rig.pipes
    · left
      exact Rig.step_writeAll hm hj' hout (fun _ => hr) values
    · -- the step only notes that the machine waits
      right
      rw [wake_writeAll, wake_writeAll, wake_step_of_not_ready hs hj' hr]

/-- A schedule before an arrival can be made up for after it, up to waking. -/
theorem Fed.steps_writeAll (h : rig.Fed S k i) (hs : rig.Sound) {ks : List Nat}
    (hks : ∀ j ∈ ks, j ∈ S) (values : List Cell) :
    ∃ ks', (∀ j ∈ ks', j ∈ S) ∧
      ((rig.writeAll k values).steps ks').wake = ((rig.steps ks).writeAll k values).wake := by
  induction ks generalizing rig with
  | nil => exact ⟨[], by simp, rfl⟩
  | cons j rest ih =>
    have hj : j ∈ S := hks j List.mem_cons_self
    obtain ⟨ks', hks', hw⟩ :=
      ih (h.step j) (hs.step j) fun l hl => hks l (List.mem_cons_of_mem j hl)
    rcases h.step_writeAll hs hj values with hstep | hwake
    · refine ⟨j :: ks', ?_, ?_⟩
      · intro l hl
        rcases List.mem_cons.1 hl with rfl | hl
        · exact hj
        · exact hks' l hl
      · rw [steps_cons, hstep]
        exact hw
    · refine ⟨ks', hks', ?_⟩
      rw [wake_steps_congr hwake]
      exact hw

/-- A rig at rest that is reached with a pause before an arrival is reached without the
pause. -/
theorem Fed.steps_to_rest {final : Rig} (h : rig.Fed S k i) (hs : rig.Sound) {ks ks₂ : List Nat}
    (hks : ∀ j ∈ ks, j ∈ S) (hks₂ : ∀ j ∈ ks₂, j ∈ S) {values : List Cell}
    (hfinal : ((rig.steps ks).writeAll k values).steps ks₂ = final)
    (hrest : ∀ j ∈ S, final.RestsAt j) :
    ∃ sched, (∀ j ∈ sched, j ∈ S) ∧ (rig.writeAll k values).steps sched = final := by
  obtain ⟨ks₁, hks₁, hw⟩ := h.steps_writeAll hs hks values
  have hwake : (((rig.writeAll k values).steps ks₁).steps ks₂).wake = final.wake := by
    rw [wake_steps_congr hw, hfinal]
  refine ⟨ks₁ ++ ks₂ ++ S, ?_, ?_⟩
  · intro j hj
    rcases List.mem_append.1 hj with hj | hj
    · exact (List.mem_append.1 hj).elim (hks₁ j) (hks₂ j)
    · exact hj
  · rw [steps_append, steps_append]
    apply steps_eq_of_wake_eq hwake hrest
    intro j hj
    rw [machine?_steps_of_notMem hks₂ hj, machine?_steps_of_notMem hks₁ hj, machine?_writeAll,
      ← hfinal, machine?_steps_of_notMem hks₂ hj, machine?_writeAll,
      machine?_steps_of_notMem hks hj]

end Arrivals

end Rig

namespace Network

/-! ## Calls come to rest -/

section Calls

variable {nw nw' : Network} {rig rig' : Rig} {e : Option RunError}

theorem Returns.limit (h : nw.Returns rig (nw', rig', e)) : nw'.limit = nw.limit := by
  obtain ⟨nw₁, rig₁, hreach, hends⟩ := h.cases
  have hlimit₁ : nw₁.limit = nw.limit := limit_of_continues hreach
  cases hends with
  | halted | limit => exact hlimit₁
  | fault _ _ hround | deadlock _ _ hround =>
    obtain ⟨rfl, -⟩ := round_eq_some.1 hround
    exact hlimit₁

theorem Returns.schedule (h : nw.Returns rig (nw', rig', e)) :
    nw'.members = nw.members ∧
      ∃ sched, (∀ k ∈ sched, k ∈ nw.members) ∧ rig.steps sched = rig' := by
  obtain ⟨least, hrun⟩ := h
  exact steps_of_run (hrun least (Nat.le_refl least))

theorem Returns.verdict (hs : rig.Sound) (hi : nw.Installed rig)
    (h : nw.Returns rig (nw', rig', e)) : nw'.Verdict rig' e := by
  obtain ⟨nw₁, rig₁, hreach, hends⟩ := h.cases
  obtain ⟨hs₁, hi₁, -⟩ := Continues.intact hs hi hreach
  exact hends.verdict hs₁ hi₁

theorem Returns.eq_none_iff (hs : rig.Sound) (hi : nw.Installed rig)
    (h : nw.Returns rig (nw', rig', e)) :
    e = none ↔ ∀ m ∈ nw.machines rig', m.status = .halted := by
  rw [(h.verdict hs hi).halted, machines, machines, h.schedule.1]

/-- Without a limit, a call that reports no machine has come to rest. -/
theorem Returns.rests (hs : rig.Sound) (hi : nw.Installed rig) (hlimit : nw.limit = 0)
    (h : nw.Returns rig (nw', rig', e)) (hf : ∀ position f, e ≠ some (.machine position f)) :
    ∀ k ∈ nw.members, rig'.RestsAt k := by
  have hcase : e = none ∨ ∃ round waiting, e = some (.deadlock round waiting) := by
    obtain ⟨nw₁, rig₁, hreach, hends⟩ := h.cases
    cases hends with
    | halted => exact Or.inl rfl
    | limit _ hx =>
      have hlimit₁ : nw'.limit = 0 := h.limit.trans hlimit
      simp [exhausted, hlimit₁] at hx
    | fault _ _ hround =>
      obtain ⟨-, ht⟩ := round_eq_some.1 hround
      obtain ⟨position, -, -, f, rfl, -⟩ := faulted_of_turns ht
      exact absurd rfl (hf _ f)
    | deadlock => exact Or.inr ⟨_, _, rfl⟩
  obtain ⟨least, hrun⟩ := h
  exact rests_of_run hs hi (hrun least (Nat.le_refl least)) hcase

end Calls

section Rest

variable {nw : Network} {rig final : Rig} {sched : List Nat}

/-- Machines that some schedule brings to rest execute a bounded number of instructions in
a call. -/
theorem executions_trace_le (hs : rig.Sound) (hsep : rig.Separate nw.members)
    (hsched : ∀ k ∈ sched, k ∈ nw.members) (hfinal : rig.steps sched = final)
    (hrest : ∀ k ∈ nw.members, final.RestsAt k) (fuel : Nat) :
    rig.executions (nw.trace fuel rig).flatten ≤ final.total nw.members := by
  have hmem : ∀ k ∈ (nw.trace fuel rig).flatten, k ∈ nw.members := fun _ hk => mem_traceFrom hk
  -- the call can still be completed to the rig at rest
  obtain ⟨ks', -, hks'⟩ := Rig.steps_to_rest hs hsep hsched hfinal hrest hmem
  have htrace : rig.total nw.members + _ ≤ _ := Rig.total_steps hmem
  have hrest := (rig.steps (nw.trace fuel rig).flatten).total_le_steps ks' nw.members
  rw [← Rig.steps_append, hks'] at hrest
  omega

/-- If some schedule brings separate machines to rest, then so does a call, in the same
state. -/
theorem returns_of_rest (hs : rig.Sound) (hi : nw.Installed rig) (hsep : rig.Separate nw.members)
    (hlimit : nw.limit = 0) (hsched : ∀ k ∈ sched, k ∈ nw.members)
    (hfinal : rig.steps sched = final) (hrest : ∀ k ∈ nw.members, final.RestsAt k) :
    ∃ nw' e, nw.Returns rig (nw', final, e) ∧
      (e = none ↔ ∀ m ∈ nw.machines final, m.status = .halted) := by
  obtain ⟨nw', rig', e, hret, -⟩ :=
    returns_of_executions_le hs hi (executions_trace_le hs hsep hsched hfinal hrest)
  obtain ⟨hmem, ks, hks, hsteps⟩ := hret.schedule
  obtain ⟨ks', hks', hend⟩ := Rig.steps_to_rest hs hsep hsched hfinal hrest hks
  rw [Rig.steps_append, hsteps] at hend
  have hf : ∀ position f, e ≠ some (.machine position f) := by
    intro position f he
    -- the fault would still be there at rest
    obtain ⟨m, hm, hfault, -⟩ := (hret.verdict hs hi).fault position f he
    obtain ⟨k, hk, hkm⟩ := mem_machines.1 (List.mem_of_getElem? hm)
    rw [hmem] at hk
    have hstill := Rig.faulted_steps hkm hfault ks'
    rw [hend] at hstill
    exact (hrest k hk).not_faulted hstill hfault
  have hrest' := hret.rests hs hi hlimit hf
  have heq : rig' = final := by
    rw [← hend, Rig.steps_fixed (fun k hk => (hrest' k hk).step_eq) hks']
  subst heq
  exact ⟨nw', e, hret, hret.eq_none_iff hs hi⟩

end Rest

/-! ## Chains -/

/-- Seeding is writing to the first machine. -/
theorem seedAll_eq_writeAll {nw : Network} {k : Nat} (h : nw.members.head? = some k) (rig : Rig)
    (values : List Cell) : nw.seedAll rig values = rig.writeAll k values := by
  have hseed : ∀ (rig : Rig) (v : Cell), nw.seed rig v = rig.write k v := by
    intro rig v
    simp only [seed, first?, h, Option.bind_some, Rig.write]
    cases rig.machine? k <;> rfl
  induction values generalizing rig with
  | nil => rfl
  | cons v rest ih =>
    show nw.seedAll (nw.seed rig v) rest = (rig.write k v).writeAll k rest
    rw [ih, hseed]

section Seeded

variable {nw : Network} {rig : Rig} {S : List Nat}

theorem sound_seedAll (h : rig.Sound) (nw : Network) (values : List Cell) :
    (nw.seedAll rig values).Sound := by
  intro k m hm
  rw [machine?_seedAll] at hm
  exact h k m hm

theorem Installed.seedAll (h : nw.Installed rig) (values : List Cell) :
    nw.Installed (nw.seedAll rig values) := by
  intro k hk
  rw [machine?_seedAll]
  exact h k hk

theorem separate_seedAll (h : rig.Separate S) (nw : Network) (values : List Cell) :
    (nw.seedAll rig values).Separate S := by
  intro i hi j hj hij m m' hm hm'
  rw [machine?_seedAll] at hm hm'
  exact h i hi j hj hij m m' hm hm'

end Seeded

/-- A network whose input comes from outside can be given more of it between two calls, or
before a single one. -/
theorem returns_of_parts {nw nw₁ nw₂ : Network} {rig rig₁ rig₂ : Rig} {e₁ e₂ : Option RunError}
    {k i : Nat} (hs : rig.Sound) (hi : nw.Installed rig) (hsep : rig.Separate nw.members)
    (hlimit : nw.limit = 0) (hhead : nw.members.head? = some k) (hfed : rig.Fed nw.members k i)
    {values : List Cell} (h₁ : nw.Returns rig (nw₁, rig₁, e₁))
    (h₂ : nw₁.Returns (nw₁.seedAll rig₁ values) (nw₂, rig₂, e₂))
    (hf₂ : ∀ position f, e₂ ≠ some (.machine position f)) :
    ∃ nw' e, nw.Returns (nw.seedAll rig values) (nw', rig₂, e) ∧ (e = none ↔ e₂ = none) := by
  obtain ⟨hmem₁, ks, hks, rfl⟩ := h₁.schedule
  obtain ⟨-, ks₂, hks₂, hfinal⟩ := h₂.schedule
  -- the second call finds the machines that the first one has left
  have hs₁ := sound_seedAll (hs.steps ks) nw₁ values
  have hi₁ : nw₁.Installed (nw₁.seedAll (rig.steps ks) values) := by
    apply Installed.seedAll
    intro k hk
    exact hi.steps ks k (hmem₁ ▸ hk)
  have hrest := h₂.rests hs₁ hi₁ (h₁.limit.trans hlimit) hf₂
  have hnone := h₂.eq_none_iff hs₁ hi₁
  rw [machines, hmem₁] at hnone
  rw [hmem₁] at hrest hks₂
  rw [seedAll_eq_writeAll (by rw [hmem₁, hhead])] at hfinal
  -- so a schedule of all machines leads to the same rest without the pause
  obtain ⟨sched, hsched, hend⟩ := hfed.steps_to_rest hs hks hks₂ hfinal hrest
  rw [← seedAll_eq_writeAll hhead] at hend
  obtain ⟨nw', e, hret, he⟩ := returns_of_rest (sound_seedAll hs nw values) (hi.seedAll values)
    (separate_seedAll hsep nw values) hlimit hsched hend hrest
  exact ⟨nw', e, hret, he.trans hnone.symm⟩

section Chain

variable {rig : Rig} {memory : Memory} {phases : List Cell} {limit : Nat}

theorem head?_built {ring : Bool} (hp : phases ≠ []) :
    (built rig phases ring limit).members.head? = some rig.machines.size := by
  cases phases with
  | nil => exact absurd rfl hp
  | cons phase rest => rfl

/-- The input of a chain is for its first machine, and comes from outside. -/
theorem fed_built (hp : phases ≠ []) (values : List Cell) :
    ((built rig phases false limit).seedAll (builtRig rig memory phases false) values).Fed
      (built rig phases false limit).members rig.machines.size rig.pipes.size := by
  refine ⟨⟨builtMember memory rig.pipes.size (phasePipes phases false).length 0, ?_, rfl⟩, ?_⟩
  · rw [machine?_seedAll]
    exact machine?_builtRig (List.length_pos_iff.2 hp)
  · intro j hj m hm
    obtain ⟨k, hk, rfl⟩ := mem_built.1 hj
    rw [machine?_seedAll, machine?_builtRig hk] at hm
    cases hm
    -- the last pipe of a chain is not its first one
    have hmod : (k + 1) % (phasePipes phases false).length = k + 1 := by
      rw [length_phasePipes]
      exact Nat.mod_eq_of_lt (by simpa using hk)
    show rig.pipes.size + (k + 1) % (phasePipes phases false).length ≠ rig.pipes.size
    omega

end Chain

/-- A chain may be seeded in parts. If a call after the first values and a call after the
others both return, and the second does not report a machine, then a single call of the
same chain after all values returns, leaves all machines and pipes in the same state, and
returns no error exactly if the second of the two calls did not. -/
theorem incremental_seeding {rig₀ rig : Rig} (hr : rig₀.Reachable) {memory : Memory}
    {phases : List Cell} {settings : List NetworkSetting} {nw : Network}
    (hd : draft settings = .ok ⟨0, []⟩)
    (hb : build rig₀ memory phases false settings = .ok (rig, nw)) {xs ys : List Cell}
    {nw₁ nw₂ : Network} {rig₁ rig₂ : Rig} {e₁ e₂ : Option RunError}
    (h₁ : nw.Returns (nw.seedAll rig xs) (nw₁, rig₁, e₁))
    (h₂ : nw₁.Returns (nw₁.seedAll rig₁ ys) (nw₂, rig₂, e₂))
    (hf₂ : ∀ position f, e₂ ≠ some (.machine position f)) :
    ∃ nw' e, nw.Returns (nw.seedAll rig (xs ++ ys)) (nw', rig₂, e) ∧ (e = none ↔ e₂ = none) := by
  obtain ⟨hm, hp⟩ := nonempty_of_build hb
  have hreach := reachable_seedAll (reachable_build hr hb) nw xs
  rw [build_eq rig₀ hm hp hd] at hb
  cases hb
  have happ : (built rig₀ phases false 0).seedAll (builtRig rig₀ memory phases false) (xs ++ ys) =
      (built rig₀ phases false 0).seedAll
        ((built rig₀ phases false 0).seedAll (builtRig rig₀ memory phases false) xs) ys :=
    List.foldl_append
  rw [happ]
  exact returns_of_parts hreach.sound (installed_built.seedAll xs) (separate_built xs) rfl
    (head?_built hp) (fed_built hp xs) h₁ h₂ hf₂

/-- Reads a phase, and then passes two values on. -/
def passer : Memory :=
  ⟨#[3, 11, 3, 11, 4, 11, 3, 11, 4, 11, 99, 0]⟩

/-- A chain of two such machines: after one value both wait, after the other they halt. -/
theorem passer_seeding :
    ∃ rig nw, build .empty passer [5, 6] false [] = .ok (rig, nw) ∧
      ∃ nw₁ rig₁ nw₂ rig₂,
        nw.Returns (nw.seedAll rig [8]) (nw₁, rig₁, some (.deadlock 2 [0, 1])) ∧
        nw₁.Returns (nw₁.seedAll rig₁ [9]) (nw₂, rig₂, none) ∧
        (rig₂.pipes.get 2).queue = [8, 9] ∧
        ∃ nw', nw.Returns (nw.seedAll rig ([8] ++ [9])) (nw', rig₂, none) := by
  have hb : build .empty passer [5, 6] false [] =
      .ok (builtRig .empty passer [5, 6] false, built .empty [5, 6] false 0) :=
    build_eq .empty (by decide) (by decide) rfl
  refine ⟨_, _, hb, ?_⟩
  have hcalls : (((built .empty [5, 6] false 0).run 9
      ((built .empty [5, 6] false 0).seedAll (builtRig .empty passer [5, 6] false) [8])).bind
        fun out => (out.1.run 9 (out.1.seedAll out.2.1 [9])).map
          fun out' => (out.2.2, out'.2.2, (out'.2.1.pipes.get 2).queue)) =
      some (some (.deadlock 2 [0, 1]), none, [8, 9]) := by
    decide +kernel
  obtain ⟨⟨nw₁, rig₁, e₁⟩, hrun₁, hcalls⟩ := Option.bind_eq_some_iff.1 hcalls
  obtain ⟨⟨nw₂, rig₂, e₂⟩, hrun₂, hout⟩ := Option.map_eq_some_iff.1 hcalls
  simp only [Prod.mk.injEq] at hout
  obtain ⟨rfl, rfl, hqueue⟩ := hout
  have h₁ := returns_of_run hrun₁
  have h₂ := returns_of_run hrun₂
  obtain ⟨nw', e, hret, he⟩ := incremental_seeding .empty rfl hb h₁ h₂ (by simp)
  rw [he.2 rfl] at hret
  exact ⟨nw₁, rig₁, nw₂, rig₂, h₁, h₂, hqueue, nw', hret⟩

end Network

end CellMachine
