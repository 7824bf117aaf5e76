import CellMachine.Proofs.Rounds

/-!
# Reachable rigs

The rigs that come about when machines are installed, wired and named, and then
driven by steps, runs, and traffic on the pipes. No operation here sets a status or
a program counter by hand, so all machines of a reachable rig are sound
(`Rig.Reachable.sound`). Calls of a network lead from reachable rigs to reachable
rigs (`Rig.Reachable.networkRun`), so what holds of reachable rigs holds again after
any number of calls.
-/

set_option autoImplicit false

namespace CellMachine

namespace Rig

/-- The rigs that machines and pipes can get into. -/
inductive Reachable : Rig → Prop where
  | empty : Reachable .empty
  | pipe {rig : Rig} (values : List Cell) : Reachable rig →
      Reachable { rig with pipes := rig.pipes.add (.ofList values) }
  | install {rig rig' : Rig} {memory : Memory} {settings : List Setting} {member : Bool} {k : Nat} :
      Reachable rig → rig.install memory settings member = .ok (rig', k) → Reachable rig'
  | connectInput {rig : Rig} {k : Nat} {m m' : Machine} {pipe : Option Nat} : Reachable rig →
      rig.machine? k = some m → m.connectInput pipe = .ok m' → Reachable (rig.setMachine k m')
  | connectOutput {rig : Rig} {k : Nat} {m m' : Machine} {pipe : Option Nat} : Reachable rig →
      rig.machine? k = some m → m.connectOutput pipe = .ok m' → Reachable (rig.setMachine k m')
  | rename {rig : Rig} {k : Nat} {m : Machine} (name : String) : Reachable rig →
      rig.machine? k = some m → Reachable (rig.setMachine k { m with name })
  | step {rig : Rig} (k : Nat) : Reachable rig → Reachable (rig.step k)
  | run {rig rig' : Rig} {fuel k : Nat} : Reachable rig → rig.run fuel k = some rig' →
      Reachable rig'
  | write {rig : Rig} {k : Nat} {m : Machine} (v : Cell) : Reachable rig →
      rig.machine? k = some m → Reachable { rig with pipes := rig.pipes.push m.input v }
  | push {rig : Rig} (i : Nat) (v : Cell) : Reachable rig →
      Reachable { rig with pipes := rig.pipes.push i v }
  | pop {rig : Rig} {i : Nat} {v : Cell} {t : PipeTable} : Reachable rig →
      rig.pipes.pop? i = some (v, t) → Reachable { rig with pipes := t }
  | drain {rig : Rig} (i : Nat) : Reachable rig →
      Reachable { rig with pipes := (rig.pipes.popAll i).2 }

@[simp] theorem ensurePipe_machines (rig : Rig) (pipe : Option Nat) :
    (rig.ensurePipe pipe).2.machines = rig.machines := by
  cases pipe <;> rfl

/-- Installing a machine adds a new one behind the others, which gets the next number. -/
theorem install_machines {rig rig' : Rig} {memory : Memory} {settings : List Setting}
    {member : Bool} {k : Nat} (h : rig.install memory settings member = .ok (rig', k)) :
    ∃ name input output, k = rig.machines.size ∧
      rig'.machines = rig.machines.push (Machine.new name member memory input output) := by
  by_cases hsize : memory.size = 0
  · simp [install, hsize, bind, Except.bind, throw, throwThe, MonadExceptOf.throw] at h
  · cases hd : settings.foldlM Draft.apply Draft.initial with
    | error e => simp [install, hsize, hd, bind, Except.bind] at h
    | ok d =>
      simp only [install, hsize, hd, if_false, bind, Except.bind, pure, Except.pure,
        Except.ok.injEq, Prod.mk.injEq] at h
      obtain ⟨rfl, rfl⟩ := h
      refine ⟨d.name, (rig.ensurePipe d.input).1,
        ((rig.ensurePipe d.input).2.ensurePipe d.output).1, ?_, ?_⟩
      · simp only [ensurePipe_machines]
      · simp only [ensurePipe_machines]

theorem Sound.setMachine {rig : Rig} (h : rig.Sound) (k : Nat) {m : Machine} (hm : m.Sound) :
    (rig.setMachine k m).Sound := by
  intro j m' hm'
  by_cases hkj : k = j
  · subst hkj
    cases hk : rig.machine? k with
    | none =>
      have hle : rig.machines.size ≤ k := Array.getElem?_eq_none_iff.1 hk
      have hset : rig.setMachine k m = rig := by
        simp [Rig.setMachine, Array.setIfInBounds_eq_of_size_le hle]
      rw [hset, hk] at hm'
      cases hm'
    | some m₀ =>
      rw [show rig.setMachine k m = ⟨rig.machines.setIfInBounds k m, rig.pipes⟩ from rfl,
        machine?_set_self hk] at hm'
      cases hm'
      exact hm
  · exact h j m' (by rwa [← machine?_set_of_ne hkj rig m rig.pipes])

/-- Machines of reachable rigs are sound. -/
theorem Reachable.sound {rig : Rig} (h : rig.Reachable) : rig.Sound := by
  induction h with
  | empty =>
    intro k m hm
    simp [Rig.empty, machine?] at hm
  | pipe _ _ ih | push _ _ _ ih | drain _ _ ih => exact ih
  | write _ _ _ ih | pop _ _ ih => exact ih
  | @install rig rig' memory settings member k _ hinst ih =>
    obtain ⟨name, input, output, -, hmach⟩ := install_machines hinst
    intro j m hm
    simp only [machine?, hmach, Array.getElem?_push] at hm
    split at hm
    · cases hm
      exact Machine.sound_new name member memory input output
    · exact ih j m hm
  | @connectInput rig k m m' pipe _ hm hc ih =>
    obtain ⟨hk, hb, hw⟩ := ih k m hm
    cases pipe with
    | none => cases hc
    | some pipe =>
      by_cases hs : m.Started
      · simp [Machine.connectInput, hs] at hc
      · simp only [Machine.connectInput, hs, if_false, Except.ok.injEq] at hc
        subst hc
        exact ih.setMachine k ⟨hk, hb, hw⟩
  | @connectOutput rig k m m' pipe _ hm hc ih =>
    obtain ⟨hk, hb, hw⟩ := ih k m hm
    cases pipe with
    | none => cases hc
    | some pipe =>
      by_cases hs : m.Started
      · simp [Machine.connectOutput, hs] at hc
      · simp only [Machine.connectOutput, hs, if_false, Except.ok.injEq] at hc
        subst hc
        exact ih.setMachine k ⟨hk, hb, hw⟩
  | rename name _ hm ih =>
    obtain ⟨hk, hb, hw⟩ := ih _ _ hm
    exact ih.setMachine _ ⟨hk, hb, hw⟩
  | step k _ ih => exact ih.step k
  | run _ hrun ih =>
    obtain ⟨n, rfl⟩ := steps_of_run hrun
    exact ih.steps _

theorem Reachable.steps {rig : Rig} (h : rig.Reachable) (ks : List Nat) :
    (rig.steps ks).Reachable :=
  steps_induction (fun _ k _ hr => hr.step k) h fun _ hk => hk

end Rig

/-- What a call does to a rig is a schedule of the network's machines. -/
theorem Network.steps_of_run {fuel : Nat} {nw nw' : Network} {rig rig' : Rig}
    {e : Option RunError} (h : nw.run fuel rig = some (nw', rig', e)) :
    nw'.members = nw.members ∧
      ∃ sched, (∀ k ∈ sched, k ∈ nw.members) ∧ rig.steps sched = rig' := by
  obtain ⟨nw₁, rig₁, hreach, hends⟩ := run_cases h
  obtain ⟨hmem, -, sched, hsched, hsteps⟩ := Continues.keeps hreach
  simp only at hmem hsched hsteps
  have last : ∀ {fuel e}, nw₁.round fuel rig₁ = some (nw', rig', e) →
      nw'.members = nw.members ∧
        ∃ sched, (∀ k ∈ sched, k ∈ nw.members) ∧ rig.steps sched = rig' := by
    intro fuel e hround
    obtain ⟨rfl, ht⟩ := round_eq_some.1 hround
    obtain ⟨sched', hsched', rfl⟩ := steps_of_turns ht
    refine ⟨hmem, sched ++ sched', ?_, by rw [Rig.steps_append, hsteps]⟩
    intro k hk
    rcases List.mem_append.1 hk with hk | hk
    · exact hsched k hk
    · rw [← hmem]
      exact hsched' k hk
  cases hends with
  | halted | limit => exact ⟨hmem, sched, hsched, hsteps⟩
  | fault _ _ hround => exact last hround
  | deadlock _ _ hround => exact last hround

/-- Calls of a network keep a rig reachable. -/
theorem Rig.Reachable.networkRun {fuel : Nat} {nw nw' : Network} {rig rig' : Rig}
    {e : Option RunError} (hr : rig.Reachable) (h : nw.run fuel rig = some (nw', rig', e)) :
    rig'.Reachable := by
  obtain ⟨-, sched, -, rfl⟩ := Network.steps_of_run h
  exact hr.steps sched

end CellMachine
