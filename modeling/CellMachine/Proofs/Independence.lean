import CellMachine.Proofs.Confluence
import CellMachine.Proofs.Wiring

/-!
# Chains and rings do not depend on the schedule

The round-robin order of `Network.run` is one schedule among many. If it brings a
chain or ring to an end, whether all machines have halted or some wait for ever, then
every other schedule of single steps can be completed to the same end, meets no fault
on the way, and stops nowhere else (`Network.schedule_independence`).
-/

set_option autoImplicit false

namespace CellMachine

/-- The fault that a step of machine `k` reports. -/
def Rig.stepError? (rig : Rig) (k : Nat) : Option MachineFault :=
  ((rig.step k).machine? k).bind Machine.error?

namespace Network

/-- A chain or ring is separate, seeded or not. -/
theorem separate_built {rig : Rig} {memory : Memory} {phases : List Cell} {ring : Bool}
    {limit : Nat} (values : List Cell) :
    ((built rig phases ring limit).seedAll (builtRig rig memory phases ring) values).Separate
      (built rig phases ring limit).members := by
  intro i hi j hj hij m m' hm hm'
  rw [machine?_seedAll] at hm hm'
  obtain ⟨a, ha, rfl⟩ := mem_built.1 hi
  obtain ⟨b, hb, rfl⟩ := mem_built.1 hj
  rw [machine?_builtRig ha] at hm
  rw [machine?_builtRig hb] at hm'
  cases hm
  cases hm'
  exact built_wiring ha hb (by omega) rig.pipes.size

/-- No step reports a fault on the way to a rig at rest. -/
theorem stepError?_eq_none {rig final : Rig} {S : List Nat} (hrest : ∀ k ∈ S, final.RestsAt k)
    (hreach : ∀ k ∈ S, ∃ ks, (rig.step k).steps ks = final) {k : Nat} (hk : k ∈ S) :
    rig.stepError? k = none := by
  rw [Rig.stepError?, Option.bind_eq_none_iff]
  intro m hm
  obtain ⟨ks, rfl⟩ := hreach k hk
  by_cases hf : m.status = .faulted
  · -- the fault would still be there at the end
    have hend := Rig.faulted_steps hm hf ks
    exact absurd hf ((hrest k hk).not_faulted hend)
  · simp [Machine.error?, hf]

/-- Schedule independence: if a call brings a chain or ring to an end, then after any
sequence `ks` of single steps of its machines no step reports a fault, the same end
can still be reached, and if no step has an effect any more it has been reached. -/
theorem schedule_independence {rig₀ : Rig} (hr : rig₀.Reachable) {memory : Memory}
    {phases : List Cell} {settings : List NetworkSetting} (hm : memory.size ≠ 0)
    (hp : phases ≠ []) (hd : draft settings = .ok ⟨0, []⟩) (ring : Bool) (values : List Cell) :
    ∃ rig nw, build rig₀ memory phases ring settings = .ok (rig, nw) ∧
      ∀ {fuel : Nat} {nw' : Network} {final : Rig} {e : Option RunError},
        nw.run fuel (nw.seedAll rig values) = some (nw', final, e) →
        (e = none ∨ ∃ round waiting, e = some (.deadlock round waiting)) →
        ∀ ks : List Nat, (∀ k ∈ ks, k ∈ nw.members) →
          (∀ k ∈ nw.members, ((nw.seedAll rig values).steps ks).stepError? k = none) ∧
          (∃ ks', (∀ k ∈ ks', k ∈ nw.members) ∧
            (nw.seedAll rig values).steps (ks ++ ks') = final) ∧
          ((∀ k ∈ nw.members, ((nw.seedAll rig values).steps ks).step k =
              (nw.seedAll rig values).steps ks) →
            (nw.seedAll rig values).steps ks = final) := by
  have hb : build rig₀ memory phases ring settings =
      .ok (builtRig rig₀ memory phases ring, built rig₀ phases ring 0) := build_eq rig₀ hm hp hd
  refine ⟨_, _, hb, ?_⟩
  intro fuel nw' final e hrun he ks hks
  have hreach := reachable_seedAll (reachable_build hr hb) (built rig₀ phases ring 0) values
  have hi : (built rig₀ phases ring 0).Installed
      ((built rig₀ phases ring 0).seedAll (builtRig rig₀ memory phases ring) values) := by
    intro k hk
    rw [machine?_seedAll]
    exact installed_built k hk
  have hrest := rests_of_run hreach.sound hi hrun he
  obtain ⟨-, sched, hsched, hfinal⟩ := steps_of_run hrun
  have toRest : ∀ ks : List Nat, (∀ k ∈ ks, k ∈ (built rig₀ phases ring 0).members) → _ :=
    fun ks hks =>
      Rig.steps_to_rest hreach.sound (separate_built values) hsched hfinal hrest hks
  refine ⟨?_, toRest ks hks, ?_⟩
  · intro k hk
    refine stepError?_eq_none hrest ?_ hk
    intro j hj
    obtain ⟨ks', -, hks'⟩ := toRest (ks ++ [j]) (by
      intro i hi
      rcases List.mem_append.1 hi with hi | hi
      · exact hks i hi
      · rw [List.mem_singleton.1 hi]
        exact hj)
    exact ⟨ks', by rw [← hks', Rig.steps_append, Rig.steps_append]; rfl⟩
  · intro hfix
    obtain ⟨ks', hks', hend⟩ := toRest ks hks
    rw [← hend, Rig.steps_append, Rig.steps_fixed hfix hks']

/-- Reads a phase and a signal, passes the signal on and halts. -/
def relay : Memory :=
  ⟨#[3, 7, 3, 7, 4, 7, 99, 0]⟩

/-- In a ring of two relays the second may well be stepped first and be found
waiting. -/
theorem relay_schedule_independence :
    ∃ rig nw, build .empty relay [5, 6] true [] = .ok (rig, nw) ∧
      ∃ nw' final, nw.run 9 (nw.seedAll rig [8]) = some (nw', final, none) ∧
        (((nw.seedAll rig [8]).steps [1, 1]).machine? 1).map Machine.status = some .waiting ∧
        ∃ ks', (nw.seedAll rig [8]).steps ([1, 1] ++ ks') = final := by
  have hb : build .empty relay [5, 6] true [] =
      .ok (builtRig .empty relay [5, 6] true, built .empty [5, 6] true 0) :=
    build_eq .empty (by decide) (by decide) rfl
  obtain ⟨rig, nw, hb', hind⟩ := schedule_independence .empty (by decide : relay.size ≠ 0)
    (by decide : ([5, 6] : List Cell) ≠ []) (rfl : draft [] = .ok ⟨0, []⟩) true [8]
  rw [hb] at hb'
  cases hb'
  have hrun : (((built .empty [5, 6] true 0).run 9
      ((built .empty [5, 6] true 0).seedAll (builtRig .empty relay [5, 6] true) [8])).map
        fun r => r.2.2) = some none := by
    decide +kernel
  obtain ⟨⟨nw', final, e⟩, hrun, he⟩ := Option.map_eq_some_iff.1 hrun
  cases he
  obtain ⟨-, ⟨ks', -, hks'⟩, -⟩ := hind hrun (Or.inl rfl) [1, 1] (by decide)
  exact ⟨_, _, hb, nw', final, hrun, by decide +kernel, ks', hks'⟩

end Network

end CellMachine
