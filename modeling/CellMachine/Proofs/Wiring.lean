import CellMachine.Proofs.Reachable

/-!
# Chains and rings

What `Network.build` makes without settings for the machines, in closed form
(`Network.build_eq`): the machines stand behind those that were there before, and
machine `k` reads from pipe `k` of the network and writes to the next one. No two
machines share an end of a pipe (`Network.built_wiring`), and a rig stays reachable
when a network is built in it and seeded.
-/

set_option autoImplicit false

namespace CellMachine.Network

/-- The machine at a position of a chain or ring with the given number of pipes. -/
def builtMember (memory : Memory) (base pipes position : Nat) : Machine :=
  .new (memberName position) true memory (base + position) (base + (position + 1) % pipes)

/-- The rig after a chain or ring has been built in it. -/
def builtRig (rig : Rig) (memory : Memory) (phases : List Cell) (ring : Bool) : Rig :=
  ⟨rig.machines ++ ((List.range phases.length).map
      (builtMember memory rig.pipes.size (phasePipes phases ring).length)).toArray,
    (phasePipes phases ring).foldl PipeTable.add rig.pipes⟩

/-- The schedule of a chain or ring built in a rig. -/
def built (rig : Rig) (phases : List Cell) (ring : Bool) (limit : Nat) : Network :=
  ⟨List.range' rig.machines.size phases.length,
    List.range' rig.pipes.size (phasePipes phases ring).length, ring, limit, 0⟩

@[simp] theorem length_phasePipes (phases : List Cell) (ring : Bool) :
    (phasePipes phases ring).length = if ring then phases.length else phases.length + 1 := by
  cases ring <;> simp [phasePipes]

theorem install_member (rig : Rig) {memory : Memory} (hm : memory.size ≠ 0)
    (base pipes position : Nat) :
    rig.install memory (memberSettings base pipes position []) true =
      .ok (⟨rig.machines.push (builtMember memory base pipes position), rig.pipes⟩,
        rig.machines.size) := by
  simp only [Rig.install, hm, if_false]
  rfl

/-- Members are installed one behind the other. -/
theorem installMembers_eq {memory : Memory} (hm : memory.size ≠ 0) (base pipes : Nat)
    (positions : List Nat) (rig : Rig) :
    installMembers memory base pipes [] positions rig =
      .ok (⟨rig.machines ++ (positions.map (builtMember memory base pipes)).toArray, rig.pipes⟩,
        List.range' rig.machines.size positions.length) := by
  induction positions generalizing rig with
  | nil => simp [installMembers]
  | cons position rest ih =>
    simp only [installMembers, install_member rig hm]
    rw [ih]
    have hpush : rig.machines.push (builtMember memory base pipes position) ++
        (rest.map (builtMember memory base pipes)).toArray =
          rig.machines ++ ((position :: rest).map (builtMember memory base pipes)).toArray := by
      apply Array.toList_inj.1
      simp
    simp only [Except.map, hpush, Array.size_push, List.length_cons, List.range'_succ]

theorem build_eq (rig : Rig) {memory : Memory} {phases : List Cell} {ring : Bool}
    {settings : List NetworkSetting} {limit : Nat} (hm : memory.size ≠ 0) (hp : phases ≠ [])
    (hd : draft settings = .ok ⟨limit, []⟩) :
    build rig memory phases ring settings =
      .ok (builtRig rig memory phases ring, built rig phases ring limit) := by
  have hp' : phases.isEmpty = false := by simpa using hp
  simp only [build, hp', hd, bind, Except.bind, pure, Except.pure, Bool.false_eq_true, if_false]
  rw [installMembers_eq hm]
  simp [builtRig, built]

section Built

variable {rig : Rig} {memory : Memory} {phases : List Cell} {ring : Bool} {limit : Nat}

theorem machine?_builtRig {k : Nat} (hk : k < phases.length) :
    (builtRig rig memory phases ring).machine? (rig.machines.size + k) =
      some (builtMember memory rig.pipes.size (phasePipes phases ring).length k) := by
  simp [builtRig, Rig.machine?, hk]

theorem mem_built {j : Nat} :
    j ∈ (built rig phases ring limit).members ↔
      ∃ k, k < phases.length ∧ j = rig.machines.size + k := by
  simp only [built, List.mem_range'_1]
  constructor
  · rintro ⟨hle, hlt⟩
    exact ⟨j - rig.machines.size, by omega, by omega⟩
  · rintro ⟨k, hk, rfl⟩
    omega

theorem installed_built :
    (built rig phases ring limit).Installed (builtRig rig memory phases ring) := by
  intro j hj
  obtain ⟨k, hk, rfl⟩ := mem_built.1 hj
  rw [machine?_builtRig hk]
  rfl

/-- The next pipe of a chain or ring is a different one for every position. -/
theorem next_pipe_ne {n pipes i j : Nat} (hp : pipes = n ∨ pipes = n + 1) (hi : i < n) (hj : j < n)
    (hij : i ≠ j) : (i + 1) % pipes ≠ (j + 1) % pipes := by
  have hmod : ∀ k, k < n → (k + 1) % pipes = if k + 1 = pipes then 0 else k + 1 := by
    intro k hk
    split
    · next h => rw [h, Nat.mod_self]
    · next h => exact Nat.mod_eq_of_lt (by omega)
  rw [hmod i hi, hmod j hj]
  split <;> split <;> omega

/-- The machines of a chain or ring share no end of a pipe. -/
theorem built_wiring {i j : Nat} (hi : i < phases.length) (hj : j < phases.length) (hij : i ≠ j)
    (base : Nat) :
    let pipes := (phasePipes phases ring).length
    (builtMember memory base pipes i).input ≠ (builtMember memory base pipes j).input ∧
      (builtMember memory base pipes i).output ≠ (builtMember memory base pipes j).output := by
  have hp : (phasePipes phases ring).length = phases.length ∨
      (phasePipes phases ring).length = phases.length + 1 := by
    rw [length_phasePipes]
    cases ring <;> simp
  have hnext := next_pipe_ne hp hi hj hij
  simp only [builtMember, Machine.new]
  omega

end Built

/-! ## Reachability -/

theorem reachable_addAll {ps : List Pipe} (hps : ∀ p ∈ ps, ∃ values, p = .ofList values)
    {rig : Rig} (h : rig.Reachable) :
    Rig.Reachable { rig with pipes := ps.foldl PipeTable.add rig.pipes } := by
  induction ps generalizing rig with
  | nil => exact h
  | cons p rest ih =>
    obtain ⟨values, rfl⟩ := hps _ List.mem_cons_self
    exact ih (fun q hq => hps q (List.mem_cons_of_mem _ hq)) (.pipe values h)

theorem reachable_installMembers {memory : Memory} {base pipes : Nat} {extra : List Setting}
    {positions : List Nat} {rig rig' : Rig} {ks : List Nat} (h : rig.Reachable)
    (hinst : installMembers memory base pipes extra positions rig = .ok (rig', ks)) :
    rig'.Reachable := by
  induction positions generalizing rig ks with
  | nil =>
    cases hinst
    exact h
  | cons position rest ih =>
    simp only [installMembers] at hinst
    split at hinst
    · cases hinst
    · next rig₁ k hone =>
      cases hrest : installMembers memory base pipes extra rest rig₁ with
      | error e =>
        rw [hrest] at hinst
        cases hinst
      | ok out =>
        rw [hrest] at hinst
        cases hinst
        exact ih (.install h hone) hrest

/-- A rig stays reachable when a chain or ring is built in it. -/
theorem reachable_build {rig rig' : Rig} {memory : Memory} {phases : List Cell} {ring : Bool}
    {settings : List NetworkSetting} {nw : Network} (h : rig.Reachable)
    (hb : build rig memory phases ring settings = .ok (rig', nw)) : rig'.Reachable := by
  have hpipes : ∀ p ∈ phasePipes phases ring, ∃ values, p = Pipe.ofList values := by
    intro p hp
    rcases List.mem_append.1 hp with hp | hp
    · obtain ⟨phase, -, rfl⟩ := List.mem_map.1 hp
      exact ⟨[phase], rfl⟩
    · cases ring with
      | true => cases hp
      | false =>
        rw [List.mem_singleton.1 hp]
        exact ⟨[], rfl⟩
  by_cases hp : phases.isEmpty = true
  · simp [build, hp, bind, Except.bind, throw, throwThe, MonadExceptOf.throw] at hb
  · simp only [build, hp, bind, Except.bind, Bool.false_eq_true, if_false] at hb
    split at hb
    · cases hb
    · split at hb
      · cases hb
      · next out hinst =>
        cases hb
        exact reachable_installMembers (reachable_addAll hpipes h) hinst

/-- The rig after values have been sent to the input of the first machine. -/
def seedAll (nw : Network) (rig : Rig) (values : List Cell) : Rig :=
  values.foldl nw.seed rig

@[simp] theorem machine?_seed (nw : Network) (rig : Rig) (v : Cell) (k : Nat) :
    (nw.seed rig v).machine? k = rig.machine? k := by
  simp only [seed]
  split <;> rfl

theorem reachable_seed {rig : Rig} (h : rig.Reachable) (nw : Network) (v : Cell) :
    (nw.seed rig v).Reachable := by
  simp only [seed, first?]
  split
  · next m hm =>
    obtain ⟨k, -, hk⟩ := Option.bind_eq_some_iff.1 hm
    exact .write v h hk
  · exact h

@[simp] theorem machine?_seedAll (nw : Network) (rig : Rig) (values : List Cell) (k : Nat) :
    (nw.seedAll rig values).machine? k = rig.machine? k := by
  induction values generalizing rig with
  | nil => rfl
  | cons v rest ih => exact (ih (nw.seed rig v)).trans (machine?_seed nw rig v k)

theorem reachable_seedAll {rig : Rig} (h : rig.Reachable) (nw : Network) (values : List Cell) :
    (nw.seedAll rig values).Reachable := by
  induction values generalizing rig with
  | nil => exact h
  | cons v rest ih => exact ih (reachable_seed h nw v)

end CellMachine.Network
