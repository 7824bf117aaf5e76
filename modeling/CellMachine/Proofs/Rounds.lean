import CellMachine.Network.Run
import CellMachine.Proofs.Schedule
import Mathlib.Logic.Relation

/-!
# Rounds of a network

A call of `Network.run` is a sequence of rounds. `Network.Continues` is one round
after which the call goes on, and `Network.Ends` lists the four ways in which it
returns: all machines have halted, the limit forbids another round, a machine
faults, or a round changes no mark. `Network.run_cases` and `Network.run_of_ends`
say that these describe a call exactly.

In a round that changes no instruction count every machine ends at rest
(`Network.rests_of_turns`), and a round of machines at rest changes nothing
(`Network.round_of_rests`).
-/

set_option autoImplicit false

namespace CellMachine

open Relation

/-- What has come before the result of a computation that did not fail. -/
theorem bind_eq_ok {ε α β : Type} {x : Except ε α} {g : α → Except ε β} {b : β}
    (h : x >>= g = .ok b) : ∃ a, x = .ok a ∧ g a = .ok b := by
  cases x with
  | error e => cases h
  | ok a => exact ⟨a, rfl, h⟩

/-- The fault that a machine reports is the one on its record. -/
theorem Machine.error?_eq_some_iff {m : Machine} {f : MachineFault} :
    m.error? = some f ↔ m.status = .faulted ∧ m.fault = some f := by
  by_cases h : m.status = .faulted <;> simp [error?, h]

/-- A sound machine that reports no fault has not faulted. -/
theorem Machine.Sound.not_faulted {m : Machine} (hs : m.Sound) (h : m.error? = none) :
    m.status ≠ .faulted := by
  intro hf
  simp only [error?, hf, if_true] at h
  exact hs.blamed hf h

namespace Network

/-- All machines of the schedule are in the rig. -/
def Installed (nw : Network) (rig : Rig) : Prop :=
  ∀ k ∈ nw.members, (rig.machine? k).isSome

theorem map_some_of_firstAbsent {position : Nat} {machines : List (Option Nat)} {members : List Nat}
    (h : firstAbsent position machines = .ok members) : members.map some = machines := by
  induction machines generalizing position members with
  | nil =>
    cases h
    rfl
  | cons machine rest ih =>
    cases machine with
    | none => cases h
    | some k =>
      rw [firstAbsent] at h
      cases hrest : firstAbsent (position + 1) rest with
      | error e =>
        rw [hrest] at h
        cases h
      | ok ks =>
        rw [hrest] at h
        cases h
        rw [List.map_cons, ih hrest]

/-- The members of a network that is made of machines are these machines. -/
theorem map_some_members {rig : Rig} {machines : List (Option Nat)}
    {settings : List NetworkSetting} {nw : Network}
    (h : ofMachines rig machines settings = .ok nw) : nw.members.map some = machines := by
  unfold ofMachines at h
  split at h
  · cases h
  · obtain ⟨members, hmembers, h⟩ := bind_eq_ok h
    obtain ⟨d, -, h⟩ := bind_eq_ok h
    cases h
    exact map_some_of_firstAbsent hmembers

/-- A network made of machines that are in a rig is installed there. -/
theorem installed_ofMachines {rig : Rig} {machines : List (Option Nat)}
    {settings : List NetworkSetting} {nw : Network}
    (hthere : ∀ k, some k ∈ machines → (rig.machine? k).isSome)
    (h : ofMachines rig machines settings = .ok nw) : nw.Installed rig := by
  intro k hk
  apply hthere
  rw [← map_some_members h]
  exact List.mem_map_of_mem hk

/-! ## Turns -/

theorem turns_cons {fuel position k : Nat} {rest : List Nat} {rig : Rig} {r : Outcome} :
    turns fuel position (k :: rest) rig = some r ↔
      ∃ rig₁, rig.run fuel k = some rig₁ ∧
        ((∃ f, (rig₁.machine? k).bind Machine.error? = some f ∧
            r = (rig₁, some (.machine position f))) ∨
          (rig₁.machine? k).bind Machine.error? = none ∧
            turns fuel (position + 1) rest rig₁ = some r) := by
  cases hrun : rig.run fuel k with
  | none => simp [turns, hrun]
  | some rig₁ =>
    cases he : (rig₁.machine? k).bind Machine.error? with
    | none =>
      simp only [turns, hrun, he]
      constructor
      · intro h
        exact ⟨rig₁, rfl, Or.inr ⟨he, h⟩⟩
      · rintro ⟨rig₂, hr, ⟨f, hf, -⟩ | ⟨-, h⟩⟩
        · cases hr
          rw [he] at hf
          cases hf
        · cases hr
          exact h
    | some f => simp [turns, hrun, he, eq_comm]

theorem turns_mono {fuel fuel' position : Nat} {ks : List Nat} {rig : Rig} {r : Outcome}
    (h : turns fuel position ks rig = some r) (hle : fuel ≤ fuel') :
    turns fuel' position ks rig = some r := by
  induction ks generalizing position rig with
  | nil => exact h
  | cons k rest ih =>
    obtain ⟨rig₁, hrun, hcase⟩ := turns_cons.1 h
    refine turns_cons.2 ⟨rig₁, Rig.run_mono hrun hle, ?_⟩
    rcases hcase with hf | ⟨he, ht⟩
    · exact Or.inl hf
    · exact Or.inr ⟨he, ih ht⟩

/-- Turns are a schedule of the machines that take them. -/
theorem steps_of_turns {fuel position : Nat} {ks : List Nat} {rig rig' : Rig}
    {e : Option RunError} (h : turns fuel position ks rig = some (rig', e)) :
    ∃ sched, (∀ k ∈ sched, k ∈ ks) ∧ rig.steps sched = rig' := by
  induction ks generalizing position rig with
  | nil =>
    cases h
    exact ⟨[], by simp, rfl⟩
  | cons k rest ih =>
    obtain ⟨rig₁, hrun, hcase⟩ := turns_cons.1 h
    obtain ⟨n, rfl⟩ := Rig.steps_of_run hrun
    have hrep : ∀ j ∈ List.replicate n k, j ∈ k :: rest := by
      intro j hj
      rw [List.eq_of_mem_replicate hj]
      exact List.mem_cons_self
    rcases hcase with ⟨f, -, hr⟩ | ⟨-, ht⟩
    · cases hr
      exact ⟨_, hrep, rfl⟩
    · obtain ⟨sched, hsched, rfl⟩ := ih ht
      refine ⟨List.replicate n k ++ sched, ?_, Rig.steps_append _ _ _⟩
      intro j hj
      rcases List.mem_append.1 hj with hj | hj
      · exact hrep j hj
      · exact List.mem_cons_of_mem k (hsched j hj)

/-- Turns are stopped only by the fault of the machine at the position they name. -/
theorem faulted_of_turns {fuel position : Nat} {ks : List Nat} {rig rig' : Rig} {err : RunError}
    (h : turns fuel position ks rig = some (rig', some err)) :
    ∃ i k m f, err = .machine (position + i) f ∧ ks[i]? = some k ∧
      rig'.machine? k = some m ∧ m.status = .faulted ∧ m.fault = some f := by
  induction ks generalizing position rig with
  | nil => cases h
  | cons k rest ih =>
    obtain ⟨rig₁, -, hcase⟩ := turns_cons.1 h
    rcases hcase with ⟨f, hf, hr⟩ | ⟨-, ht⟩
    · cases hr
      obtain ⟨m, hm, he⟩ := Option.bind_eq_some_iff.1 hf
      obtain ⟨hs, hfault⟩ := Machine.error?_eq_some_iff.1 he
      exact ⟨0, k, m, f, rfl, rfl, hm, hs, hfault⟩
    · obtain ⟨i, k', m, f, rfl, hk', hm, hs, hfault⟩ := ih ht
      refine ⟨i + 1, k', m, f, ?_, hk', hm, hs, hfault⟩
      rw [Nat.add_right_comm, Nat.add_assoc]

/-- In turns that execute no instruction and meet no fault, every machine comes to
rest. -/
theorem rests_of_turns {fuel position : Nat} {ks : List Nat} {rig rig' : Rig} (hs : rig.Sound)
    (hk : ∀ k ∈ ks, (rig.machine? k).isSome)
    (h : turns fuel position ks rig = some (rig', none))
    (hcount : ∀ k ∈ ks, rig'.count k = rig.count k) :
    rig.Stalls rig' ∧ ∀ k ∈ ks, rig'.RestsAt k := by
  induction ks generalizing position rig with
  | nil =>
    cases h
    exact ⟨Rig.Stalls.refl _, by simp⟩
  | cons k rest ih =>
    obtain ⟨rig₁, hrun, hcase⟩ := turns_cons.1 h
    rcases hcase with ⟨f, -, hr⟩ | ⟨he, ht⟩
    · cases hr
    obtain ⟨n, hn⟩ := Rig.steps_of_run hrun
    have hs₁ : rig₁.Sound := hn ▸ hs.steps _
    have hle₀ : ∀ j, rig.count j ≤ rig₁.count j := fun j => hn ▸ Rig.count_le_steps rig _ j
    have hle₁ : ∀ j, rig₁.count j ≤ rig'.count j := by
      obtain ⟨sched, -, rfl⟩ := steps_of_turns ht
      exact fun j => Rig.count_le_steps rig₁ sched j
    have hcount₁ : ∀ j ∈ k :: rest, rig₁.count j = rig.count j := fun j hj =>
      Nat.le_antisymm (Nat.le_trans (hle₁ j) (Nat.le_of_eq (hcount j hj))) (hle₀ j)
    -- machine `k` rests after its own turn
    obtain ⟨m, hm⟩ := Option.isSome_iff_exists.1 (hk k List.mem_cons_self)
    obtain ⟨m₁, hm₁, hsound, hrest⟩ :=
      Rig.rests_or_faulted_of_run hm (hs k m hm) hrun
    have hnf : m₁.status ≠ .faulted := hsound.not_faulted (by simpa [hm₁] using he)
    have hrest₁ : rig₁.RestsAt k := ⟨m₁, hm₁, hrest.resolve_right hnf⟩
    have hstall := Rig.stalls_of_run hm hrun hm₁ (hcount₁ k List.mem_cons_self) hnf
    -- and the others stall after it
    have hk₁ : ∀ j ∈ rest, (rig₁.machine? j).isSome := by
      intro j hj
      obtain ⟨mj, hmj⟩ := Option.isSome_iff_exists.1 (hk j (List.mem_cons_of_mem k hj))
      obtain ⟨mj', hmj', -⟩ := hstall.machines j mj hmj
      rw [hmj']
      rfl
    obtain ⟨hstall', hrest'⟩ := ih hs₁ hk₁ ht fun j hj => by
      rw [hcount j (List.mem_cons_of_mem k hj), hcount₁ j (List.mem_cons_of_mem k hj)]
    refine ⟨hstall.trans hstall', ?_⟩
    intro j hj
    rcases List.mem_cons.1 hj with rfl | hj
    · exact hstall'.restsAt hrest₁
    · exact hrest' j hj

/-- Turns of machines at rest change nothing. -/
theorem turns_of_rests {ks : List Nat} {rig : Rig} (h : ∀ k ∈ ks, rig.RestsAt k)
    (fuel position : Nat) : turns (fuel + 1) position ks rig = some (rig, none) := by
  induction ks generalizing position with
  | nil => rfl
  | cons k rest ih =>
    have hk := h k List.mem_cons_self
    refine turns_cons.2 ⟨rig, hk.run_eq fuel, Or.inr ⟨?_, ?_⟩⟩
    · obtain ⟨m, hm, hr⟩ := hk
      rcases hr with hh | ⟨hw, -⟩
      · simp [hm, Machine.error?, hh]
      · simp [hm, Machine.error?, hw]
    · exact ih (fun j hj => h j (List.mem_cons_of_mem k hj)) (position + 1)

/-! ## Marks -/

theorem machines_countRound (nw : Network) (rig : Rig) :
    nw.countRound.machines rig = nw.machines rig := rfl

theorem mem_machines {nw : Network} {rig : Rig} {m : Machine} :
    m ∈ nw.machines rig ↔ ∃ k ∈ nw.members, rig.machine? k = some m :=
  List.mem_filterMap

/-- If the machines are all there, position `i` of the schedule is position `i` of
the list of machines. -/
theorem getElem?_machines {nw : Network} {rig : Rig} (hi : nw.Installed rig) (i : Nat) :
    (nw.machines rig)[i]? = nw.members[i]?.bind rig.machine? := by
  have key : ∀ (ks : List Nat), (∀ k ∈ ks, (rig.machine? k).isSome) → ∀ i : Nat,
      (ks.filterMap rig.machine?)[i]? = ks[i]?.bind rig.machine? := by
    intro ks
    induction ks with
    | nil => simp
    | cons k rest ih =>
      intro hk i
      obtain ⟨m, hm⟩ := Option.isSome_iff_exists.1 (hk k List.mem_cons_self)
      rw [List.filterMap_cons_some hm]
      cases i with
      | zero => simp [hm]
      | succ i => simpa using ih (fun j hj => hk j (List.mem_cons_of_mem k hj)) i
  exact key nw.members hi i

/-- Equal snapshots show machines with equal marks. -/
theorem marks_eq_of_snapshot_eq {nw : Network} {rig rig' : Rig} (hi : nw.Installed rig)
    (hi' : nw.Installed rig') (h : nw.snapshot rig' = nw.snapshot rig) {k : Nat}
    (hk : k ∈ nw.members) {m m' : Machine} (hm : rig.machine? k = some m)
    (hm' : rig'.machine? k = some m') :
    m'.status = m.status ∧ m'.pc = m.pc ∧ m'.count = m.count := by
  obtain ⟨i, hlt, hik⟩ := List.getElem_of_mem hk
  have hki : nw.members[i]? = some k := by rw [List.getElem?_eq_getElem hlt, hik]
  have hmarks := congrArg (fun s => s.marks[i]?) h
  simpa only [snapshot, List.getElem?_map, getElem?_machines hi, getElem?_machines hi', hki,
    Option.bind_some, hm, hm', Option.map_some, Option.some.injEq, Prod.mk.injEq] using hmarks

theorem count_eq_of_snapshot_eq {nw : Network} {rig rig' : Rig} (hi : nw.Installed rig)
    (hi' : nw.Installed rig') (h : nw.snapshot rig' = nw.snapshot rig) :
    ∀ k ∈ nw.members, rig'.count k = rig.count k := by
  intro k hk
  obtain ⟨m, hm⟩ := Option.isSome_iff_exists.1 (hi k hk)
  obtain ⟨m', hm'⟩ := Option.isSome_iff_exists.1 (hi' k hk)
  rw [Rig.count_of_machine? hm, Rig.count_of_machine? hm',
    (marks_eq_of_snapshot_eq hi hi' h hk hm hm').2.2]

theorem halted_iff {nw : Network} {rig : Rig} :
    nw.halted rig = true ↔ ∀ m ∈ nw.machines rig, m.status = .halted := by
  simp [halted, List.all_eq_true]

theorem halted_eq_false {nw : Network} {rig : Rig} {m : Machine} (hm : m ∈ nw.machines rig)
    (hh : m.status ≠ .halted) : nw.halted rig = false := by
  cases hb : nw.halted rig with
  | false => rfl
  | true => exact absurd (halted_iff.1 hb m hm) hh

theorem mem_waiting {nw : Network} {rig : Rig} {i : Nat} :
    i ∈ nw.waiting rig ↔ ∃ m, (nw.machines rig)[i]? = some m ∧ m.status ≠ .halted := by
  simp only [waiting, List.mem_filterMap, Prod.exists, List.mk_mem_zipIdx_iff_getElem?]
  constructor
  · rintro ⟨m, j, hm, hc⟩
    by_cases hh : m.status = .halted
    · simp [hh] at hc
    · simp only [hh, if_false, Option.some.injEq] at hc
      subst hc
      exact ⟨m, hm, hh⟩
  · rintro ⟨m, hm, hh⟩
    exact ⟨m, i, hm, by simp [hh]⟩

/-- The positions are listed in increasing order. -/
theorem pairwise_waiting (nw : Network) (rig : Rig) : (nw.waiting rig).Pairwise (· < ·) := by
  have hidx : (nw.machines rig).zipIdx.Pairwise fun a b => a.2 < b.2 := by
    rw [← List.pairwise_map, List.zipIdx_map_snd]
    exact List.pairwise_lt_range'
  refine hidx.filterMap _ ?_
  rintro ⟨m, i⟩ ⟨m', j⟩ hij x hx y hy
  by_cases hh : m.status = .halted
  · simp [hh] at hx
  · by_cases hh' : m'.status = .halted
    · simp [hh'] at hy
    · simp only [hh, hh', if_false, Option.some.injEq] at hx hy
      subst hx hy
      exact hij

theorem waiting_eq_nil_iff {nw : Network} {rig : Rig} :
    nw.waiting rig = [] ↔ nw.halted rig = true := by
  rw [halted_iff]
  constructor
  · intro hnil m hm
    obtain ⟨i, hlt, rfl⟩ := List.getElem_of_mem hm
    apply Classical.byContradiction
    intro hh
    have hmem : i ∈ nw.waiting rig := mem_waiting.2 ⟨_, List.getElem?_eq_getElem hlt, hh⟩
    rw [hnil] at hmem
    cases hmem
  · intro hall
    apply List.eq_nil_iff_forall_not_mem.2
    intro i hi
    obtain ⟨m, hm, hh⟩ := mem_waiting.1 hi
    exact hh (hall m (List.mem_of_getElem? hm))

/-! ## Rounds -/

theorem round_eq_some {fuel : Nat} {nw nw' : Network} {rig rig' : Rig} {e : Option RunError} :
    nw.round fuel rig = some (nw', rig', e) ↔
      nw' = nw.countRound ∧ turns fuel 0 nw.members rig = some (rig', e) := by
  simp only [round, Option.map_eq_some_iff, Prod.mk.injEq]
  constructor
  · rintro ⟨r, hr, rfl, rfl⟩
    exact ⟨rfl, hr⟩
  · rintro ⟨rfl, hr⟩
    exact ⟨(rig', e), hr, rfl, rfl⟩

theorem round_mono {fuel fuel' : Nat} {nw : Network} {rig : Rig} {r : Network × Outcome}
    (h : nw.round fuel rig = some r) (hle : fuel ≤ fuel') : nw.round fuel' rig = some r := by
  obtain ⟨nw', rig', e⟩ := r
  obtain ⟨hnw, ht⟩ := round_eq_some.1 h
  exact round_eq_some.2 ⟨hnw, turns_mono ht hle⟩

/-- A round of machines at rest changes nothing. -/
theorem round_of_rests {nw : Network} {rig : Rig} (h : ∀ k ∈ nw.members, rig.RestsAt k)
    (fuel : Nat) : nw.round (fuel + 1) rig = some (nw.countRound, rig, none) :=
  round_eq_some.2 ⟨rfl, turns_of_rests h fuel 0⟩

theorem Installed.steps {nw : Network} {rig : Rig} (h : nw.Installed rig) (ks : List Nat) :
    nw.Installed (rig.steps ks) := by
  intro k hk
  rw [Rig.machine?_steps_isSome]
  exact h k hk

/-- A machine at rest is in the rig. -/
theorem installed_of_rests {nw : Network} {rig : Rig} (h : ∀ k ∈ nw.members, rig.RestsAt k) :
    nw.Installed rig := by
  intro k hk
  obtain ⟨m, hm, -⟩ := h k hk
  rw [hm]
  rfl

/-- A round that leaves the snapshot as it was ends with all machines at rest. -/
theorem rests_of_round {fuel : Nat} {nw nw' : Network} {rig rig' : Rig} (hs : rig.Sound)
    (hi : nw.Installed rig) (h : nw.round fuel rig = some (nw', rig', none))
    (hsnap : nw'.snapshot rig' = nw.snapshot rig) : ∀ k ∈ nw.members, rig'.RestsAt k := by
  obtain ⟨rfl, ht⟩ := round_eq_some.1 h
  obtain ⟨sched, -, rfl⟩ := steps_of_turns ht
  exact (rests_of_turns hs hi ht (count_eq_of_snapshot_eq hi (hi.steps sched) hsnap)).2

/-! ## Calls -/

/-- One round of a call that goes on after it. -/
def Continues (c c' : Network × Rig) : Prop :=
  c.1.halted c.2 = false ∧ c.1.exhausted = false ∧
    (∃ fuel, c.1.round fuel c.2 = some (c'.1, c'.2, none)) ∧
    (c'.1.halted c'.2 = true ∨ c'.1.snapshot c'.2 ≠ c.1.snapshot c.2)

/-- The ways in which a call returns. -/
inductive Ends (nw : Network) (rig : Rig) : Network → Rig → Option RunError → Prop where
  | halted : nw.halted rig = true → Ends nw rig nw rig none
  | limit : nw.halted rig = false → nw.exhausted = true →
      Ends nw rig nw rig (some (.limit nw.rounds))
  | fault {fuel : Nat} {nw' : Network} {rig' : Rig} {err : RunError} :
      nw.halted rig = false → nw.exhausted = false →
      nw.round fuel rig = some (nw', rig', some err) → Ends nw rig nw' rig' (some err)
  | deadlock {fuel : Nat} {nw' : Network} {rig' : Rig} :
      nw.halted rig = false → nw.exhausted = false →
      nw.round fuel rig = some (nw', rig', none) → nw'.halted rig' = false →
      nw'.snapshot rig' = nw.snapshot rig →
      Ends nw rig nw' rig' (some (.deadlock nw'.rounds (nw'.waiting rig')))

theorem runFrom_mono {fuel fuel' rounds rounds' : Nat} {before : Snapshot} {nw : Network}
    {rig : Rig} {r : Network × Outcome} (h : runFrom fuel rounds before nw rig = some r)
    (hle : fuel ≤ fuel') (hle' : rounds ≤ rounds') :
    runFrom fuel' rounds' before nw rig = some r := by
  induction rounds generalizing rounds' before nw rig with
  | zero => cases h
  | succ rounds ih =>
    obtain ⟨rounds', rfl⟩ : ∃ n, rounds' = n + 1 := ⟨rounds' - 1, by omega⟩
    simp only [runFrom] at h ⊢
    split
    · next hh => rwa [if_pos hh] at h
    · next hh =>
      rw [if_neg hh] at h
      split
      · next hx => rwa [if_pos hx] at h
      · next hx =>
        rw [if_neg hx] at h
        cases hround : nw.round fuel rig with
        | none => simp [hround] at h
        | some out =>
          obtain ⟨nw₁, rig₁, e⟩ := out
          rw [round_mono hround hle]
          rw [hround] at h
          cases e with
          | some err => exact h
          | none =>
            simp only at h ⊢
            split
            · next hd => rwa [if_pos hd] at h
            · next hd =>
              rw [if_neg hd] at h
              exact ih h (by omega)

/-- How a call returns: some rounds after which it goes on, then one of the four
endings. -/
theorem runFrom_cases {fuel rounds : Nat} {nw nw' : Network} {rig rig' : Rig}
    {e : Option RunError}
    (h : runFrom fuel rounds (nw.snapshot rig) nw rig = some (nw', rig', e)) :
    ∃ nw₁ rig₁, ReflTransGen Continues (nw, rig) (nw₁, rig₁) ∧ Ends nw₁ rig₁ nw' rig' e := by
  induction rounds generalizing nw rig with
  | zero => cases h
  | succ rounds ih =>
    -- the cases are the exits of the loop, in the order in which it tests for them
    simp only [runFrom] at h
    split at h
    · next hh =>
      cases h
      exact ⟨_, _, .refl, .halted hh⟩
    · next hh =>
      have hh' : nw.halted rig = false := by simpa using hh
      split at h
      · next hx =>
        cases h
        exact ⟨_, _, .refl, .limit hh' hx⟩
      · next hx =>
        have hx' : nw.exhausted = false := by simpa using hx
        cases hround : nw.round fuel rig with
        | none => simp [hround] at h
        | some out =>
          obtain ⟨nw₁, rig₁, e₁⟩ := out
          rw [hround] at h
          cases e₁ with
          | some err =>
            cases h
            exact ⟨_, _, .refl, .fault hh' hx' hround⟩
          | none =>
            simp only at h
            split at h
            · next hd =>
              simp only [Bool.and_eq_true, Bool.not_eq_true', decide_eq_true_eq] at hd
              cases h
              exact ⟨_, _, .refl, .deadlock hh' hx' hround hd.1 hd.2⟩
            · next hd =>
              obtain ⟨nw₂, rig₂, hreach, hends⟩ := ih h
              refine ⟨nw₂, rig₂, .head ⟨hh', hx', ⟨fuel, hround⟩, ?_⟩ hreach, hends⟩
              by_cases hh₁ : nw₁.halted rig₁ = true
              · exact Or.inl hh₁
              · exact Or.inr fun hsnap => hd (by simp [hh₁, hsnap])

theorem run_cases {fuel : Nat} {nw nw' : Network} {rig rig' : Rig} {e : Option RunError}
    (h : nw.run fuel rig = some (nw', rig', e)) :
    ∃ nw₁ rig₁, ReflTransGen Continues (nw, rig) (nw₁, rig₁) ∧ Ends nw₁ rig₁ nw' rig' e :=
  runFrom_cases h

/-- An ending is what a call returns there, given enough fuel. -/
theorem runFrom_of_ends {nw nw' : Network} {rig rig' : Rig} {e : Option RunError}
    (h : Ends nw rig nw' rig' e) :
    ∃ fuel, runFrom fuel 1 (nw.snapshot rig) nw rig = some (nw', rig', e) := by
  cases h with
  | halted hh => exact ⟨0, by simp [runFrom, hh]⟩
  | limit hh hx => exact ⟨0, by simp [runFrom, hh, hx]⟩
  | @fault fuel _ _ _ hh hx hround => exact ⟨fuel, by simp [runFrom, hh, hx, hround]⟩
  | @deadlock fuel _ _ hh hx hround hh' hsnap =>
    exact ⟨fuel, by simp [runFrom, hh, hx, hround, hh', hsnap]⟩

/-- A call returns what its rounds lead to. -/
theorem run_of_ends {nw nw₁ nw' : Network} {rig rig₁ rig' : Rig} {e : Option RunError}
    (h : ReflTransGen Continues (nw, rig) (nw₁, rig₁)) (hends : Ends nw₁ rig₁ nw' rig' e) :
    ∃ least, ∀ fuel, least ≤ fuel → nw.run fuel rig = some (nw', rig', e) := by
  have key : ∃ fuel rounds,
      runFrom fuel rounds (nw.snapshot rig) nw rig = some (nw', rig', e) := by
    generalize hc : (nw, rig) = c at h
    generalize hc₁ : (nw₁, rig₁) = c₁ at h
    induction h using ReflTransGen.head_induction_on generalizing nw rig with
    | refl =>
      cases hc₁
      cases hc
      obtain ⟨fuel, hfuel⟩ := runFrom_of_ends hends
      exact ⟨fuel, 1, hfuel⟩
    | @head a b hab _ ih =>
      subst hc
      obtain ⟨nw₂, rig₂⟩ := b
      obtain ⟨hh, hx, ⟨fuel, hround⟩, hgo⟩ := hab
      obtain ⟨fuel', rounds, hrest⟩ := ih rfl
      simp only at hh hx hround hgo
      -- one number serves both as the fuel of this round and as that of the others
      refine ⟨max fuel fuel', rounds + 1, ?_⟩
      have hround' := round_mono hround (Nat.le_max_left fuel fuel')
      have hrest' := runFrom_mono hrest (Nat.le_max_right fuel fuel') (Nat.le_refl rounds)
      have hd : ¬ ((!nw₂.halted rig₂ && decide (nw₂.snapshot rig₂ = nw.snapshot rig)) = true) := by
        rcases hgo with hgo | hgo
        · simp [hgo]
        · simp [hgo]
      simp only [runFrom, hh, hx, hround', hd, if_false, Bool.false_eq_true]
      exact hrest'
  obtain ⟨fuel, rounds, hrun⟩ := key
  refine ⟨max fuel rounds, ?_⟩
  intro fuel' hle
  exact runFrom_mono hrun (by omega) (by omega)

/-- What a call leaves alone, and that all it does to the rig is a schedule of its
machines. -/
theorem Continues.keeps {c c' : Network × Rig} (h : ReflTransGen Continues c c') :
    c'.1.members = c.1.members ∧ c'.1.pipes = c.1.pipes ∧
      ∃ sched, (∀ k ∈ sched, k ∈ c.1.members) ∧ c.2.steps sched = c'.2 := by
  induction h with
  | refl => exact ⟨rfl, rfl, [], by simp, rfl⟩
  | tail _ hstep ih =>
    obtain ⟨hmem, hpipes, sched, hsched, hsteps⟩ := ih
    obtain ⟨-, -, ⟨fuel, hround⟩, -⟩ := hstep
    obtain ⟨hnw, ht⟩ := round_eq_some.1 hround
    obtain ⟨sched', hsched', hsteps'⟩ := steps_of_turns ht
    refine ⟨by rw [hnw]; exact hmem, by rw [hnw]; exact hpipes, sched ++ sched', ?_, ?_⟩
    · intro k hk
      rcases List.mem_append.1 hk with hk | hk
      · exact hsched k hk
      · rw [← hmem]
        exact hsched' k hk
    · rw [Rig.steps_append, hsteps, hsteps']

/-- The machines of the network stay sound and in the rig. -/
theorem Continues.intact {nw nw' : Network} {rig rig' : Rig} (hs : rig.Sound)
    (hi : nw.Installed rig) (h : ReflTransGen Continues (nw, rig) (nw', rig')) :
    rig'.Sound ∧ nw'.Installed rig' ∧ nw'.members = nw.members := by
  obtain ⟨hmem, -, sched, -, hsteps⟩ := Continues.keeps h
  simp only at hmem hsteps
  subst hsteps
  refine ⟨hs.steps sched, ?_, hmem⟩
  intro k hk
  rw [hmem] at hk
  exact hi.steps sched k hk

/-- A call that returns no error, or a deadlock, leaves all machines at rest. -/
theorem rests_of_run {fuel : Nat} {nw nw' : Network} {rig rig' : Rig} {e : Option RunError}
    (hs : rig.Sound) (hi : nw.Installed rig) (h : nw.run fuel rig = some (nw', rig', e))
    (he : e = none ∨ ∃ round waiting, e = some (.deadlock round waiting)) :
    ∀ k ∈ nw.members, rig'.RestsAt k := by
  obtain ⟨nw₁, rig₁, hreach, hends⟩ := run_cases h
  obtain ⟨hs₁, hi₁, hmem⟩ := Continues.intact hs hi hreach
  intro k hk
  rw [← hmem] at hk
  cases hends with
  | halted hh =>
    obtain ⟨m, hm⟩ := Option.isSome_iff_exists.1 (hi₁ k hk)
    exact ⟨m, hm, Or.inl (halted_iff.1 hh m (mem_machines.2 ⟨k, hk, hm⟩))⟩
  | limit => simp at he
  | fault _ _ hround =>
    obtain ⟨-, ht⟩ := round_eq_some.1 hround
    obtain ⟨i, j, m, f, rfl, -⟩ := faulted_of_turns ht
    simp at he
  | deadlock _ _ hround _ hsnap => exact rests_of_round hs₁ hi₁ hround hsnap k hk

end Network

end CellMachine
