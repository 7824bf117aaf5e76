import CellMachine.Amplifier
import CellMachine.Proofs.Twins
import CellMachine.Proofs.Wiring
import Mathlib.Data.List.Basic

/-!
# A chain is the composition of its machines

`Network.cascade` runs machines by themselves, one after another, each on its own
copy of a program, with its phase and everything that the one before has written.
What `Amplifier.amplify` answers for a chain can be read off these runs
(`Network.composed`): the first fault if there is one, a deadlock in the second round
if some runs end waiting, and otherwise the last value of the last run
(`Network.amplify_chain`).

In the first round a machine of the chain and the machine of the cascade that stands
for it are twins, since nobody else touches the pipe that it reads
(`Network.turn`).
-/

set_option autoImplicit false

namespace CellMachine.Network

open Relation

/-! ## Machines by themselves -/

/-- A machine at the end of a run by itself, with the values it has written. -/
structure Stage where
  machine : Machine
  outs : List Cell

/-- Runs a new machine on its own, with the given values to read. -/
def solo (fuel : Nat) (memory : Memory) (values : List Cell) : Option Stage :=
  ((Machine.new "vm" false memory 0 1).run fuel ⟨#[.ofList values, .empty]⟩).map
    fun (m, t) => ⟨m, (t.get 1).queue⟩

/-- Runs new machines one after another, each with its phase and all that the one
before has written, up to the first fault. The first one gets `signal`. -/
def cascade (fuel : Nat) (memory : Memory) : List Cell → List Cell → Option (List Stage)
  | _, [] => some []
  | signal, phase :: rest =>
    match solo fuel memory (phase :: signal) with
    | none => none
    | some stage =>
      match stage.machine.error? with
      | some _ => some [stage]
      | none => (cascade fuel memory stage.outs rest).map (stage :: ·)

/-- The position and the cause of the first fault, counted from `k`. -/
def firstFault? (k : Nat) : List Stage → Option (Nat × Fault)
  | [] => none
  | stage :: rest =>
    match stage.machine.error? with
    | some f => some (k, f.cause)
    | none => firstFault? (k + 1) rest

/-- The positions of the stages that ended waiting, in increasing order. -/
def waitingStages (stages : List Stage) : List Nat :=
  stages.zipIdx.filterMap fun (stage, k) =>
    if stage.machine.status = .waiting then some k else none

/-- The number of rounds and the answer that the runs of a cascade amount to. -/
def composed (phases : List Cell) (stages : List Stage) : Nat × Except AmplifierError Cell :=
  match firstFault? 0 stages with
  | some (k, cause) => (1, .error (.run phases (.machine k ⟨memberName k, cause⟩)))
  | none =>
    match waitingStages stages with
    | [] =>
      match stages[phases.length - 1]?.bind fun stage => stage.outs.getLast? with
      | some v => (1, .ok v)
      | none => (1, .error (.noOutput phases))
    | waiting => (2, .error (.run phases (.deadlock 2 waiting)))

/-! ## The turn of one machine -/

/-- The machine at a position of a chain. -/
def link (memory : Memory) (k : Nat) : Machine :=
  .new (memberName k) true memory k (k + 1)

/-- The chain from position `k` on waits for its first round: the machines are new,
their phases are in their pipes, and `signal` is behind the phase of the first. -/
structure Primed (memory : Memory) (rig : Rig) (k : Nat) (signal phases : List Cell) : Prop where
  machines : ∀ i, i < phases.length → rig.machine? (k + i) = some (link memory (k + i))
  first : ∀ phase rest, phases = phase :: rest → (rig.pipes.get k).queue = phase :: signal
  pipes : ∀ i, rig.pipes.get (k + 1 + i) = .ofList phases[i + 1]?.toList
  size : k + phases.length < rig.pipes.size

/-- Machine `k` of a chain has come to the same end as a stage of the cascade. -/
structure Ended (rig : Rig) (k : Nat) (stage : Stage) (m : Machine) : Prop where
  there : rig.machine? k = some m
  input : m.input = k
  output : m.output = k + 1
  status : m.status = stage.machine.status
  error : m.error? = stage.machine.error?.map fun f => ⟨memberName k, f.cause⟩
  rests : m.error? = none → m.Rests rig.pipes

/-- The machines from `k` on have come to the ends of the stages, without a fault. -/
def Completed (rig : Rig) (k : Nat) (stages : List Stage) : Prop :=
  ∀ i stage, stages[i]? = some stage → ∃ m, Ended rig (k + i) stage m ∧ m.Rests rig.pipes

/-- Machines in the same state report the same faults, under their own names. -/
theorem error?_of_alike {m m' : Machine} (h : m.Alike m') {name : String}
    (hn : ∀ f, m.fault = some f → f.name = name) :
    m.error? = m'.error?.map fun f => ⟨name, f.cause⟩ := by
  by_cases hf : m'.status = .faulted
  · have hcause := h.cause
    simp only [Machine.error?, h.status, hf, if_true]
    cases hm : m.fault with
    | none =>
      rw [hm, Option.map_none] at hcause
      rw [Option.map_eq_none_iff.1 hcause.symm, Option.map_none]
    | some f =>
      rw [hm, Option.map_some] at hcause
      obtain ⟨f', hf', hc⟩ := Option.map_eq_some_iff.1 hcause.symm
      rw [hf', Option.map_some, hc, ← hn f hm]
  · simp [Machine.error?, h.status, hf]

/-- In its first turn a machine of a chain does what it does by itself. -/
theorem turn {fuel : Nat} {memory : Memory} {rig : Rig} {k : Nat} {signal rest : List Cell}
    {phase : Cell} {stage : Stage} (h : Primed memory rig k signal (phase :: rest))
    (hsolo : solo fuel memory (phase :: signal) = some stage) :
    ∃ rig₁ m, rig.run fuel k = some rig₁ ∧ Ended rig₁ k stage m ∧
      (∀ j, j ≠ k → rig₁.machine? j = rig.machine? j) ∧
      (∀ i, i ≠ k → i ≠ k + 1 → rig₁.pipes.get i = rig.pipes.get i) ∧
      rig₁.pipes.get (k + 1) = (Pipe.ofList rest[0]?.toList).pushAll stage.outs ∧
      rig₁.pipes.size = rig.pipes.size := by
  obtain ⟨⟨ms, ts⟩, hrun, rfl⟩ := Option.map_eq_some_iff.1 hsolo
  have hk : rig.machine? k = some (link memory k) := h.machines 0 (by simp)
  have hw : (link memory k).Wired rig.pipes := by
    have := h.size
    simp only [List.length_cons] at this
    exact ⟨Nat.ne_of_lt (Nat.lt_succ_self k), by simp only [link, Machine.new]; omega⟩
  have hw' : (Machine.new "vm" false memory 0 1).Wired ⟨#[.ofList (phase :: signal), .empty]⟩ :=
    ⟨by simp [Machine.new], by simp [Machine.new, PipeTable.size]⟩
  -- at the start the two machines differ in names and pipes only
  have htwin : Machine.Twin (rig.pipes.get (k + 1)) .empty (link memory k) rig.pipes
      (.new "vm" false memory 0 1) ⟨#[.ofList (phase :: signal), .empty]⟩ := by
    refine ⟨Machine.alike_new .., ?_, [], rfl, rfl⟩
    rw [show (link memory k).input = k from rfl, h.first phase rest rfl]
    exact (Pipe.queue_ofList _).symm
  obtain ⟨m, t, hrun', htwin'⟩ := htwin.run hw hw' hrun
  obtain ⟨hin, hout, hsize, hget⟩ := Machine.run_frame hrun'
  have hout' : m.output = k + 1 := hout
  have hrig : rig.run fuel k = some ⟨rig.machines.setIfInBounds k m, t⟩ := by
    have hk' : rig.machines[k]? = some (link memory k) := hk
    simp only [Rig.run, hk', hrun']
  have hself : Rig.machine? ⟨rig.machines.setIfInBounds k m, t⟩ k = some m :=
    Rig.machine?_set_self hk m t
  obtain ⟨m', hm', hsound, hends⟩ :=
    Rig.rests_or_faulted_of_run hk (Machine.sound_new ..) hrig
  rw [hself] at hm'
  cases hm'
  refine ⟨_, m, hrig, ⟨hself, hin, hout', htwin'.alike.status, ?_, ?_⟩, ?_, ?_, ?_, hsize⟩
  · refine error?_of_alike htwin'.alike (Machine.fault_name_of_run hrun' ?_)
    intro f hf
    cases hf
  · intro he
    exact hends.resolve_right (hsound.not_faulted he)
  · intro j hj
    exact Rig.machine?_set_of_ne (Ne.symm hj) rig m t
  · intro i hi hi'
    exact hget i (Ne.symm hi) (Ne.symm hi')
  · -- nobody has read what the machine by itself wrote
    obtain ⟨values, hv, hv'⟩ := htwin'.sent
    obtain ⟨-, houts, -, -⟩ := Machine.run_frame hrun
    have houts' : (ts.get 1).queue = values := by
      rw [houts] at hv'
      rw [show ts.get 1 = Pipe.empty.pushAll values from hv', Pipe.queue_pushAll]
      rfl
    show t.get (k + 1) = (Pipe.ofList rest[0]?.toList).pushAll (ts.get 1).queue
    rw [houts', ← hout', hv]
    exact congrArg (Pipe.pushAll · values) (h.pipes 0)

/-- After its turn the rest of the chain waits for its first round. -/
theorem Primed.next {memory : Memory} {rig rig₁ : Rig} {k : Nat} {signal outs rest : List Cell}
    {phase : Cell} (h : Primed memory rig k signal (phase :: rest))
    (hmach : ∀ j, j ≠ k → rig₁.machine? j = rig.machine? j)
    (hpipes : ∀ i, i ≠ k → i ≠ k + 1 → rig₁.pipes.get i = rig.pipes.get i)
    (hout : rig₁.pipes.get (k + 1) = (Pipe.ofList rest[0]?.toList).pushAll outs)
    (hsize : rig₁.pipes.size = rig.pipes.size) : Primed memory rig₁ (k + 1) outs rest := by
  refine ⟨?_, ?_, ?_, ?_⟩
  · intro i hi
    rw [hmach _ (by omega), Nat.add_assoc, Nat.add_comm 1 i]
    exact h.machines (i + 1) (Nat.succ_lt_succ hi)
  · intro phase' rest' hrest
    rw [hout, hrest, Pipe.queue_pushAll, Pipe.queue_ofList]
    rfl
  · intro i
    rw [hpipes _ (by omega) (by omega)]
    have hi := h.pipes (i + 1)
    rw [List.getElem?_cons_succ] at hi
    rw [← hi]
    congr 1
    omega
  · have := h.size
    simp only [List.length_cons] at this
    omega

/-! ## The first round -/

/-- A machine that rests is not disturbed by the turns of the machines behind it, which
leave its pipe alone. -/
theorem Completed.cons {rig rig' : Rig} {k : Nat} {stage : Stage} {stages : List Stage}
    {m : Machine} (hm : Ended rig k stage m) (hnone : m.error? = none)
    (hmach : rig'.machine? k = rig.machine? k) (hpipe : rig'.pipes.get k = rig.pipes.get k)
    (h : Completed rig' (k + 1) stages) : Completed rig' k (stage :: stages) := by
  intro i stage' hi
  cases i with
  | zero =>
    cases hi
    have hrests : m.Rests rig'.pipes := by
      rcases hm.rests hnone with hh | ⟨hw, hi, hq⟩
      · exact Or.inl hh
      · exact Or.inr ⟨hw, hi, by rw [hm.input, hpipe, ← hm.input]; exact hq⟩
    exact ⟨m, ⟨hmach.trans hm.there, hm.input, hm.output, hm.status, hm.error, fun _ => hrests⟩,
      hrests⟩
  | succ i =>
    rw [show k + (i + 1) = k + 1 + i by omega]
    exact h i stage' hi

/-- The turns of the first round are the cascade. -/
theorem turns_chain {fuel : Nat} {memory : Memory} {rig : Rig} {k : Nat} {signal phases : List Cell}
    {stages : List Stage} (h : Primed memory rig k signal phases)
    (hc : cascade fuel memory signal phases = some stages) :
    ∃ rig', turns fuel k (List.range' k phases.length) rig = some (rig',
        (firstFault? k stages).map fun (i, cause) => .machine i ⟨memberName i, cause⟩) ∧
      (∀ j, j < k → rig'.machine? j = rig.machine? j ∧ rig'.pipes.get j = rig.pipes.get j) ∧
      (firstFault? k stages = none → stages.length = phases.length ∧ Completed rig' k stages ∧
        ∀ stage, stages.getLast? = some stage →
          rig'.pipes.get (k + phases.length) = .ofList stage.outs) := by
  induction phases generalizing rig k signal stages with
  | nil =>
    cases hc
    exact ⟨rig, rfl, fun _ _ => ⟨rfl, rfl⟩, fun _ => ⟨rfl, nofun, nofun⟩⟩
  | cons phase rest ih =>
    simp only [cascade] at hc
    split at hc
    · cases hc
    next stage hsolo =>
    obtain ⟨rig₁, m, hrun, hm, hmach, hpipes, hout, hsize⟩ := turn h hsolo
    have hframe : ∀ j, j < k → rig₁.machine? j = rig.machine? j ∧
        rig₁.pipes.get j = rig.pipes.get j := fun j hj =>
      ⟨hmach j (by omega), hpipes j (by omega) (by omega)⟩
    split at hc
    · next f he =>
      cases hc
      have hf : firstFault? k [stage] = some (k, f.cause) := by simp only [firstFault?, he]
      rw [hf]
      refine ⟨rig₁, turns_cons.2 ⟨rig₁, hrun, Or.inl ⟨⟨memberName k, f.cause⟩, ?_, rfl⟩⟩,
        hframe, nofun⟩
      rw [hm.there, Option.bind_some, hm.error, he]
      rfl
    · next he =>
      obtain ⟨stages', hc', rfl⟩ := Option.map_eq_some_iff.1 hc
      have hf : firstFault? k (stage :: stages') = firstFault? (k + 1) stages' := by
        simp only [firstFault?, he]
      obtain ⟨rig', hturns, hframe', hrest⟩ := ih (h.next hmach hpipes hout hsize) hc'
      have hnone : m.error? = none := by rw [hm.error, he]; rfl
      rw [hf]
      refine ⟨rig', turns_cons.2 ⟨rig₁, hrun, Or.inr ⟨?_, hturns⟩⟩, ?_, ?_⟩
      · rw [hm.there]
        exact hnone
      · intro j hj
        obtain ⟨hj₁, hj₂⟩ := hframe' j (by omega)
        rw [hj₁, hj₂]
        exact hframe j hj
      · intro hnf
        obtain ⟨hlen, hended, hlast⟩ := hrest hnf
        obtain ⟨hk₁, hk₂⟩ := hframe' k (Nat.lt_succ_self k)
        refine ⟨by rw [List.length_cons, hlen, List.length_cons],
          hended.cons hm hnone hk₁ hk₂, ?_⟩
        · intro stage' hs
          rw [List.length_cons, show k + (rest.length + 1) = k + 1 + rest.length by omega]
          cases stages' with
          | nil =>
            -- this was the last machine, and no turn has followed its own
            cases hs
            have hnil : rest = [] := List.length_eq_zero_iff.1 hlen.symm
            subst hnil
            have hrig : rig₁ = rig' := congrArg Prod.fst (Option.some.inj hturns)
            rw [← hrig]
            exact hout
          | cons s ss =>
            rw [List.getLast?_cons_cons] at hs
            exact hlast stage' hs

/-! ## The whole call -/

theorem getD_phasePipes (phases : List Cell) (i : Nat) :
    (phasePipes phases false).getD i .empty = .ofList phases[i]?.toList := by
  simp only [phasePipes, List.getD_eq_getElem?_getD, List.getElem?_append, List.length_map,
    List.getElem?_map, Bool.false_eq_true, if_false]
  by_cases hi : i < phases.length
  · simp [hi, Pipe.ofList]
  · simp only [hi, if_false, List.getElem?_eq_none (Nat.le_of_not_lt hi)]
    cases hi' : i - phases.length with
    | zero => rfl
    | succ j => rfl

theorem machine?_builtRig_empty {memory : Memory} {phases : List Cell} {k : Nat}
    (hk : k < phases.length) :
    (builtRig .empty memory phases false).machine? k = some (link memory k) := by
  have hbuilt : (builtRig .empty memory phases false).machine? (0 + k) =
      some (builtMember memory 0 (phasePipes phases false).length k) := machine?_builtRig hk
  rw [Nat.zero_add] at hbuilt
  have hnext : (k + 1) % (phases.length + 1) = k + 1 := Nat.mod_eq_of_lt (by omega)
  simp only [hbuilt, builtMember, link, length_phasePipes, Bool.false_eq_true, if_false, hnext,
    Nat.zero_add]

/-- A chain that has been given a signal waits for its first round. -/
theorem primed_seed {memory : Memory} {phases : List Cell} {limit : Nat} (hp : phases ≠ [])
    (v : Cell) :
    Primed memory ((built .empty phases false limit).seed (builtRig .empty memory phases false) v)
      0 [v] phases := by
  have hpos : 0 < phases.length := List.length_pos_iff.2 hp
  have hpipes : (builtRig .empty memory phases false).pipes.size = phases.length + 1 := by
    have hsize := PipeTable.size_addAll (phasePipes phases false) ⟨#[]⟩
    rw [length_phasePipes] at hsize
    exact hsize.trans (Nat.zero_add _)
  have hget : ∀ i, (builtRig .empty memory phases false).pipes.get i =
      .ofList phases[i]?.toList := by
    intro i
    rw [← getD_phasePipes]
    exact PipeTable.get_addAll (phasePipes phases false) ⟨#[]⟩ i
  have hfirst : (built .empty phases false limit).first? (builtRig .empty memory phases false) =
      some (link memory 0) := by
    have hhead : (built .empty phases false limit).members.head? = some 0 := by
      obtain ⟨phase, rest, rfl⟩ := List.exists_cons_of_ne_nil hp
      rfl
    rw [first?, hhead, Option.bind_some, machine?_builtRig_empty hpos]
  have hseed : (built .empty phases false limit).seed (builtRig .empty memory phases false) v =
      { builtRig .empty memory phases false with
        pipes := (builtRig .empty memory phases false).pipes.push 0 v } := by
    simp only [seed, hfirst]
    rfl
  rw [hseed]
  refine ⟨?_, ?_, ?_, ?_⟩
  · intro i hi
    rw [Nat.zero_add]
    exact machine?_builtRig_empty hi
  · intro phase rest hcons
    show (((builtRig .empty memory phases false).pipes.push 0 v).get 0).queue = _
    rw [PipeTable.get_push_self (by omega), Pipe.queue_push, hget, hcons, Pipe.queue_ofList]
    rfl
  · intro i
    show ((builtRig .empty memory phases false).pipes.push 0 v).get (0 + 1 + i) = _
    rw [PipeTable.get_push_of_ne (by omega), hget, Nat.zero_add, Nat.add_comm 1 i]
  · show _ < ((builtRig .empty memory phases false).pipes.push 0 v).size
    rw [PipeTable.size_push, hpipes]
    omega

section Completed

variable {nw : Network} {rig : Rig} {stages : List Stage}
  (hmem : nw.members = List.range' 0 stages.length) (h : Completed rig 0 stages)

include hmem h

theorem Completed.restsAt : ∀ k ∈ nw.members, rig.RestsAt k := by
  intro k hk
  rw [hmem, List.mem_range'_1] at hk
  obtain ⟨m, hm, hr⟩ := h k _ (List.getElem?_eq_getElem (by omega))
  exact ⟨m, by rw [← hm.there, Nat.zero_add], hr⟩

/-- Machines at the ends of stages have the statuses of the stages. -/
theorem Completed.status :
    (nw.machines rig).map Machine.status = stages.map fun stage => stage.machine.status := by
  apply List.ext_getElem?
  intro i
  rw [List.getElem?_map, List.getElem?_map, getElem?_machines (installed_of_rests (h.restsAt hmem)),
    hmem]
  by_cases hlt : i < stages.length
  · obtain ⟨m, hm, -⟩ := h i _ (List.getElem?_eq_getElem hlt)
    rw [List.getElem?_range' hlt, Option.bind_some, Nat.one_mul, hm.there,
      List.getElem?_eq_getElem hlt, Option.map_some, Option.map_some, hm.status]
  · rw [List.getElem?_eq_none (by rw [List.length_range']; omega), List.getElem?_eq_none (by omega)]
    rfl

/-- The machines that have not halted are those whose stages ended waiting. -/
theorem Completed.waiting_eq : nw.waiting rig = waitingStages stages := by
  have hleft : nw.waiting rig = ((nw.machines rig).map Machine.status).zipIdx.filterMap
      fun (s, k) => if s = .halted then none else some k := by
    simp only [waiting, List.zipIdx_map, List.filterMap_map]
    rfl
  have hright : waitingStages stages =
      (stages.map fun stage => stage.machine.status).zipIdx.filterMap
        fun (s, k) => if s = .waiting then some k else none := by
    simp only [waitingStages, List.zipIdx_map, List.filterMap_map]
    rfl
  rw [hleft, hright, h.status hmem]
  apply List.filterMap_congr
  rintro ⟨s, k⟩ hs
  -- a stage without a fault has halted or waits
  obtain ⟨stage, hstage, rfl⟩ := Option.map_eq_some_iff.1 (by
    rw [← List.getElem?_map]; exact List.mk_mem_zipIdx_iff_getElem?.1 hs)
  obtain ⟨m, hm, hr⟩ := h k stage hstage
  rcases hr with hh | ⟨hw, -⟩
  · simp [← hm.status, hh]
  · simp [← hm.status, hw]

/-- The last value that was written to the sink is the last one of the last stage. -/
theorem Completed.result?_eq {stage : Stage} (hlast : stages.getLast? = some stage)
    (hsink : rig.pipes.get stages.length = .ofList stage.outs) :
    nw.result? rig = stage.outs.getLast? := by
  obtain ⟨n, hn⟩ : ∃ n, stages.length = n + 1 :=
    ⟨stages.length - 1, by cases stages <;> simp_all⟩
  have hmember : nw.members.getLast? = some n := by
    rw [hmem, hn, List.range'_concat]
    simp
  have hn' : stages[n]? = some stage := by
    rw [← hlast, List.getLast?_eq_getElem?, hn]
    rfl
  obtain ⟨m, hm, -⟩ := h n stage hn'
  have hthere := hm.there
  have hout := hm.output
  rw [Nat.zero_add] at hthere hout
  have hs : nw.sink rig = stages.length := by
    rw [sink, last?, hmember, Option.bind_some, hthere, Option.map_some, Option.getD_some, hout, hn]
  rw [result?, hs, hsink]
  exact Pipe.last?_pushAll_empty stage.outs

end Completed

section Call

variable {memory : Memory} {signal phases : List Cell} {nw : Network} {rig rig' : Rig}
  (h : Primed memory rig 0 signal phases) (hmem : nw.members = List.range' 0 phases.length)

include h hmem

theorem Primed.machine? {k : Nat} (hk : k ∈ nw.members) :
    rig.machine? k = some (link memory k) := by
  rw [hmem, List.mem_range'_1] at hk
  rw [← Nat.zero_add k]
  exact h.machines k (by omega)

theorem Primed.halted_eq (hp : phases ≠ []) : nw.halted rig = false := by
  have hfirst : 0 ∈ nw.members := by
    have hpos := List.length_pos_iff.2 hp
    rw [hmem, List.mem_range'_1]
    omega
  exact halted_eq_false (mem_machines.2 ⟨0, hfirst, h.machine? hmem hfirst⟩) nofun

/-- A machine that was new before the round and waits after it has changed its mark. -/
theorem Primed.snapshot_ne (hrest : ∀ k ∈ nw.members, rig'.RestsAt k)
    (hh : nw.halted rig' = false) : nw.snapshot rig' ≠ nw.snapshot rig := by
  intro heq
  have hi : nw.Installed rig := by
    intro k hk
    rw [h.machine? hmem hk]
    rfl
  have hi' : nw.Installed rig' := installed_of_rests hrest
  have hall : nw.halted rig' = true := by
    rw [halted_iff]
    intro m hm
    obtain ⟨k, hk, hkm⟩ := mem_machines.1 hm
    obtain ⟨m', hm', hr⟩ := hrest k hk
    rw [hkm] at hm'
    cases hm'
    obtain ⟨hs, -, -⟩ := marks_eq_of_snapshot_eq hi hi' heq hk (h.machine? hmem hk) hkm
    rcases hr with hd | ⟨hw, -⟩
    · exact hd
    · rw [hw] at hs
      cases hs
  rw [hh] at hall
  cases hall

/-- A call for a chain amounts to what its cascade amounts to. -/
theorem Primed.run {fuel : Nat} {stages : List Stage} (hp : phases ≠ []) (hlimit : nw.limit = 0)
    (hzero : nw.rounds = 0) (hc : cascade fuel memory signal phases = some stages) :
    ∃ nw' outcome, (∃ least, ∀ fuel', least ≤ fuel' → nw.run fuel' rig = some (nw', outcome)) ∧
      nw'.rounds = (composed phases stages).1 ∧
      Amplifier.signal phases nw' outcome = (composed phases stages).2 := by
  obtain ⟨rig', hturns, -, hrest⟩ := turns_chain h hc
  rw [← hmem] at hturns
  have hround : nw.round fuel rig = some (nw.countRound, rig', _) :=
    round_eq_some.2 ⟨rfl, hturns⟩
  have hh := h.halted_eq hmem hp
  have hx : nw.exhausted = false := by simp [exhausted, hlimit]
  cases hf : firstFault? 0 stages with
  | some found =>
    obtain ⟨k, cause⟩ := found
    rw [hf] at hround
    -- the fault ends the call in its first round
    refine ⟨_, _, run_of_ends .refl (.fault hh hx hround), ?_, ?_⟩
    · simp [composed, hf, countRound, hzero]
    · simp [composed, hf, Amplifier.signal]
  | none =>
    rw [hf] at hround
    obtain ⟨hlen, hdone, hlast⟩ := hrest hf
    have hmem' : nw.countRound.members = List.range' 0 stages.length := by rw [hlen]; exact hmem
    have hwait := hdone.waiting_eq hmem'
    cases hw : waitingStages stages with
    | nil =>
      -- all have halted, and there is no second round
      have hh' : nw.countRound.halted rig' = true := waiting_eq_nil_iff.1 (hwait.trans hw)
      have hpos := List.length_pos_iff.2 hp
      obtain ⟨stage, hstage⟩ : ∃ stage, stages[phases.length - 1]? = some stage :=
        ⟨_, List.getElem?_eq_getElem (by omega)⟩
      have hstage' : stages.getLast? = some stage := by
        rw [List.getLast?_eq_getElem?, hlen, hstage]
      have hresult := hdone.result?_eq hmem' hstage' (by
        rw [hlen, ← hlast stage hstage', Nat.zero_add])
      refine ⟨nw.countRound, (rig', none),
        run_of_ends (.single ⟨hh, hx, ⟨fuel, hround⟩, Or.inl hh'⟩) (.halted hh'), ?_, ?_⟩
      · simp only [composed, hf, hw, hstage, Option.bind_some, countRound, hzero]
        cases stage.outs.getLast? <;> rfl
      · simp only [composed, hf, hw, hstage, Option.bind_some, Amplifier.signal, hresult]
        cases stage.outs.getLast? <;> rfl
    | cons k rest =>
      -- the first round has changed marks, and the second repeats them
      have hh' : nw.countRound.halted rig' = false := by
        rw [← Bool.not_eq_true, ← waiting_eq_nil_iff, hwait, hw]
        exact List.cons_ne_nil k rest
      have hsnap := h.snapshot_ne hmem (hdone.restsAt hmem') hh'
      have hround₂ := round_of_rests (hdone.restsAt hmem') 0
      have hx' : nw.countRound.exhausted = false := by simp [exhausted, countRound, hlimit]
      have hwait₂ : nw.countRound.countRound.waiting rig' = k :: rest := hwait.trans hw
      refine ⟨_, _, run_of_ends (.single ⟨hh, hx, ⟨fuel, hround⟩, Or.inr hsnap⟩)
        (.deadlock hh' hx' hround₂ hh' rfl), ?_, ?_⟩
      · simp [composed, hf, hw, countRound, hzero]
      · rw [hwait₂]
        simp [composed, hf, hw, Amplifier.signal, countRound, hzero]

end Call

/-- A chain is the sequential composition of its machines. If the runs of the cascade
come to an end, up to the first fault, then the answer for the chain is the one that
they amount to, after as many rounds as they amount to. -/
theorem amplify_chain {memory : Memory} {phases : List Cell} {settings : List NetworkSetting}
    {fuel : Nat} {stages : List Stage} (hm : memory.size ≠ 0) (hp : phases ≠ [])
    (hd : draft settings = .ok ⟨0, []⟩) (hc : cascade fuel memory [0] phases = some stages) :
    ∃ rig nw, build .empty memory phases false settings = .ok (rig, nw) ∧
      ∃ least, ∀ fuel', least ≤ fuel' →
        (∃ nw' outcome, nw.run fuel' (nw.seed rig 0) = some (nw', outcome) ∧
          nw'.rounds = (composed phases stages).1) ∧
        Amplifier.amplify fuel' memory phases false settings =
          some (composed phases stages).2 := by
  have hb : build .empty memory phases false settings =
      .ok (builtRig .empty memory phases false, built .empty phases false 0) :=
    build_eq .empty hm hp hd
  have hprimed : Primed memory ((built .empty phases false 0).seed
      (builtRig .empty memory phases false) 0) 0 [0] phases := primed_seed hp 0
  have hmem : (built .empty phases false 0).members = List.range' 0 phases.length := rfl
  obtain ⟨nw', outcome, ⟨least, hrun⟩, hrounds, hsignal⟩ := hprimed.run hmem hp rfl rfl hc
  refine ⟨_, _, hb, least, ?_⟩
  intro fuel' hle
  refine ⟨⟨nw', outcome, hrun fuel' hle, hrounds⟩, ?_⟩
  simp only [Amplifier.amplify, hb, hrun fuel' hle, hsignal]

/-- Reads a phase and a signal, passes on a signal one higher, and then halts if the
phase is zero and reads again if not. -/
def echo : Memory :=
  ⟨#[3, 17, 3, 18, 101, 1, 18, 18, 4, 18, 1006, 17, 15, 3, 18, 99, 99, 0, 0]⟩

/-- With zero phases both machines of a chain halt; the one that has another phase
reads again and is reported. -/
theorem echo_chain :
    (∃ stages, cascade 9 echo [0] [0, 0] = some stages ∧
      ∃ least, ∀ fuel, least ≤ fuel → Amplifier.amplify fuel echo [0, 0] false [] = some (.ok 2)) ∧
    ∃ stages, cascade 9 echo [0] [0, 7] = some stages ∧
      ∃ least, ∀ fuel, least ≤ fuel → Amplifier.amplify fuel echo [0, 7] false [] =
        some (.error (.run [0, 7] (.deadlock 2 [1]))) := by
  have hsize : echo.size ≠ 0 := by decide
  have hdraft : draft [] = .ok ⟨0, []⟩ := rfl
  have hhalts : (cascade 9 echo [0] [0, 0]).map (composed [0, 0]) = some (1, .ok 2) := by
    decide +kernel
  have hwaits : (cascade 9 echo [0] [0, 7]).map (composed [0, 7]) =
      some (2, .error (.run [0, 7] (.deadlock 2 [1]))) := by
    decide +kernel
  obtain ⟨stages, hc, hval⟩ := Option.map_eq_some_iff.1 hhalts
  obtain ⟨stages', hc', hval'⟩ := Option.map_eq_some_iff.1 hwaits
  obtain ⟨_, _, -, least, h⟩ := amplify_chain hsize (by decide) hdraft hc
  obtain ⟨_, _, -, least', h'⟩ := amplify_chain hsize (by decide) hdraft hc'
  rw [hval] at h
  rw [hval'] at h'
  exact ⟨⟨stages, hc, least, fun fuel hle => (h fuel hle).2⟩,
    stages', hc', least', fun fuel hle => (h' fuel hle).2⟩

end CellMachine.Network
