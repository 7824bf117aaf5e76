import CellMachine.Amplifier
import CellMachine.Proofs.Confluence
import CellMachine.Proofs.Twins
import CellMachine.Proofs.Wiring

/-!
# Where the signal of an amplifier comes from

The signal is read off a pipe: it is the last value that was ever pushed to the pipe
that the last machine writes to. To say who pushed it, the output instructions of one
machine are recorded here while a network runs (`Network.sent`), by functions that go
through a run exactly as the run itself does.

No machine but the last writes to the sink, so the history of the sink is what was in
it before the first round and then the record (`Network.written_runFrom`). The
sink of a chain is empty at first. That of a ring is the input of the first machine: a
phase and the seed are in it before anything is sent. So the answer for a ring that
halts without an output of its last machine is the seed.
-/

set_option autoImplicit false

namespace CellMachine

/-! ## Records of output -/

namespace Machine

/-- The values that a run sends. -/
def sent : Nat → Machine → PipeTable → List Cell
  | 0, _, _ => []
  | fuel + 1, m, t =>
    if m.status = .halted then []
    else
      m.sending?.toList ++
        if (m.step t).1.status = .running then sent fuel (m.step t).1 (m.step t).2 else []

/-- All that a run adds to the history of a pipe is what its machine sends there. -/
theorem history_run {fuel : Nat} {m m' : Machine} {t t' : PipeTable} {i : Nat} (hi : i < t.size)
    (h : m.run fuel t = some (m', t')) :
    (t'.get i).history.toList =
      (t.get i).history.toList ++ if m.output = i then m.sent fuel t else [] := by
  induction fuel generalizing m t with
  | zero => cases h
  | succ fuel ih =>
    have hstep := history_step m hi
    by_cases hh : m.status = .halted
    · simp only [run, hh, if_true] at h
      cases h
      simp [sent, hh]
    · by_cases hr : (m.step t).1.status = .running
      · simp only [run, hh, if_false, hr, if_true] at h
        have hrest := ih (by rw [size_step]; exact hi) h
        rw [hrest, hstep, (m.step_wiring t).2]
        by_cases ho : m.output = i
        · simp [sent, hh, hr, ho]
        · simp [ho]
      · simp only [run, hh, if_false, hr] at h
        cases h
        rw [hstep]
        by_cases ho : m.output = i
        · simp [sent, hh, hr, ho]
        · simp [ho]

end Machine

namespace Rig

/-- The values that a run of machine `k` sends. -/
def sent (fuel : Nat) (rig : Rig) (k : Nat) : List Cell :=
  match rig.machine? k with
  | none => []
  | some m => m.sent fuel rig.pipes

/-- Everything that was ever pushed to pipe `i`. -/
def written (rig : Rig) (i : Nat) : List Cell :=
  (rig.pipes.get i).history.toList

/-- Pipe `i` is there, and of the machines in `S` only machine `k` writes to it. -/
structure SoleWriter (rig : Rig) (S : List Nat) (k i : Nat) : Prop where
  there : i < rig.pipes.size
  writes : ∀ j ∈ S, ∀ m, rig.machine? j = some m → (m.output = i ↔ j = k)

section SoleWriter

variable {rig rig' : Rig} {S : List Nat} {k i : Nat}

@[simp]
theorem size_pipes_step (rig : Rig) (j : Nat) : (rig.step j).pipes.size = rig.pipes.size := by
  cases hj : rig.machine? j with
  | none => rw [step_of_none hj]
  | some m => rw [pipes_step hj, Machine.size_step]

theorem SoleWriter.step (h : rig.SoleWriter S k i) (j : Nat) : (rig.step j).SoleWriter S k i := by
  constructor
  · rw [size_pipes_step]
    exact h.there
  · intro l hl m hm
    obtain ⟨m₀, hm₀, -, hout⟩ := wiring_step hm
    rw [hout]
    exact h.writes l hl m₀ hm₀

theorem SoleWriter.steps (h : rig.SoleWriter S k i) (ks : List Nat) :
    (rig.steps ks).SoleWriter S k i := by
  induction ks generalizing rig with
  | nil => exact h
  | cons j rest ih => exact ih (h.step j)

theorem SoleWriter.written_run {fuel j : Nat} (h : rig.SoleWriter S k i) (hj : j ∈ S)
    (hrun : rig.run fuel j = some rig') :
    rig'.written i = rig.written i ++ if j = k then rig.sent fuel j else [] := by
  cases hm : rig.machine? j with
  | none =>
    rw [run_of_none hm] at hrun
    cases hrun
    simp [sent, hm]
  | some m =>
    have hm' : rig.machines[j]? = some m := hm
    cases hmrun : m.run fuel rig.pipes with
    | none => simp [run, hm', hmrun] at hrun
    | some out =>
      obtain ⟨m', t⟩ := out
      simp only [run, hm', hmrun, Option.some.injEq] at hrun
      subst hrun
      have hist := Machine.history_run h.there hmrun
      simp only [h.writes j hj m hm] at hist
      simp only [sent, hm]
      exact hist

end SoleWriter

end Rig

namespace Network

/-- The values that machine `k` sends when machines run in turn. -/
def sentInTurns (fuel k : Nat) : List Nat → Rig → List Cell
  | [], _ => []
  | j :: rest, rig =>
    (if j = k then rig.sent fuel j else []) ++
      match rig.run fuel j with
      | none => []
      | some rig =>
        match (rig.machine? j).bind Machine.error? with
        | some _ => []
        | none => sentInTurns fuel k rest rig

/-- The values that machine `k` sends in rounds, given the snapshot taken before the
first. -/
def sentFrom (fuel k : Nat) : Nat → Snapshot → Network → Rig → List Cell
  | 0, _, _, _ => []
  | rounds + 1, before, nw, rig =>
    if nw.halted rig then []
    else if nw.exhausted then []
    else
      sentInTurns fuel k nw.members rig ++
        match nw.round fuel rig with
        | none => []
        | some (_, _, some _) => []
        | some (nw, rig, none) =>
          let after := nw.snapshot rig
          if !nw.halted rig && after = before then [] else sentFrom fuel k rounds after nw rig

/-- The values that machine `k` sends while the network runs. -/
def sent (fuel : Nat) (nw : Network) (rig : Rig) (k : Nat) : List Cell :=
  sentFrom fuel k fuel (nw.snapshot rig) nw rig

section Written

variable {k i : Nat} {S : List Nat}

theorem written_turns {fuel position : Nat} {ks : List Nat} {rig rig' : Rig} {e : Option RunError}
    (hw : rig.SoleWriter S k i) (hks : ∀ j ∈ ks, j ∈ S)
    (h : turns fuel position ks rig = some (rig', e)) :
    rig'.written i = rig.written i ++ sentInTurns fuel k ks rig := by
  induction ks generalizing position rig with
  | nil =>
    cases h
    exact (List.append_nil _).symm
  | cons j rest ih =>
    obtain ⟨rig₁, hrun, hcase⟩ := turns_cons.1 h
    have hfirst := hw.written_run (hks j List.mem_cons_self) hrun
    rcases hcase with ⟨f, hf, hr⟩ | ⟨hnone, hrest⟩
    · -- a fault ends the turns
      cases hr
      simp only [sentInTurns, hrun, hf, List.append_nil]
      exact hfirst
    · have hw₁ : rig₁.SoleWriter S k i := by
        obtain ⟨n, rfl⟩ := Rig.steps_of_run hrun
        exact hw.steps _
      have htail := ih hw₁ (fun l hl => hks l (List.mem_cons_of_mem j hl)) hrest
      simp only [sentInTurns, hrun, hnone]
      rw [htail, hfirst, List.append_assoc]

theorem written_round {fuel : Nat} {nw nw' : Network} {rig rig' : Rig} {e : Option RunError}
    (hw : rig.SoleWriter nw.members k i) (h : nw.round fuel rig = some (nw', rig', e)) :
    rig'.written i = rig.written i ++ sentInTurns fuel k nw.members rig ∧
      rig'.SoleWriter nw'.members k i := by
  obtain ⟨rfl, ht⟩ := round_eq_some.1 h
  refine ⟨written_turns hw (fun _ hj => hj) ht, ?_⟩
  obtain ⟨sched, -, rfl⟩ := steps_of_turns ht
  exact hw.steps sched

/-- The history of a pipe with one writer, after a call: what was there before, and the
record of that writer. -/
theorem written_runFrom {fuel rounds : Nat} {before : Snapshot} {nw nw' : Network} {rig rig' : Rig}
    {e : Option RunError} (hw : rig.SoleWriter nw.members k i)
    (h : runFrom fuel rounds before nw rig = some (nw', rig', e)) :
    rig'.written i = rig.written i ++ sentFrom fuel k rounds before nw rig := by
  induction rounds generalizing before nw rig with
  | zero => cases h
  | succ rounds ih =>
    by_cases hh : nw.halted rig = true
    · simp only [runFrom, hh, if_true] at h
      cases h
      simp [sentFrom, hh]
    by_cases hx : nw.exhausted = true
    · simp only [runFrom, hh, hx, if_true] at h
      cases h
      simp [sentFrom, hx]
    cases hround : nw.round fuel rig with
    | none => simp [runFrom, hh, hx, hround] at h
    | some out =>
      obtain ⟨nw₁, rig₁, e₁⟩ := out
      obtain ⟨hone, hw₁⟩ := written_round hw hround
      cases e₁ with
      | some err =>
        simp only [runFrom, hh, hx, hround] at h
        cases h
        simp [sentFrom, hh, hx, hround, hone]
      | none =>
        by_cases hd : (!nw₁.halted rig₁ && decide (nw₁.snapshot rig₁ = before)) = true
        · simp only [runFrom, hh, hx, hround, hd, if_true] at h
          cases h
          simp only [sentFrom, hh, hx, hround, hd, if_true]
          simpa using hone
        · simp only [runFrom, hh, hx, hround, hd] at h
          have hrest := ih hw₁ h
          simp only [sentFrom, hh, hx, hround, hd]
          simpa [hone] using hrest

end Written

/-! ## The sink of a chain and of a ring -/

/-- A call without an error has come to the end of all machines. -/
theorem halted_of_run {fuel : Nat} {nw nw' : Network} {rig rig' : Rig}
    (h : nw.run fuel rig = some (nw', rig', none)) : nw'.halted rig' = true := by
  obtain ⟨nw₁, rig₁, -, hends⟩ := run_cases h
  cases hends with
  | halted hh => exact hh

/-- The result of a network is the last value of the pipe to which only its last machine
writes. -/
theorem result?_eq_getLast? {nw : Network} {rig : Rig} {k i : Nat}
    (hlast : nw.members.getLast? = some k) (hin : nw.Installed rig)
    (hw : rig.SoleWriter nw.members k i) : nw.result? rig = (rig.written i).getLast? := by
  have hmem : k ∈ nw.members := List.mem_of_getLast? hlast
  obtain ⟨m, hm⟩ := Option.isSome_iff_exists.1 (hin k hmem)
  have hout : m.output = i := (hw.writes k hmem m hm).2 rfl
  have hsink : nw.sink rig = i := by
    rw [sink, last?, hlast, Option.bind_some, hm, Option.map_some, Option.getD_some, hout]
  rw [result?, hsink, Pipe.last?, ← Array.getLast?_toList]
  rfl

/-- Only a program with cells and a list with phases make a network. -/
theorem nonempty_of_build {rig rig' : Rig} {memory : Memory} {phases : List Cell} {ring : Bool}
    {settings : List NetworkSetting} {nw : Network}
    (h : build rig memory phases ring settings = .ok (rig', nw)) :
    memory.size ≠ 0 ∧ phases ≠ [] := by
  cases phases with
  | nil => cases h
  | cons phase rest =>
    refine ⟨?_, List.cons_ne_nil phase rest⟩
    intro hm
    cases hd : draft settings with
    | error e =>
      simp only [build, hd, List.isEmpty_cons, bind, Except.bind] at h
      cases h
    | ok d =>
      -- the first machine is refused
      have hinst : ∀ rig : Rig, ∀ base pipes : Nat,
          installMembers memory base pipes d.machines (List.range (rest.length + 1)) rig =
            .error (.machine 0 .emptyMemory) := by
        intro rig base pipes
        rw [List.range_succ_eq_map]
        simp only [installMembers, Rig.install, hm, if_true]
        rfl
      simp only [build, hd, List.isEmpty_cons, List.length_cons, hinst, bind, Except.bind] at h
      cases h

/-- The rig of an amplifier before its first round. -/
def started (memory : Memory) (phases : List Cell) (ring : Bool) (limit : Nat) : Rig :=
  (built .empty phases ring limit).seed (builtRig .empty memory phases ring) 0

/-- The pipe that the last machine of an amplifier writes to: the input of the first
machine in a ring, and a pipe of its own in a chain. -/
def sinkOf (phases : List Cell) (ring : Bool) : Nat :=
  if ring then 0 else phases.length

section Started

variable (memory : Memory) {phases : List Cell} (ring : Bool) (limit : Nat)

theorem mod_length_phasePipes (phases : List Cell) (ring : Bool) :
    phases.length % (phasePipes phases ring).length = sinkOf phases ring := by
  rw [length_phasePipes, sinkOf]
  cases ring with
  | true => exact Nat.mod_self _
  | false => exact Nat.mod_eq_of_lt (Nat.lt_succ_self _)

theorem machine?_started {j : Nat} (hj : j < phases.length) :
    (started memory phases ring limit).machine? j =
      some (builtMember memory 0 (phasePipes phases ring).length j) := by
  have hbuilt : (builtRig .empty memory phases ring).machine? (0 + j) =
      some (builtMember memory 0 (phasePipes phases ring).length j) := machine?_builtRig hj
  rw [Nat.zero_add] at hbuilt
  rw [started, machine?_seed, hbuilt]

theorem pipes_started (hp : phases ≠ []) :
    (started memory phases ring limit).pipes =
      ((phasePipes phases ring).foldl PipeTable.add ⟨#[]⟩).push 0 0 := by
  have hpos : 0 < phases.length := List.length_pos_iff.2 hp
  have hfirst : (built .empty phases ring limit).first? (builtRig .empty memory phases ring) =
      some (builtMember memory 0 (phasePipes phases ring).length 0) := by
    have hhead : (built .empty phases ring limit).members.head? = some 0 := by
      obtain ⟨phase, rest, rfl⟩ := List.exists_cons_of_ne_nil hp
      rfl
    have hthere := machine?_started memory ring limit hpos
    rw [started, machine?_seed] at hthere
    rw [first?, hhead, Option.bind_some, hthere]
  simp only [started, seed, hfirst]
  rfl

theorem getLast?_members (hp : phases ≠ []) :
    (built .empty phases ring limit).members.getLast? = some (phases.length - 1) := by
  have hpos : 0 < phases.length := List.length_pos_iff.2 hp
  show (List.range' 0 phases.length).getLast? = some (phases.length - 1)
  rw [List.getLast?_range', if_neg (by omega), Nat.zero_add]

/-- Of the machines of an amplifier only the last one writes to the sink. -/
theorem soleWriter_started (hp : phases ≠ []) :
    (started memory phases ring limit).SoleWriter (built .empty phases ring limit).members
      (phases.length - 1) (sinkOf phases ring) := by
  have hpos : 0 < phases.length := List.length_pos_iff.2 hp
  have hlen : (phasePipes phases ring).length = phases.length ∨
      (phasePipes phases ring).length = phases.length + 1 := by
    rw [length_phasePipes]
    cases ring <;> simp
  have hlast : phases.length - 1 + 1 = phases.length := by omega
  constructor
  · rw [pipes_started memory ring limit hp, PipeTable.size_push, PipeTable.size_addAll,
      ← mod_length_phasePipes]
    have hmod : phases.length % (phasePipes phases ring).length < (phasePipes phases ring).length :=
      Nat.mod_lt _ (by omega)
    omega
  · intro j hj m hm
    obtain ⟨l, hl, rfl⟩ := mem_built.1 hj
    have hzero : Rig.empty.machines.size + l = l := Nat.zero_add l
    rw [hzero, machine?_started memory ring limit hl] at hm
    cases hm
    show 0 + (l + 1) % (phasePipes phases ring).length = sinkOf phases ring ↔ _
    rw [hzero, Nat.zero_add, ← mod_length_phasePipes]
    constructor
    · intro heq
      apply Classical.byContradiction
      intro hne
      have hdiff := next_pipe_ne hlen hl (by omega : phases.length - 1 < phases.length) hne
      rw [hlast] at hdiff
      exact hdiff heq
    · rintro rfl
      rw [hlast]

/-- Before the first round there are a phase and the seed in the sink of a ring, and
nothing in that of a chain. -/
theorem written_started (hp : phases ≠ []) :
    ∃ phase, (started memory phases ring limit).written (sinkOf phases ring) =
      if ring then [phase, 0] else [] := by
  obtain ⟨phase, rest, rfl⟩ := List.exists_cons_of_ne_nil hp
  refine ⟨phase, ?_⟩
  rw [Rig.written, pipes_started memory ring limit hp]
  cases ring with
  | true =>
    have hsize : 0 < ((phasePipes (phase :: rest) true).foldl PipeTable.add ⟨#[]⟩).size := by
      rw [PipeTable.size_addAll, length_phasePipes]
      exact Nat.succ_pos _
    rw [sinkOf, if_pos rfl, PipeTable.get_push_self hsize, PipeTable.get_addAll]
    rfl
  | false =>
    have hne : 0 ≠ sinkOf (phase :: rest) false := by simp [sinkOf]
    have hempty : (phasePipes (phase :: rest) false).getD (rest.length + 1) .empty = .empty := by
      simp [phasePipes]
    rw [PipeTable.get_push_of_ne hne, PipeTable.get_addAll]
    exact congrArg (fun p : Pipe => p.history.toList) hempty

/-- The result of an amplifier that has been run, from the record of its last machine. -/
theorem result?_run (hp : phases ≠ []) {fuel : Nat} {nw : Network} {final : Rig}
    {e : Option RunError}
    (h : (built .empty phases ring limit).run fuel (started memory phases ring limit) =
      some (nw, final, e)) :
    nw.result? final =
      if ring then
        some (((built .empty phases ring limit).sent fuel (started memory phases ring limit)
          (phases.length - 1)).getLast?.getD 0)
      else
        ((built .empty phases ring limit).sent fuel (started memory phases ring limit)
          (phases.length - 1)).getLast? := by
  have hw := soleWriter_started memory ring limit hp
  have hin : (built .empty phases ring limit).Installed (started memory phases ring limit) := by
    intro j hj
    rw [started, machine?_seed]
    exact installed_built j hj
  have hlast := getLast?_members ring limit hp
  obtain ⟨phase, hbefore⟩ := written_started memory ring limit hp
  have hwritten := written_runFrom hw h
  -- the machines are still there and write to the same pipes
  obtain ⟨hmem, sched, -, rfl⟩ := steps_of_run h
  have hin' := hin.steps sched
  have hw' := hw.steps sched
  rw [← hmem] at hlast hw'
  have hresult := result?_eq_getLast? hlast (fun j hj => hin' j (hmem ▸ hj)) hw'
  rw [hresult, hwritten, hbefore, sent]
  cases ring with
  | true => simp [List.getLast?_cons]
  | false => simp

end Started

end Network

/-! ## The signal -/

namespace Amplifier

/-- The amplifier can be built, and runs until all its machines have halted. -/
def Halts (fuel : Nat) (memory : Memory) (phases : List Cell) (feedback : Bool)
    (settings : List NetworkSetting) : Prop :=
  ∃ rig nw nw' final, Network.build .empty memory phases feedback settings = .ok (rig, nw) ∧
    nw.run fuel (nw.seed rig 0) = some (nw', final, none) ∧ nw'.halted final = true

/-- The values of the output instructions that the last machine of an amplifier
executes, in their order. -/
def lastSent (fuel : Nat) (memory : Memory) (phases : List Cell) (feedback : Bool)
    (settings : List NetworkSetting) : List Cell :=
  match Network.build .empty memory phases feedback settings with
  | .error _ => []
  | .ok (rig, nw) => nw.members.getLast?.elim [] (nw.sent fuel (nw.seed rig 0))

section Built

variable {settings : List NetworkSetting} {limit : Nat} {memory : Memory} {phases : List Cell}
  (hm : memory.size ≠ 0) (hp : phases ≠ []) (hd : Network.draft settings = .ok ⟨limit, []⟩)
  (fuel : Nat) (feedback : Bool)

include hm hp hd

theorem lastSent_eq :
    lastSent fuel memory phases feedback settings =
      (Network.built .empty phases feedback limit).sent fuel
        (Network.started memory phases feedback limit) (phases.length - 1) := by
  simp only [lastSent, Network.build_eq .empty hm hp hd,
    Network.getLast?_members feedback limit hp, Option.elim_some]
  rfl

theorem halts_iff :
    Halts fuel memory phases feedback settings ↔
      ∃ nw final, (Network.built .empty phases feedback limit).run fuel
        (Network.started memory phases feedback limit) = some (nw, final, none) := by
  constructor
  · rintro ⟨rig, nw, nw', final, hb, hrun, -⟩
    rw [Network.build_eq .empty hm hp hd] at hb
    cases hb
    exact ⟨nw', final, hrun⟩
  · rintro ⟨nw', final, hrun⟩
    exact ⟨_, _, nw', final, Network.build_eq .empty hm hp hd, hrun, Network.halted_of_run hrun⟩

theorem amplify_eq :
    amplify fuel memory phases feedback settings =
      ((Network.built .empty phases feedback limit).run fuel
        (Network.started memory phases feedback limit)).map fun r => signal phases r.1 r.2 := by
  simp only [amplify, Network.build_eq .empty hm hp hd, Network.started]
  generalize (Network.built .empty phases feedback limit).run fuel _ = returned
  cases returned with
  | none => rfl
  | some out => rfl

/-- What an amplifier that halts answers. -/
theorem amplify_of_halts (h : Halts fuel memory phases feedback settings) :
    amplify fuel memory phases feedback settings =
      some ((lastSent fuel memory phases feedback settings).getLast?.elim
        (if feedback then .ok 0 else .error (.noOutput phases)) .ok) := by
  obtain ⟨nw, final, hrun⟩ := (halts_iff hm hp hd fuel feedback).1 h
  have hresult := Network.result?_run memory feedback limit hp hrun
  rw [amplify_eq hm hp hd, hrun, lastSent_eq hm hp hd, Option.map_some]
  simp only [signal, hresult]
  generalize ((Network.built .empty phases feedback limit).sent fuel
    (Network.started memory phases feedback limit) (phases.length - 1)).getLast? = last
  -- a ring has an answer in either case, a chain only in one
  cases feedback with
  | true => cases last <;> rfl
  | false => cases last <;> rfl

/-- An amplifier that does not halt has neither a signal nor a missing output. -/
theorem halts_of_amplify
    (h : (∃ v, amplify fuel memory phases feedback settings = some (.ok v)) ∨
      amplify fuel memory phases feedback settings = some (.error (.noOutput phases))) :
    Halts fuel memory phases feedback settings := by
  rw [halts_iff hm hp hd]
  rw [amplify_eq hm hp hd] at h
  cases hrun : (Network.built .empty phases feedback limit).run fuel
      (Network.started memory phases feedback limit) with
  | none => simp [hrun] at h
  | some out =>
    obtain ⟨nw, final, e⟩ := out
    cases e with
    | none => exact ⟨nw, final, rfl⟩
    | some err => simp [hrun, signal] at h

end Built

/-- Which value is the signal. An amplifier that halts answers with the last output of
its last machine. If there was none, a chain reports this, and a ring answers with the
seed, which is still the last value in the pipe that the output would have gone to. -/
theorem amplify_signal {settings : List NetworkSetting} {limit : Nat}
    (hd : Network.draft settings = .ok ⟨limit, []⟩) (fuel : Nat) (memory : Memory)
    (phases : List Cell) (feedback : Bool) :
    (∀ v, amplify fuel memory phases feedback settings = some (.ok v) ↔
      Halts fuel memory phases feedback settings ∧
        ((lastSent fuel memory phases feedback settings).getLast? = some v ∨
          feedback = true ∧ lastSent fuel memory phases feedback settings = [] ∧ v = 0)) ∧
    (amplify fuel memory phases feedback settings = some (.error (.noOutput phases)) ↔
      Halts fuel memory phases feedback settings ∧ feedback = false ∧
        lastSent fuel memory phases feedback settings = []) := by
  cases hb : Network.build .empty memory phases feedback settings with
  | error e => simp [amplify, Halts, hb]
  | ok out =>
    obtain ⟨rig, nw⟩ := out
    obtain ⟨hm, hp⟩ := Network.nonempty_of_build hb
    have hhalts := halts_of_amplify hm hp hd fuel feedback
    have hanswer := amplify_of_halts hm hp hd fuel feedback
    have hnil : lastSent fuel memory phases feedback settings = [] ↔
        (lastSent fuel memory phases feedback settings).getLast? = none :=
      List.getLast?_eq_none_iff.symm
    rw [hnil]
    generalize (lastSent fuel memory phases feedback settings).getLast? = last at hanswer ⊢
    constructor
    · intro v
      constructor
      · intro hok
        have h := hhalts (Or.inl ⟨v, hok⟩)
        rw [hanswer h] at hok
        refine ⟨h, ?_⟩
        cases last with
        | some v' =>
          cases hok
          exact Or.inl rfl
        | none =>
          cases feedback with
          | true =>
            cases hok
            exact Or.inr ⟨rfl, rfl, rfl⟩
          | false => cases hok
      · rintro ⟨h, rfl | ⟨rfl, rfl, rfl⟩⟩
        · exact hanswer h
        · exact hanswer h
    · constructor
      · intro herr
        have h := hhalts (Or.inr herr)
        rw [hanswer h] at herr
        refine ⟨h, ?_⟩
        cases last with
        | some v' => cases herr
        | none =>
          cases feedback with
          | true => cases herr
          | false => exact ⟨rfl, rfl⟩
      · rintro ⟨h, rfl, rfl⟩
        exact hanswer h

/-- Adds its phase to the signal. -/
def adder : Memory :=
  ⟨#[3, 0, 3, 1, 1, 0, 1, 0, 4, 0, 99]⟩

theorem adder_signal :
    Network.draft [] = .ok ⟨0, []⟩ ∧
      amplify 9 adder [5, 6] true [] = some (.ok 11) ∧
      Halts 9 adder [5, 6] true [] ∧ lastSent 9 adder [5, 6] true [] = [11] := by
  have hdraft : Network.draft [] = .ok ⟨0, []⟩ := rfl
  have hok : amplify 9 adder [5, 6] true [] = some (.ok 11) := rfl
  exact ⟨hdraft, hok, (((amplify_signal hdraft 9 adder [5, 6] true).1 11).1 hok).1, rfl⟩

/-- A program that halts at once sends nothing. In a chain this is reported; in a ring
the seed is returned. -/
theorem silent_signal :
    lastSent 2 ⟨#[99]⟩ [1] false [] = [] ∧
      amplify 2 ⟨#[99]⟩ [1] false [] = some (.error (.noOutput [1])) ∧
      lastSent 2 ⟨#[99]⟩ [1] true [] = [] ∧ amplify 2 ⟨#[99]⟩ [1] true [] = some (.ok 0) :=
  ⟨rfl, rfl, rfl, rfl⟩

end Amplifier

end CellMachine
