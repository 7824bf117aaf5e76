import CellMachine.Proofs.Reachable
import CellMachine.Proofs.Twins

/-!
# The life of a machine

From the moment it is installed, a machine is stepped, run, fed, wired and named, while
others use its pipes. `Machine.Moves` lists what can happen, and `Machine.Coherent` is
what holds at every moment (`Machine.Coherent.moves`): the status, the fault on record,
the program counter and the cell it points at fit together.

Two kinds of moments cannot be undone. A stopped machine stays as it is, whatever
happens afterwards (`Machine.stopped_of_moves`). A machine that has been stepped once is
started, and its wiring is final (`Machine.started_of_moves`).

What a fault says about its place comes from `plan`: every fault that an instruction can
raise names the program counter (`blames_plan`).
-/

set_option autoImplicit false

namespace CellMachine

open Relation

/-! ## The place of a fault -/

/-- The program counter that a fault names. -/
def Fault.site? : Fault → Option Int
  | address site _ => site
  | opcode pc _ => some pc

/-- All faults of a computation name the program counter `pc`. -/
def Blames {α : Type} (pc : Int) (x : Except Fault α) : Prop :=
  ∀ f, x = .error f → f.site? = some pc

theorem blames_ok {α : Type} (pc : Int) (a : α) : Blames pc (.ok a) := by
  intro f hf
  cases hf

theorem Blames.bind {α β : Type} {pc : Int} {x : Except Fault α} {g : α → Except Fault β}
    (hx : Blames pc x) (hg : ∀ a, Blames pc (g a)) : Blames pc (x >>= g) := by
  intro f hf
  cases x with
  | error e =>
    cases hf
    exact hx f rfl
  | ok a => exact hg a f hf

namespace Instruction

variable (ins : Instruction) (m : Memory) (pc : Int)

theorem blames_operand (k : Nat) : Blames pc (ins.operand m pc k) := by
  intro f hf
  unfold operand at hf
  cases hr : m.read (pc + 1 + k) (ins.mode k) with
  | ok v =>
    rw [hr] at hf
    cases hf
  | error e =>
    rw [hr] at hf
    cases hf
    rfl

theorem blames_destination (k : Nat) : Blames pc (destination m pc k) := by
  intro f hf
  unfold destination at hf
  cases hg : m.get (pc + 1 + k) with
  | error e =>
    simp only [hg] at hf
    cases hf
    rfl
  | ok v =>
    simp only [hg] at hf
    cases hi : m.index v.toInt with
    | error e =>
      simp only [hi] at hf
      cases hf
      rfl
    | ok i =>
      simp only [hi] at hf
      cases hf

theorem blames_combine (g : Cell → Cell → Cell) : Blames pc (ins.combine m pc g) :=
  (ins.blames_operand m pc 0).bind fun _ => (ins.blames_operand m pc 1).bind fun _ =>
    (blames_destination m pc 2).bind fun _ => blames_ok pc _

theorem blames_jump (p : Cell → Bool) : Blames pc (ins.jump m pc p) := by
  refine (ins.blames_operand m pc 0).bind fun a => ?_
  cases p a with
  | true => exact (ins.blames_operand m pc 1).bind fun _ => blames_ok pc _
  | false => exact blames_ok pc _

theorem blames_action : Blames pc (ins.action m pc) := by
  unfold action
  cases ins.op with
  | add | mul | lessThan | equals => exact ins.blames_combine m pc _
  | input => exact (blames_destination m pc 0).bind fun _ => blames_ok pc _
  | output => exact (ins.blames_operand m pc 0).bind fun _ => blames_ok pc _
  | jumpIfTrue | jumpIfFalse => exact ins.blames_jump m pc _
  | halt => exact blames_ok pc _

theorem blames_decode : Blames pc (decode m pc) := by
  intro f hf
  unfold decode at hf
  cases hg : m.get pc with
  | error e =>
    simp only [hg] at hf
    cases hf
    rfl
  | ok v =>
    simp only [hg] at hf
    cases hc : ofCell? v with
    | some ins =>
      simp only [hc] at hf
      cases hf
    | none =>
      simp only [hc] at hf
      cases hf
      rfl

end Instruction

/-- Every fault that the next instruction can raise names the program counter. -/
theorem blames_plan (m : Memory) (pc : Int) : Blames pc (plan m pc) := by
  intro f hf
  unfold plan at hf
  cases hd : Instruction.decode m pc with
  | error f' =>
    simp only [hd] at hf
    cases hf
    exact Instruction.blames_decode m pc f hd
  | ok ins =>
    simp only [hd] at hf
    exact ins.blames_action m pc f hf

/-! ## What a plan tells about its instruction -/

/-- A destination is an address in range. -/
theorem has_of_destination {m : Memory} {pc : Int} {k i : Nat}
    (h : Instruction.destination m pc k = .ok i) :
    ∃ v, m.get (pc + 1 + k) = .ok v ∧ m.Has v.toInt := by
  unfold Instruction.destination at h
  cases hg : m.get (pc + 1 + k) with
  | error e =>
    simp only [hg] at h
    cases h
  | ok v =>
    refine ⟨v, rfl, ?_⟩
    apply Classical.byContradiction
    intro hv
    simp only [hg, Memory.index, hv, dif_neg, not_false_eq_true] at h
    cases h

namespace Instruction

variable {ins : Instruction} {m : Memory} {pc : Int}

theorem combine_eq_ok {g : Cell → Cell → Cell} {a : Action} (h : ins.combine m pc g = .ok a) :
    ∃ i v next, a = .store i v next := by
  obtain ⟨x, -, h⟩ := bind_eq_ok h
  obtain ⟨y, -, h⟩ := bind_eq_ok h
  obtain ⟨i, -, h⟩ := bind_eq_ok h
  cases h
  exact ⟨_, _, _, rfl⟩

theorem jump_eq_ok {p : Cell → Bool} {a : Action} (h : ins.jump m pc p = .ok a) :
    ∃ next, a = .jump next := by
  obtain ⟨x, -, h⟩ := bind_eq_ok h
  cases hp : p x with
  | true =>
    simp only [hp, if_true] at h
    obtain ⟨target, -, h⟩ := bind_eq_ok h
    cases h
    exact ⟨_, rfl⟩
  | false =>
    simp only [hp] at h
    cases h
    exact ⟨_, rfl⟩

/-- The operation that an action belongs to, for the two that leave a machine where it
is. -/
theorem op_of_action {a : Action} (h : ins.action m pc = .ok a) :
    (a = .halt → ins.op = .halt) ∧
      ∀ i next, a = .receive i next → ins.op = .input ∧ destination m pc 0 = .ok i := by
  unfold action at h
  cases hop : ins.op with
  | add | mul | lessThan | equals =>
    simp only [hop] at h
    obtain ⟨i, v, next, rfl⟩ := combine_eq_ok h
    exact ⟨nofun, nofun⟩
  | input =>
    simp only [hop] at h
    obtain ⟨i, hi, h⟩ := bind_eq_ok h
    cases h
    refine ⟨nofun, ?_⟩
    intro i' next heq
    cases heq
    exact ⟨rfl, hi⟩
  | output =>
    simp only [hop] at h
    obtain ⟨v, -, h⟩ := bind_eq_ok h
    cases h
    exact ⟨nofun, nofun⟩
  | jumpIfTrue | jumpIfFalse =>
    simp only [hop] at h
    obtain ⟨next, rfl⟩ := jump_eq_ok h
    exact ⟨nofun, nofun⟩
  | halt =>
    simp only [hop] at h
    cases h
    exact ⟨fun _ => rfl, nofun⟩

end Instruction

theorem decode_of_plan {m : Memory} {pc : Int} {a : Action} (h : plan m pc = .ok a) :
    ∃ ins, Instruction.decode m pc = .ok ins ∧ ins.action m pc = .ok a := by
  unfold plan at h
  cases hd : Instruction.decode m pc with
  | error f =>
    simp only [hd] at h
    cases h
  | ok ins =>
    simp only [hd] at h
    exact ⟨ins, rfl, h⟩

namespace Machine

/-! ## What holds at every moment -/

/-- A sound machine whose record fits its place: there is a fault on record only if the
machine is faulted, the fault names the program counter, and a machine that has halted
is at a halt instruction. -/
structure Coherent (m : Machine) : Prop extends Sound m where
  blameless : m.status ≠ .faulted → m.fault = none
  site : ∀ f, m.fault = some f → f.cause.site? = some m.pc
  ended : m.status = .halted → plan m.memory m.pc = .ok .halt

theorem coherent_new (name : String) (member : Bool) (memory : Memory) (input output : Nat) :
    (new name member memory input output).Coherent :=
  ⟨sound_new name member memory input output, fun _ => rfl, nofun, nofun⟩

/-- A machine that goes on is coherent, because it has no fault on record. -/
theorem Coherent.advance {m : Machine} (h : m.Coherent) (hs : ¬ m.Stopped) {m' : Machine}
    (hf : m'.fault = m.fault) (next : Int) : (m'.advance next).Coherent := by
  have hnone : m.fault = none := h.blameless fun hfaulted => hs (Or.inr hfaulted)
  refine ⟨sound_advance m' next, fun _ => hf.trans hnone, ?_, nofun⟩
  intro f hfault
  rw [show (m'.advance next).fault = m'.fault from rfl, hf, hnone] at hfault
  cases hfault

/-- Reactions keep a machine coherent. -/
theorem Coherent.react {m : Machine} (h : m.Coherent) (head : Option Cell) :
    (m.react head).after.Coherent := by
  have hsound := h.toSound.react head
  have hr := m.reacts_react head
  generalize m.react head = r at hr hsound
  cases hr with
  | stopped => exact h
  | faults _ hs hp =>
    refine ⟨hsound, fun hne => absurd rfl hne, ?_, nofun⟩
    intro f hf
    cases hf
    exact blames_plan m.memory m.pc _ hp
  | @stores _ index v _ hs | @takes v index _ hs =>
    exact h.advance hs (show (m.store index v).fault = m.fault from rfl) _
  | sends _ hs | jumps _ hs => exact h.advance hs rfl _
  | waits hs => exact ⟨hsound, fun _ => h.blameless fun hf => hs (Or.inr hf), h.site, nofun⟩
  | halts _ hs hp =>
    exact ⟨hsound, fun _ => h.blameless fun hf => hs (Or.inr hf), h.site, fun _ => hp⟩

theorem Coherent.step {m : Machine} (h : m.Coherent) (t : PipeTable) : (m.step t).1.Coherent := by
  rw [step_eq]
  exact h.react _

/-- What the owner of a machine can rely on, at any moment, about the place where the
machine is. -/
structure InOrder (m : Machine) : Prop where
  /-- There is a fault on record exactly if the machine is faulted. -/
  fault_iff : m.fault ≠ none ↔ m.status = .faulted
  /-- The fault names the program counter. -/
  site : ∀ f, m.fault = some f → f.cause.site? = some m.pc
  /-- A waiting machine is at an input instruction, and the address where the value is
  to be stored is in range. -/
  waiting : m.status = .waiting → ∃ ins v, Instruction.decode m.memory m.pc = .ok ins ∧
    ins.op = .input ∧ m.memory.get (m.pc + 1) = .ok v ∧ m.memory.Has v.toInt
  /-- Trying the input instruction again does not fault, whatever is in the pipes. -/
  retry : m.status = .waiting → ∀ t, (m.step t).1.status ≠ .faulted
  /-- A halted machine is at a halt instruction. -/
  halted : m.status = .halted →
    ∃ ins, Instruction.decode m.memory m.pc = .ok ins ∧ ins.op = .halt

theorem not_faulted_of_atInput {m : Machine} (h : m.AtInput) (t : PipeTable) :
    (m.step t).1.status ≠ .faulted := by
  obtain ⟨hs, index, next, hp⟩ := h
  have hs' : ¬ (m.status = .halted ∨ m.status = .faulted) := hs
  simp only [step, hs', if_false, hp, perform]
  intro hf
  cases hpop : t.pop? m.input with
  | none =>
    rw [hpop] at hf
    cases hf
  | some r =>
    rw [hpop] at hf
    cases hf

theorem Coherent.inOrder {m : Machine} (h : m.Coherent) : m.InOrder where
  fault_iff := by
    constructor
    · intro hne
      apply Classical.byContradiction
      intro hs
      exact hne (h.blameless hs)
    · exact h.blamed
  site := h.site
  waiting := by
    intro hw
    obtain ⟨-, index, next, hp⟩ := h.blocked hw
    obtain ⟨ins, hd, ha⟩ := decode_of_plan hp
    obtain ⟨hop, hdest⟩ := (Instruction.op_of_action ha).2 index next rfl
    obtain ⟨v, hv, hhas⟩ := has_of_destination hdest
    exact ⟨ins, v, hd, hop, by simpa using hv, hhas⟩
  retry := fun hw t => not_faulted_of_atInput (h.blocked hw) t
  halted := by
    intro hh
    obtain ⟨ins, hd, ha⟩ := decode_of_plan (h.ended hh)
    exact ⟨ins, hd, (Instruction.op_of_action ha).1 rfl⟩

/-! ## What can happen to a machine -/

/-- One thing that happens to a machine or to the pipes around it: a call, or traffic of
others, who may do anything to the pipes. A call that is refused changes nothing. -/
inductive Moves : Machine × PipeTable → Machine × PipeTable → Prop where
  | step (m : Machine) (t : PipeTable) : Moves (m, t) (m.step t)
  | run {fuel : Nat} {m : Machine} {t : PipeTable} {r : Machine × PipeTable} :
      m.run fuel t = some r → Moves (m, t) r
  | write (m : Machine) (t : PipeTable) (v : Cell) : Moves (m, t) (m, t.push m.input v)
  | connectInput {m m' : Machine} {pipe : Option Nat} (t : PipeTable) :
      m.connectInput pipe = .ok m' → Moves (m, t) (m', t)
  | connectOutput {m m' : Machine} {pipe : Option Nat} (t : PipeTable) :
      m.connectOutput pipe = .ok m' → Moves (m, t) (m', t)
  | rename (m : Machine) (t : PipeTable) (name : String) : Moves (m, t) ({ m with name }, t)
  | traffic (m : Machine) (t t' : PipeTable) : Moves (m, t) (m, t')

/-- A connection is made only while the machine is not started. -/
theorem connectInput_eq_ok {m m' : Machine} {pipe : Option Nat}
    (h : m.connectInput pipe = .ok m') : ¬ m.Started ∧ ∃ i, m' = { m with input := i } := by
  cases pipe with
  | none => cases h
  | some i =>
    by_cases hs : m.Started
    · simp [connectInput, hs] at h
    · simp only [connectInput, hs, if_false, Except.ok.injEq] at h
      exact ⟨hs, i, h.symm⟩

theorem connectOutput_eq_ok {m m' : Machine} {pipe : Option Nat}
    (h : m.connectOutput pipe = .ok m') : ¬ m.Started ∧ ∃ i, m' = { m with output := i } := by
  cases pipe with
  | none => cases h
  | some i =>
    by_cases hs : m.Started
    · simp [connectOutput, hs] at h
    · simp only [connectOutput, hs, if_false, Except.ok.injEq] at h
      exact ⟨hs, i, h.symm⟩

/-- What every step keeps, and what is not about names and wiring, holds for life. -/
theorem moves_induction {P : Machine → Prop} (hstep : ∀ m t, P m → P (m.step t).1)
    (hsetup : ∀ m name input output, P m → P { m with name, input, output })
    {s s' : Machine × PipeTable} (h : P s.1) (hmoves : ReflTransGen Moves s s') : P s'.1 := by
  induction hmoves with
  | refl => exact h
  | tail _ hmove ih =>
    cases hmove with
    | step m t => exact hstep m t ih
    | run hrun => exact run_induction (P := fun m _ => P m) hstep ih hrun
    | write => exact ih
    | connectInput t hc =>
      obtain ⟨-, i, rfl⟩ := connectInput_eq_ok hc
      exact hsetup _ _ i _ ih
    | connectOutput t hc =>
      obtain ⟨-, i, rfl⟩ := connectOutput_eq_ok hc
      exact hsetup _ _ _ i ih
    | rename m t name => exact hsetup m name _ _ ih
    | traffic => exact ih

/-- A machine is coherent for life. -/
theorem Coherent.moves {s s' : Machine × PipeTable} (h : s.1.Coherent)
    (hmoves : ReflTransGen Moves s s') : s'.1.Coherent := by
  refine moves_induction (fun m t hm => hm.step t) ?_ h hmoves
  rintro m name input output ⟨⟨hk, hb, hw⟩, hn, hs, he⟩
  exact ⟨⟨hk, hb, hw⟩, hn, hs, he⟩

/-- No reaction changes the size of the memory. -/
theorem Reacts.memory_size {m : Machine} {head : Option Cell} {r : Reaction}
    (h : m.Reacts head r) : r.after.memory.size = m.memory.size := by
  cases h with
  | stopped | faults | waits | sends | jumps | halts => rfl
  | stores | takes => simp [advance, store, Memory.size]

theorem memory_size_moves {s s' : Machine × PipeTable} (hmoves : ReflTransGen Moves s s') :
    s'.1.memory.size = s.1.memory.size := by
  refine moves_induction (P := fun m => m.memory.size = s.1.memory.size) ?_ ?_ rfl hmoves
  · intro m t hm
    rw [step_eq, (m.reacts_react _).memory_size, hm]
  · intro m _ _ _ hm
    exact hm

/-! ## Stopped machines -/

/-- The later state of a machine that had stopped as `m`: what it computed is still the
same, steps and runs have no effect on it or on the pipes, and a step reports the fault
that `m` had on record, if there was one. -/
structure StaysStopped (m m' : Machine) (t' : PipeTable) : Prop where
  memory : m'.memory = m.memory
  pc : m'.pc = m.pc
  status : m'.status = m.status
  count : m'.count = m.count
  step : m'.step t' = (m', t')
  run : ∀ fuel, m'.run (fuel + 1) t' = some (m', t')
  answer : (m'.step t').1.error? = m.fault

/-- A coherent machine that has stopped reports what it has on record. -/
theorem Coherent.error?_eq {m : Machine} (h : m.Coherent) : m.error? = m.fault := by
  by_cases hf : m.status = .faulted
  · simp only [error?, hf, if_true]
  · simp only [error?, hf, if_false, h.blameless hf]

/-- Nothing that happens changes a stopped machine, except for its name. -/
theorem stopped_of_moves {m : Machine} {t : PipeTable} {s' : Machine × PipeTable}
    (h : m.Coherent) (hs : m.Stopped) (hmoves : ReflTransGen Moves (m, t) s') :
    m.StaysStopped s'.1 s'.2 := by
  have hkept : s'.1.memory = m.memory ∧ s'.1.pc = m.pc ∧ s'.1.status = m.status ∧
      s'.1.count = m.count ∧ s'.1.fault = m.fault := by
    refine moves_induction (P := fun m' => m'.memory = m.memory ∧ m'.pc = m.pc ∧
      m'.status = m.status ∧ m'.count = m.count ∧ m'.fault = m.fault) ?_ ?_
      ⟨rfl, rfl, rfl, rfl, rfl⟩ hmoves
    · intro m' t' hm'
      have hs' : m'.Stopped := by
        rw [Stopped, hm'.2.2.1]
        exact hs
      rw [step_of_stopped hs']
      exact hm'
    · intro m' _ _ _ hm'
      exact hm'
  obtain ⟨hmem, hpc, hstatus, hcount, hfault⟩ := hkept
  have hs' : s'.1.Stopped := by
    rw [Stopped, hstatus]
    exact hs
  have hstep := step_of_stopped hs' s'.2
  refine ⟨hmem, hpc, hstatus, hcount, hstep, run_of_stopped hs' s'.2, ?_⟩
  rw [hstep, (h.moves hmoves).error?_eq, hfault]

/-! ## Started machines -/

/-- The wiring of a machine is final: its pipes are these, and no other pipe can be
connected. -/
structure WiredFor (input output : Nat) (m : Machine) : Prop where
  input : m.input = input
  output : m.output = output
  refusesInput : ∀ pipe, m.connectInput (some pipe) = .error .started
  refusesOutput : ∀ pipe, m.connectOutput (some pipe) = .error .started

theorem wiredFor_of_started {m : Machine} (h : m.Started) : m.WiredFor m.input m.output :=
  ⟨rfl, rfl, fun _ => by simp only [connectInput, h, if_true],
    fun _ => by simp only [connectOutput, h, if_true]⟩

/-- A machine is started after every reaction. -/
theorem Reacts.started {m : Machine} {head : Option Cell} {r : Reaction} (h : m.Reacts head r) :
    r.after.Started := by
  cases h with
  | stopped _ hs =>
    rcases hs with hs | hs
    · exact Or.inr (by simp [hs])
    · exact Or.inr (by simp [hs])
  | faults | waits => exact Or.inr nofun
  | stores | takes | sends | jumps | halts => exact Or.inl (Nat.succ_pos _)

theorem started_step (m : Machine) (t : PipeTable) : (m.step t).1.Started := by
  rw [step_eq]
  exact (m.reacts_react _).started

theorem started_run {fuel : Nat} {m m' : Machine} {t t' : PipeTable}
    (h : m.run fuel t = some (m', t')) : m'.Started := by
  cases fuel with
  | zero => cases h
  | succ fuel =>
    simp only [run] at h
    split at h
    · next hh =>
      cases h
      exact Or.inr (by simp [hh])
    · split at h
      · exact run_induction (P := fun m _ => m.Started) (fun m t _ => started_step m t)
          (started_step m t) h
      · cases h
        exact started_step m t

/-- A started machine stays started, and its wiring is final. -/
theorem started_of_moves {m : Machine} {t : PipeTable} {s' : Machine × PipeTable}
    (h : m.Started) (hmoves : ReflTransGen Moves (m, t) s') :
    s'.1.WiredFor m.input m.output := by
  have hkept : s'.1.Started ∧ s'.1.input = m.input ∧ s'.1.output = m.output := by
    induction hmoves with
    | refl => exact ⟨h, rfl, rfl⟩
    | tail _ hmove ih =>
      cases hmove with
      | step m' t' =>
        obtain ⟨hin, hout⟩ := m'.step_wiring t'
        exact ⟨started_step m' t', hin.trans ih.2.1, hout.trans ih.2.2⟩
      | run hrun =>
        obtain ⟨hin, hout, -⟩ := run_frame hrun
        exact ⟨started_run hrun, hin.trans ih.2.1, hout.trans ih.2.2⟩
      | write | rename | traffic => exact ih
      | connectInput _ hc => exact absurd ih.1 (connectInput_eq_ok hc).1
      | connectOutput _ hc => exact absurd ih.1 (connectOutput_eq_ok hc).1
  obtain ⟨hs, hin, hout⟩ := hkept
  have hfinal := wiredFor_of_started hs
  rw [hin, hout] at hfinal
  exact hfinal

/-! ## From installation on -/

/-- The life of a machine. At every moment after its installation, its memory has the
size it had at first and the machine is in order. If it has stopped by then, it stays
stopped. If it is stepped or run then, its wiring is final from there on. -/
theorem lifecycle {rig rig' : Rig} {memory : Memory} {settings : List Setting} {member : Bool}
    {k : Nat} (hinst : rig.install memory settings member = .ok (rig', k)) :
    ∃ m₀, rig'.machine? k = some m₀ ∧
      ∀ m t, ReflTransGen Moves (m₀, rig'.pipes) (m, t) →
        m.memory.size = memory.size ∧ m.InOrder ∧
        (m.Stopped → ∀ m' t', ReflTransGen Moves (m, t) (m', t') → m.StaysStopped m' t') ∧
        ∀ m₁ t₁, m.step t = (m₁, t₁) ∨ (∃ fuel, m.run fuel t = some (m₁, t₁)) →
          ∀ m' t', ReflTransGen Moves (m₁, t₁) (m', t') → m'.WiredFor m.input m.output := by
  obtain ⟨name, input, output, rfl, hmach⟩ := Rig.install_machines hinst
  refine ⟨new name member memory input output, ?_, ?_⟩
  · rw [Rig.machine?, hmach, Array.getElem?_push_size]
  · intro m t hmoves
    have hcoherent : m.Coherent := (coherent_new name member memory input output).moves hmoves
    refine ⟨memory_size_moves hmoves, hcoherent.inOrder, ?_, ?_⟩
    · intro hs m' t' hlater
      exact stopped_of_moves hcoherent hs hlater
    · intro m₁ t₁ hfirst m' t' hlater
      -- a run of a machine that has not halted begins with a step
      have hwiring : m₁.Started ∧ m₁.input = m.input ∧ m₁.output = m.output := by
        rcases hfirst with hstep | ⟨fuel, hrun⟩
        · have hstarted := started_step m t
          have hkeeps := m.step_wiring t
          rw [hstep] at hstarted hkeeps
          exact ⟨hstarted, hkeeps⟩
        · obtain ⟨hin, hout, -⟩ := run_frame hrun
          exact ⟨started_run hrun, hin, hout⟩
      obtain ⟨hstarted, hin, hout⟩ := hwiring
      rw [← hin, ← hout]
      exact started_of_moves hstarted hlater

/-- Reads a value into its last cell and halts. -/
def reader : Memory :=
  ⟨#[3, 3, 99, 0]⟩

/-- A reader that is found waiting, gets a value, halts and is given a name. -/
theorem reader_lifecycle :
    ∃ rig m, Rig.empty.install reader [] false = .ok (rig, 0) ∧ rig.machine? 0 = some m ∧
      ∃ waiting halted : Machine × PipeTable, m.step rig.pipes = waiting ∧
        waiting.1.status = .waiting ∧ waiting.1.InOrder ∧ waiting.1.WiredFor 0 1 ∧
        waiting.1.run 3 (waiting.2.push 0 7) = some halted ∧
        halted.1.status = .halted ∧ halted.1.memory.size = 4 ∧
        halted.1.StaysStopped { halted.1 with name := "idle" } halted.2 := by
  let rig : Rig := ⟨#[.new "vm" false reader 0 1], ⟨#[.empty, .empty]⟩⟩
  have hinst : Rig.empty.install reader [] false = .ok (rig, 0) := rfl
  obtain ⟨m, hm, hlife⟩ := lifecycle hinst
  have hnew : m = .new "vm" false reader 0 1 := (Option.some.inj hm).symm
  subst hnew
  let waiting := (new "vm" false reader 0 1).step rig.pipes
  have hrun : ((waiting.1.run 3 (waiting.2.push 0 7)).map fun r => r.1.status) = some .halted := by
    decide +kernel
  obtain ⟨halted, hrun, hstatus⟩ := Option.map_eq_some_iff.1 hrun
  have hfirst : ReflTransGen Moves (new "vm" false reader 0 1, rig.pipes) waiting :=
    .single (.step _ _)
  have hsecond : ReflTransGen Moves (new "vm" false reader 0 1, rig.pipes) halted :=
    (hfirst.tail (.write _ _ 7)).tail (.run hrun)
  obtain ⟨-, -, -, hwired⟩ := hlife _ _ .refl
  obtain ⟨-, horder, -, -⟩ := hlife waiting.1 waiting.2 hfirst
  obtain ⟨hsize, -, hstays, -⟩ := hlife halted.1 halted.2 hsecond
  exact ⟨rig, _, hinst, hm, waiting, halted, rfl, by decide +kernel, horder,
    hwired _ _ (Or.inl rfl) _ _ .refl, hrun, hstatus, hsize,
    hstays (Or.inl hstatus) _ _ (.single (.rename _ _ _))⟩

end Machine

end CellMachine
