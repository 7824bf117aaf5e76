import CellMachine.Proofs.Pipes
import CellMachine.Rig

/-!
# What a step can do

A step looks at the table of pipes in one place only, the head of the machine's
input queue, and changes the table in at most two: it takes that head, or it sends
one value to its output. `Machine.react` is the step with the table abstracted to
the head, and `Machine.step_eq` gives the step back. `Machine.Reacts` lists the
eight things a reaction can be; every other fact about a step is read off that
list.

A machine is `AtInput` if its next instruction is an input instruction. Only then
does the head matter (`Machine.react_of_not_atInput`). What a machine sends, if it
is at an output instruction, does not depend on the head either
(`Machine.sends_react`), and ends up in the history of its output pipe
(`Machine.history_step`). `Machine.wake` forgets
that a machine has been found waiting, and no reaction depends on it
(`Machine.react_wake`).
-/

set_option autoImplicit false

namespace CellMachine

/-- What a machine does when it is stepped: the machine afterwards, whether it
takes the head of its input queue, and the value that it sends. -/
structure Reaction where
  after : Machine
  takes : Bool
  sends : Option Cell

namespace Machine

/-- A stopped machine executes nothing. -/
def Stopped (m : Machine) : Prop :=
  m.status = .halted ∨ m.status = .faulted

instance (m : Machine) : Decidable m.Stopped :=
  inferInstanceAs (Decidable (_ ∨ _))

/-- The machine found waiting for input. -/
def await (m : Machine) : Machine :=
  { m with status := .waiting }

/-- The machine after a halt instruction. -/
def finish (m : Machine) : Machine :=
  { m with status := .halted, count := m.count + 1 }

/-- The reaction of a machine to the head of its input queue. -/
def react (m : Machine) (head : Option Cell) : Reaction :=
  if m.Stopped then ⟨m, false, none⟩
  else
    match plan m.memory m.pc with
    | .error cause => ⟨m.stop cause, false, none⟩
    | .ok (.store index v next) => ⟨(m.store index v).advance next, false, none⟩
    | .ok (.receive index next) =>
      match head with
      | some v => ⟨(m.store index v).advance next, true, none⟩
      | none => ⟨m.await, false, none⟩
    | .ok (.send v next) => ⟨m.advance next, false, some v⟩
    | .ok (.jump next) => ⟨m.advance next, false, none⟩
    | .ok .halt => ⟨m.finish, false, none⟩

/-- A step is the reaction to the head of the input queue, with the traffic that
it causes. -/
theorem step_eq (m : Machine) (t : PipeTable) :
    m.step t =
      ((m.react (t.get m.input).queue.head?).after,
        (t.draw m.input (m.react (t.get m.input).queue.head?).takes).feed m.output
          (m.react (t.get m.input).queue.head?).sends) := by
  by_cases hs : m.Stopped
  · have hs' : m.status = .halted ∨ m.status = .faulted := hs
    simp only [step, react, hs, hs', if_true]
    rfl
  · have hs' : ¬ (m.status = .halted ∨ m.status = .faulted) := hs
    simp only [step, react, hs, hs', if_false]
    cases hp : plan m.memory m.pc with
    | error cause => rfl
    | ok action =>
      cases action with
      | store index v next => rfl
      | receive index next =>
        simp only [perform, PipeTable.pop?_eq]
        cases hq : (t.get m.input).queue.head? with
        | none => rfl
        | some v => rfl
      | send v next => rfl
      | jump next => rfl
      | halt => rfl

/-! ## The kinds of reaction -/

/-- The reactions of a machine, one constructor for each thing it can do. -/
inductive Reacts (m : Machine) : Option Cell → Reaction → Prop where
  | stopped (head : Option Cell) : m.Stopped → Reacts m head ⟨m, false, none⟩
  | faults (head : Option Cell) {cause : Fault} :
      ¬ m.Stopped → plan m.memory m.pc = .error cause → Reacts m head ⟨m.stop cause, false, none⟩
  | stores (head : Option Cell) {index : Nat} {v : Cell} {next : Int} :
      ¬ m.Stopped → plan m.memory m.pc = .ok (.store index v next) →
      Reacts m head ⟨(m.store index v).advance next, false, none⟩
  | takes {v : Cell} {index : Nat} {next : Int} :
      ¬ m.Stopped → plan m.memory m.pc = .ok (.receive index next) →
      Reacts m (some v) ⟨(m.store index v).advance next, true, none⟩
  | waits {index : Nat} {next : Int} :
      ¬ m.Stopped → plan m.memory m.pc = .ok (.receive index next) →
      Reacts m none ⟨m.await, false, none⟩
  | sends (head : Option Cell) {v : Cell} {next : Int} :
      ¬ m.Stopped → plan m.memory m.pc = .ok (.send v next) →
      Reacts m head ⟨m.advance next, false, some v⟩
  | jumps (head : Option Cell) {next : Int} :
      ¬ m.Stopped → plan m.memory m.pc = .ok (.jump next) →
      Reacts m head ⟨m.advance next, false, none⟩
  | halts (head : Option Cell) :
      ¬ m.Stopped → plan m.memory m.pc = .ok .halt → Reacts m head ⟨m.finish, false, none⟩

theorem reacts_react (m : Machine) (head : Option Cell) : m.Reacts head (m.react head) := by
  by_cases hs : m.Stopped
  · simp only [react, hs, if_true]
    exact .stopped head hs
  · simp only [react, hs, if_false]
    cases hp : plan m.memory m.pc with
    | error cause => exact .faults head hs hp
    | ok action =>
      cases action with
      | store index v next => exact .stores head hs hp
      | receive index next =>
        cases head with
        | none => exact .waits hs hp
        | some v => exact .takes hs hp
      | send v next => exact .sends head hs hp
      | jump next => exact .jumps head hs hp
      | halt => exact .halts head hs hp

section Reactions

variable {m : Machine} {head : Option Cell} {r : Reaction}

/-- No reaction touches the wiring or the names of a machine. -/
theorem Reacts.wiring (h : m.Reacts head r) :
    r.after.input = m.input ∧ r.after.output = m.output ∧ r.after.name = m.name ∧
      r.after.label = m.label ∧ r.after.member = m.member := by
  cases h <;> exact ⟨rfl, rfl, rfl, rfl, rfl⟩

theorem Reacts.count_le (h : m.Reacts head r) : m.count ≤ r.after.count := by
  cases h with
  | stopped | faults | waits => exact Nat.le_refl _
  | stores | takes | sends | jumps | halts => exact Nat.le_succ _

/-- A reaction that leaves the instruction count alone causes no traffic, and the
machine is stopped, faults or waits. -/
theorem Reacts.of_count_eq (h : m.Reacts head r) (hc : r.after.count = m.count) :
    r.takes = false ∧ r.sends = none ∧
      (m.Stopped ∧ r.after = m ∨ r.after.status = .faulted ∨
        head = none ∧ r.after = m.await) := by
  have hne : m.count + 1 ≠ m.count := Nat.succ_ne_self _
  cases h with
  | stopped _ hs => exact ⟨rfl, rfl, Or.inl ⟨hs, rfl⟩⟩
  | faults => exact ⟨rfl, rfl, Or.inr (Or.inl rfl)⟩
  | waits => exact ⟨rfl, rfl, Or.inr (Or.inr ⟨rfl, rfl⟩)⟩
  | stores | takes | sends | jumps | halts => exact absurd hc hne

/-- Something is taken only from a queue that has a head. -/
theorem Reacts.head_ne_none (h : m.Reacts head r) (ht : r.takes = true) : head ≠ none := by
  cases h with
  | takes => exact Option.some_ne_none _
  | stopped | faults | stores | waits | sends | jumps | halts => cases ht

end Reactions

/-! ## Input instructions -/

/-- The next instruction of the machine is an input instruction. -/
def AtInput (m : Machine) : Prop :=
  ¬ m.Stopped ∧ ∃ index next, plan m.memory m.pc = .ok (.receive index next)

/-- An input instruction on an empty queue makes the machine wait. -/
theorem react_none_of_atInput {m : Machine} (h : m.AtInput) :
    m.react none = ⟨m.await, false, none⟩ := by
  obtain ⟨hs, index, next, hp⟩ := h
  simp only [react, hs, if_false, hp]

/-- Away from input instructions a machine does not look at its queue. -/
theorem react_of_not_atInput {m : Machine} (h : ¬ m.AtInput) (head head' : Option Cell) :
    m.react head = m.react head' := by
  by_cases hs : m.Stopped
  · simp only [react, hs, if_true]
  · simp only [react, hs, if_false]
    cases hp : plan m.memory m.pc with
    | error cause => rfl
    | ok action =>
      cases action with
      | receive index next => exact absurd ⟨hs, index, next, hp⟩ h
      | store index v next => rfl
      | send v next => rfl
      | jump next => rfl
      | halt => rfl

/-- A machine is left waiting only by an input instruction on an empty queue. -/
theorem Reacts.of_waiting {m : Machine} {head : Option Cell} {r : Reaction}
    (h : m.Reacts head r) (hw : r.after.status = .waiting) :
    head = none ∧ m.AtInput ∧ r.after = m.await := by
  cases h with
  | stopped _ hs => rcases hs with hs | hs <;> simp [hs] at hw
  | waits hs hp => exact ⟨rfl, ⟨hs, _, _, hp⟩, rfl⟩
  | faults | stores | takes | sends | jumps | halts => cases hw

/-! ## Output instructions -/

/-- The value that the next instruction sends, if it is an output instruction. -/
def sending? (m : Machine) : Option Cell :=
  if m.Stopped then none
  else
    match plan m.memory m.pc with
    | .ok (.send v _) => some v
    | _ => none

theorem sends_react (m : Machine) (head : Option Cell) : (m.react head).sends = m.sending? := by
  have hr := m.reacts_react head
  generalize m.react head = r at hr
  cases hr with
  | stopped _ hs => simp only [sending?, hs, if_true]
  | faults _ hs hp | stores _ hs hp | takes hs hp | waits hs hp | sends _ hs hp | jumps _ hs hp
  | halts _ hs hp => simp only [sending?, hs, if_false, hp]

/-- A step adds to the history of one pipe at most. -/
theorem history_step (m : Machine) {t : PipeTable} {i : Nat} (h : i < t.size) :
    ((m.step t).2.get i).history.toList =
      (t.get i).history.toList ++ if m.output = i then m.sending?.toList else [] := by
  rw [step_eq, PipeTable.history_feed (by rw [PipeTable.size_draw]; exact h),
    PipeTable.history_draw, sends_react]

/-! ## Waking -/

/-- The machine with the waiting status forgotten. -/
def wake (m : Machine) : Machine :=
  if m.status = .waiting then { m with status := .running } else m

theorem wake_of_ne {m : Machine} (h : m.status ≠ .waiting) : m.wake = m := by
  simp only [wake, h, if_false]

theorem wake_await (m : Machine) (h : ¬ m.Stopped) (hk : m.status ≠ .unknown) :
    m.await.wake = m.wake := by
  cases hs : m.status with
  | running =>
    have hm : m.wake = m := wake_of_ne (by simp [hs])
    rw [hm]
    show { m with status := Status.running } = m
    rw [← hs]
  | waiting => simp [await, wake, hs]
  | halted => exact absurd (Or.inl hs) h
  | faulted => exact absurd (Or.inr hs) h
  | unknown => exact absurd hs hk

/-- A machine that is found waiting reacts as if it had not been. -/
theorem react_wake (m : Machine) (head : Option Cell) : m.wake.react head = m.react head := by
  by_cases hw : m.status = .waiting
  · -- neither status is a stop, and every reaction sets the status anew
    have hs : ¬ m.Stopped := by simp [Stopped, hw]
    have hs' : ¬ m.wake.Stopped := by simp [Stopped, wake, hw]
    have hm : m.wake = { m with status := .running } := by simp [wake, hw]
    simp only [react, hs, hs', if_false]
    rw [hm]
    cases hp : plan m.memory m.pc with
    | error cause => rfl
    | ok action =>
      cases action with
      | receive index next => cases head <;> rfl
      | store index v next => rfl
      | send v next => rfl
      | jump next => rfl
      | halt => rfl
  · rw [wake_of_ne hw]

theorem wake_input (m : Machine) : m.wake.input = m.input := by
  by_cases h : m.status = .waiting <;> simp [wake, h]

theorem wake_output (m : Machine) : m.wake.output = m.output := by
  by_cases h : m.status = .waiting <;> simp [wake, h]

theorem step_wake (m : Machine) (t : PipeTable) : m.wake.step t = m.step t := by
  rw [step_eq, step_eq, wake_input, wake_output, react_wake]

/-! ## Sound machines -/

/-- What every machine satisfies that has only ever been stepped: its status is
one of the four, a fault has its cause on record, and a machine that waits is at
an input instruction. -/
structure Sound (m : Machine) : Prop where
  known : m.status ≠ .unknown
  blamed : m.status = .faulted → m.fault ≠ none
  blocked : m.status = .waiting → m.AtInput

theorem sound_new (name : String) (member : Bool) (memory : Memory) (input output : Nat) :
    (new name member memory input output).Sound :=
  ⟨nofun, nofun, nofun⟩

theorem sound_advance (m : Machine) (next : Int) : (m.advance next).Sound :=
  ⟨nofun, nofun, nofun⟩

/-- Reactions keep a machine sound. -/
theorem Sound.react {m : Machine} (h : m.Sound) (head : Option Cell) :
    (m.react head).after.Sound := by
  have hr := m.reacts_react head
  generalize m.react head = r at hr
  cases hr with
  | stopped => exact h
  | faults => exact ⟨nofun, fun _ => Option.some_ne_none _, nofun⟩
  | waits _ hp => exact ⟨nofun, nofun, fun _ => ⟨by simp [Stopped, await], _, _, hp⟩⟩
  | stores | takes | sends | jumps => exact sound_advance _ _
  | halts => exact ⟨nofun, nofun, nofun⟩

end Machine

end CellMachine
