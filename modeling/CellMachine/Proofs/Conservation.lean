import CellMachine.Proofs.LateInput
import CellMachine.Proofs.Lifecycle
import CellMachine.Proofs.Trace

/-!
# Conservation of values

Whatever machines share pipes and whoever else uses them, a pipe loses, doubles and
reorders nothing: what has been pushed to it is what has been removed from it and then
what is queued (`Rig.values_conserved`).

Both sides are records kept beside the operations. What goes into a pipe is what is pushed
or written to it and the operands of the output instructions of machines that write to it;
what comes out is what is popped or drained and what input instructions take. These are
the functions `Rig.pushed` and `Rig.removed`, summed up by `Rig.allPushed` and
`Rig.allRemoved`. That a step keeps them in balance is `Machine.balanced_step`, and it
does not matter whether a machine reads the pipe that it writes. That the records are
right about the instructions is `Machine.accounts`.
-/

set_option autoImplicit false

namespace CellMachine

/-! ## Pipes in balance -/

namespace Pipe

/-- The values `entered` have ever been pushed to the pipe, and `left` are those of them
that have been removed. -/
structure Balanced (p : Pipe) (entered left : List Cell) : Prop where
  history : p.history.toList = entered
  split : entered = left ++ p.queue

variable {p : Pipe} {entered left : List Cell}

theorem balanced_ofList (values : List Cell) : (ofList values).Balanced values [] := by
  constructor
  · exact (history_pushAll .empty values).trans (List.nil_append values)
  · rw [queue_ofList, List.nil_append]

theorem Balanced.pushAll (h : p.Balanced entered left) (values : List Cell) :
    (p.pushAll values).Balanced (entered ++ values) left := by
  constructor
  · rw [history_pushAll, h.history]
  · rw [queue_pushAll, ← List.append_assoc, ← h.split]

/-- Taking the head of the queue moves it to what has been removed. -/
theorem Balanced.skip (h : p.Balanced entered left) :
    p.skip.Balanced entered (left ++ p.queue.head?.toList) := by
  constructor
  · rw [history_skip, h.history]
  · rw [queue_skip, List.append_assoc, h.split]
    cases p.queue with
    | nil => rfl
    | cons v rest => rfl

theorem Balanced.drain (h : p.Balanced entered left) :
    p.drain.Balanced entered (left ++ p.queue) := by
  constructor
  · exact h.history
  · rw [queue_drain, List.append_nil, h.split]

theorem Balanced.pushes_eq (h : p.Balanced entered left) : p.pushes = entered.length := by
  rw [← h.history, Array.length_toList]
  rfl

theorem Balanced.last?_eq (h : p.Balanced entered left) : p.last? = entered.getLast? := by
  rw [← h.history, Array.getLast?_toList]
  rfl

end Pipe

/-! ## What a step moves -/

namespace Instruction

variable {ins : Instruction} {m : Memory} {pc : Int}

/-- Output instructions, and no others, send their operand. -/
theorem action_eq_send_iff {v : Cell} {next : Int} :
    ins.action m pc = .ok (.send v next) ↔
      ins.op = .output ∧ ins.operand m pc 0 = .ok v ∧ next = pc + 2 := by
  unfold action
  cases hop : ins.op with
  | output =>
    cases hv : ins.operand m pc 0 with
    | error f => simp [bind, Except.bind]
    | ok w => simp [bind, Except.bind, pure, Except.pure, eq_comm]
  | add | mul | lessThan | equals =>
    constructor
    · intro h
      obtain ⟨_, _, _, hstore⟩ := combine_eq_ok h
      cases hstore
    · rintro ⟨hno, -⟩
      cases hno
  | jumpIfTrue | jumpIfFalse =>
    constructor
    · intro h
      obtain ⟨_, hjump⟩ := jump_eq_ok h
      cases hjump
    · rintro ⟨hno, -⟩
      cases hno
  | input =>
    constructor
    · intro h
      obtain ⟨_, -, hreceive⟩ := bind_eq_ok h
      cases hreceive
    · rintro ⟨hno, -⟩
      cases hno
  | halt =>
    constructor
    · intro h
      cases h
    · rintro ⟨hno, -⟩
      cases hno

end Instruction

theorem plan_of_decode {m : Memory} {pc : Int} {ins : Instruction}
    (h : Instruction.decode m pc = .ok ins) : plan m pc = ins.action m pc := by
  simp only [plan, h]

/-- A destination is the index of the cell that its parameter names. -/
theorem write_of_destination {m : Memory} {pc : Int} {k i : Nat}
    (h : Instruction.destination m pc k = .ok i) (v : Cell) :
    ∃ a, m.get (pc + 1 + k) = .ok a ∧ m.write a.toInt v = .ok ⟨m.cells.setIfInBounds i v⟩ := by
  unfold Instruction.destination at h
  cases hg : m.get (pc + 1 + k) with
  | error e =>
    simp only [hg] at h
    cases h
  | ok a =>
    refine ⟨a, rfl, ?_⟩
    simp only [hg] at h
    cases hi : m.index a.toInt with
    | error e =>
      simp only [hi] at h
      cases h
    | ok j =>
      simp only [hi] at h
      cases h
      simp only [Memory.write, hi]
      rw [Array.setIfInBounds_def, dif_pos j.isLt]

namespace Machine

/-- The value that the next step takes, if it executes an input instruction. -/
def taking? (m : Machine) (t : PipeTable) : Option Cell :=
  if m.Stopped then none
  else
    match plan m.memory m.pc with
    | .ok (.receive _ _) => (t.get m.input).queue.head?
    | _ => none

theorem taking?_eq (m : Machine) (t : PipeTable) :
    m.taking? t =
      if (m.react (t.get m.input).queue.head?).takes then (t.get m.input).queue.head? else none := by
  unfold taking?
  generalize (t.get m.input).queue.head? = head
  have hr := m.reacts_react head
  generalize m.react head = r at hr
  cases hr with
  | stopped _ hs => simp [hs]
  | faults _ hs hp | stores _ hs hp | takes hs hp | waits hs hp | sends _ hs hp | jumps _ hs hp
  | halts _ hs hp => simp [hs, hp]

/-- A step keeps every pipe in balance, also one that its machine both reads and
writes. -/
theorem balanced_step (m : Machine) {t : PipeTable} {i : Nat} (hi : i < t.size)
    {entered left : List Cell} (h : (t.get i).Balanced entered left) :
    ((m.step t).2.get i).Balanced (entered ++ if m.output = i then m.sending?.toList else [])
      (left ++ if m.input = i then (m.taking? t).toList else []) := by
  rw [step_eq, sends_react, taking?_eq]
  generalize (m.react (t.get m.input).queue.head?).takes = takes
  -- the head is taken first, then a value is sent
  have hdraw : ((t.draw m.input takes).get i).Balanced entered (left ++
      if m.input = i then (if takes then (t.get m.input).queue.head? else none).toList else []) := by
    by_cases hin : m.input = i
    · subst hin
      rw [PipeTable.get_draw_self, if_pos rfl]
      cases takes with
      | true => exact h.skip
      | false => simpa using h
    · rw [PipeTable.get_draw_of_ne hin, if_neg hin, List.append_nil]
      exact h
  by_cases hout : m.output = i
  · subst hout
    rw [PipeTable.get_feed_self (by rw [PipeTable.size_draw]; exact hi), if_pos rfl]
    exact hdraw.pushAll _
  · rw [PipeTable.get_feed_of_ne hout, if_neg hout, List.append_nil]
    exact hdraw

/-- What the records of a step say about its instruction. -/
structure Accounts (m : Machine) (t : PipeTable) : Prop where
  /-- What is sent is the operand of an output instruction that is executed. -/
  sends : ∀ v, m.sending? = some v ↔ m.Executes t ∧
    ∃ ins, Instruction.decode m.memory m.pc = .ok ins ∧ ins.op = .output ∧
      ins.operand m.memory m.pc 0 = .ok v
  /-- What is taken is the head of the queue, by an input instruction that is executed. -/
  takes : ∀ v, m.taking? t = some v ↔ m.Executes t ∧
    (∃ ins, Instruction.decode m.memory m.pc = .ok ins ∧ ins.op = .input) ∧
      (t.get m.input).queue.head? = some v
  /-- The value that is taken is stored at the destination, and nothing else is. -/
  stores : ∀ v, m.taking? t = some v → ∃ a, m.memory.get (m.pc + 1) = .ok a ∧
    m.memory.write a.toInt v = .ok (m.step t).1.memory
  /-- A step that executes nothing, because the machine has stopped, faults or is left
  waiting, moves nothing. -/
  idle : ¬ m.Executes t → (m.step t).2 = t ∧ m.sending? = none ∧ m.taking? t = none

theorem sending?_eq_some_iff {m : Machine} {v : Cell} :
    m.sending? = some v ↔ ¬ m.Stopped ∧ ∃ next, plan m.memory m.pc = .ok (.send v next) := by
  unfold sending?
  by_cases hs : m.Stopped
  · simp [hs]
  · simp only [hs, if_false]
    cases hp : plan m.memory m.pc with
    | error f => simp
    | ok action => cases action <;> simp

theorem taking?_eq_some_iff {m : Machine} {t : PipeTable} {v : Cell} :
    m.taking? t = some v ↔ m.AtInput ∧ (t.get m.input).queue.head? = some v := by
  unfold taking? AtInput
  by_cases hs : m.Stopped
  · simp [hs]
  · simp only [hs, if_false]
    cases hp : plan m.memory m.pc with
    | error f => simp
    | ok action => cases action <;> simp

/-- A step executes an instruction if it is counted. -/
theorem executes_iff_count {m : Machine} {t : PipeTable} :
    m.Executes t ↔ (m.step t).1.count = m.count + 1 := by
  rw [count_step]
  by_cases h : m.Executes t <;> simp [h]

theorem step_send {m : Machine} {v : Cell} {next : Int} (hs : ¬ m.Stopped)
    (hp : plan m.memory m.pc = .ok (.send v next)) (t : PipeTable) :
    m.step t = (m.advance next, t.push m.output v) := by
  have hs' : ¬ (m.status = .halted ∨ m.status = .faulted) := hs
  simp only [step, hs', if_false, hp, perform]

theorem step_receive {m : Machine} {t : PipeTable} {index : Nat} {v : Cell} {next : Int}
    (hs : ¬ m.Stopped) (hp : plan m.memory m.pc = .ok (.receive index next))
    (hv : (t.get m.input).queue.head? = some v) :
    m.step t = ((m.store index v).advance next, t.modify m.input Pipe.skip) := by
  have hs' : ¬ (m.status = .halted ∨ m.status = .faulted) := hs
  simp only [step, hs', if_false, hp, perform, PipeTable.pop?_eq, hv, Option.map_some]

theorem atInput_of_decode {m : Machine} {t : PipeTable} {ins : Instruction} (h : m.Executes t)
    (hd : Instruction.decode m.memory m.pc = .ok ins) (hop : ins.op = .input) : m.AtInput := by
  refine ⟨h.1, ?_⟩
  have hplan : plan m.memory m.pc =
      (Instruction.destination m.memory m.pc 0 >>= fun i => pure (.receive i (m.pc + 2))) := by
    rw [plan_of_decode hd]
    simp only [Instruction.action, hop]
  cases hi : Instruction.destination m.memory m.pc 0 with
  | ok i => exact ⟨i, m.pc + 2, by rw [hplan, hi]; rfl⟩
  | error f =>
    -- without a destination the step would have faulted
    have hs' : ¬ (m.status = .halted ∨ m.status = .faulted) := h.1
    have hf : plan m.memory m.pc = .error f := by rw [hplan, hi]; rfl
    have hstep : m.step t = (m.stop f, t) := by simp only [step, hs', if_false, hf]
    exact absurd (by rw [hstep]; rfl) h.2.1

/-- The records of a step are right. -/
theorem accounts (m : Machine) (t : PipeTable) : m.Accounts t where
  sends := by
    intro v
    rw [sending?_eq_some_iff]
    constructor
    · rintro ⟨hs, next, hp⟩
      obtain ⟨ins, hd, ha⟩ := decode_of_plan hp
      obtain ⟨hop, hv, -⟩ := Instruction.action_eq_send_iff.1 ha
      refine ⟨executes_iff_count.2 ?_, ins, hd, hop, hv⟩
      rw [step_send hs hp]
      rfl
    · rintro ⟨hx, ins, hd, hop, hv⟩
      refine ⟨hx.1, m.pc + 2, ?_⟩
      rw [plan_of_decode hd]
      exact Instruction.action_eq_send_iff.2 ⟨hop, hv, rfl⟩
  takes := by
    intro v
    rw [taking?_eq_some_iff]
    constructor
    · rintro ⟨⟨hs, index, next, hp⟩, hv⟩
      obtain ⟨ins, hd, ha⟩ := decode_of_plan hp
      obtain ⟨hop, -⟩ := (Instruction.op_of_action ha).2 index next rfl
      refine ⟨executes_iff_count.2 ?_, ⟨ins, hd, hop⟩, hv⟩
      rw [step_receive hs hp hv]
      rfl
    · rintro ⟨hx, ⟨ins, hd, hop⟩, hv⟩
      exact ⟨atInput_of_decode hx hd hop, hv⟩
  stores := by
    intro v htakes
    obtain ⟨⟨hs, index, next, hp⟩, hv⟩ := taking?_eq_some_iff.1 htakes
    obtain ⟨ins, hd, ha⟩ := decode_of_plan hp
    obtain ⟨-, hdest⟩ := (Instruction.op_of_action ha).2 index next rfl
    obtain ⟨a, ha, hw⟩ := write_of_destination hdest v
    refine ⟨a, by simpa using ha, ?_⟩
    rw [hw, step_receive hs hp hv]
    rfl
  idle := by
    intro hx
    have hr := m.reacts_react (t.get m.input).queue.head?
    have hcount : (m.react (t.get m.input).queue.head?).after.count = m.count := by
      have hstep := m.count_step t
      rw [if_neg hx, step_eq] at hstep
      exact hstep
    obtain ⟨htakes, hsends, -⟩ := hr.of_count_eq hcount
    refine ⟨?_, ?_, ?_⟩
    · rw [step_eq, htakes, hsends]
      rfl
    · rw [← sends_react m (t.get m.input).queue.head?, hsends]
    · rw [taking?_eq, htakes]
      rfl

end Machine

/-! ## Operations on machines and pipes -/

namespace Rig

/-- What can be done to machines and pipes from outside. -/
inductive Operation where
  | step (k : Nat)
  | run (fuel k : Nat)
  | write (k : Nat) (v : Cell)
  | push (i : Nat) (v : Cell)
  | pop (i : Nat)
  | drain (i : Nat)
deriving DecidableEq, Inhabited

/-- The rig after an operation. A run has none if the fuel is not enough. -/
def operate (rig : Rig) : Operation → Option Rig
  | .step k => some (rig.step k)
  | .run fuel k => rig.run fuel k
  | .write k v => some (rig.write k v)
  | .push i v => some { rig with pipes := rig.pipes.push i v }
  | .pop i => some { rig with pipes := (rig.pipes.pop? i).elim rig.pipes Prod.snd }
  | .drain i => some { rig with pipes := (rig.pipes.popAll i).2 }

/-- The rig after operations, one after another. -/
def operateAll : Rig → List Operation → Option Rig
  | rig, [] => some rig
  | rig, op :: ops => (rig.operate op).bind fun rig => rig.operateAll ops

/-! ### Records -/

/-- The values that machine `k` sends to pipe `i` when it is stepped: one or none. -/
def stepSends (rig : Rig) (i k : Nat) : List Cell :=
  (rig.machine? k).elim [] fun m => if m.output = i then m.sending?.toList else []

/-- The values that machine `k` takes from pipe `i` when it is stepped: one or none. -/
def stepTakes (rig : Rig) (i k : Nat) : List Cell :=
  (rig.machine? k).elim [] fun m => if m.input = i then (m.taking? rig.pipes).toList else []

/-- The values that a schedule sends to pipe `i`. -/
def sentTo (i : Nat) : Rig → List Nat → List Cell
  | _, [] => []
  | rig, k :: ks => rig.stepSends i k ++ (rig.step k).sentTo i ks

/-- The values that a schedule takes from pipe `i`. -/
def takenFrom (i : Nat) : Rig → List Nat → List Cell
  | _, [] => []
  | rig, k :: ks => rig.stepTakes i k ++ (rig.step k).takenFrom i ks

/-- The values that an operation puts into pipe `i`. -/
def pushed (rig : Rig) (i : Nat) : Operation → List Cell
  | .step k => rig.stepSends i k
  | .run fuel k => rig.sentTo i (rig.runTrace fuel k)
  | .write k v => (rig.machine? k).elim [] fun m => if m.input = i then [v] else []
  | .push j v => if j = i then [v] else []
  | .pop _ => []
  | .drain _ => []

/-- The values that an operation removes from pipe `i`. -/
def removed (rig : Rig) (i : Nat) : Operation → List Cell
  | .step k => rig.stepTakes i k
  | .run fuel k => rig.takenFrom i (rig.runTrace fuel k)
  | .write _ _ => []
  | .push _ _ => []
  | .pop j => if j = i then ((rig.pipes.pop? j).map Prod.fst).toList else []
  | .drain j => if j = i then (rig.pipes.popAll j).1 else []

/-- The values that operations put into pipe `i`, in their order. -/
def allPushed (i : Nat) : Rig → List Operation → List Cell
  | _, [] => []
  | rig, op :: ops => rig.pushed i op ++ (rig.operate op).elim [] fun rig => rig.allPushed i ops

/-- The values that operations remove from pipe `i`, in their order. -/
def allRemoved (i : Nat) : Rig → List Operation → List Cell
  | _, [] => []
  | rig, op :: ops => rig.removed i op ++ (rig.operate op).elim [] fun rig => rig.allRemoved i ops

/-! ### Balance -/

section Balance

variable {rig rig' : Rig} {i : Nat} {entered left : List Cell}

/-- Pipe `i` is there and in balance. -/
structure BalancedAt (rig : Rig) (i : Nat) (entered left : List Cell) : Prop where
  there : i < rig.pipes.size
  balanced : (rig.pipes.get i).Balanced entered left

theorem BalancedAt.step (h : rig.BalancedAt i entered left) (k : Nat) :
    (rig.step k).BalancedAt i (entered ++ rig.stepSends i k) (left ++ rig.stepTakes i k) := by
  cases hk : rig.machine? k with
  | none =>
    simp only [step_of_none hk, stepSends, stepTakes, hk, Option.elim_none, List.append_nil]
    exact h
  | some m =>
    simp only [stepSends, stepTakes, hk, Option.elim_some]
    refine ⟨?_, ?_⟩
    · rw [pipes_step hk, Machine.size_step]
      exact h.there
    · rw [pipes_step hk]
      exact m.balanced_step h.there h.balanced

theorem BalancedAt.steps (h : rig.BalancedAt i entered left) (ks : List Nat) :
    (rig.steps ks).BalancedAt i (entered ++ rig.sentTo i ks) (left ++ rig.takenFrom i ks) := by
  induction ks generalizing rig entered left with
  | nil =>
    simp only [sentTo, takenFrom, List.append_nil]
    exact h
  | cons k rest ih =>
    rw [sentTo, takenFrom, ← List.append_assoc, ← List.append_assoc, steps_cons]
    exact ih (h.step k)

/-- A change of one pipe that keeps it in balance keeps all in balance. -/
theorem BalancedAt.modify (h : rig.BalancedAt i entered left) (j : Nat) (f : Pipe → Pipe)
    (into out : List Cell)
    (hf : j = i → (f (rig.pipes.get i)).Balanced (entered ++ into) (left ++ out)) :
    BalancedAt { rig with pipes := rig.pipes.modify j f } i (entered ++ if j = i then into else [])
      (left ++ if j = i then out else []) := by
  refine ⟨by rw [PipeTable.size_modify]; exact h.there, ?_⟩
  by_cases hji : j = i
  · subst hji
    rw [PipeTable.get_modify_self h.there, if_pos rfl, if_pos rfl]
    exact hf rfl
  · rw [PipeTable.get_modify_of_ne hji, if_neg hji, if_neg hji, List.append_nil, List.append_nil]
    exact h.balanced

theorem BalancedAt.push (h : rig.BalancedAt i entered left) (j : Nat) (v : Cell) :
    BalancedAt { rig with pipes := rig.pipes.push j v } i (entered ++ if j = i then [v] else [])
      left := by
  have hpush := h.modify j (·.push v) [v] [] fun _ => by
    rw [List.append_nil]
    exact h.balanced.pushAll [v]
  rw [ite_self, List.append_nil] at hpush
  exact hpush

/-- Operations keep every pipe in balance. -/
theorem BalancedAt.operate (h : rig.BalancedAt i entered left) {op : Operation}
    (hop : rig.operate op = some rig') :
    rig'.BalancedAt i (entered ++ rig.pushed i op) (left ++ rig.removed i op) := by
  cases op with
  | step k =>
    cases hop
    exact h.step k
  | run fuel k =>
    obtain rfl := steps_runTrace hop
    exact h.steps _
  | write k v =>
    cases hop
    simp only [pushed, removed, List.append_nil]
    cases hk : rig.machine? k with
    | none =>
      simp only [Rig.write, hk, Option.elim_none, List.append_nil]
      exact h
    | some m =>
      rw [write_of_machine? hk, Option.elim_some]
      exact h.push m.input v
  | push j v =>
    cases hop
    simp only [pushed, removed, List.append_nil]
    exact h.push j v
  | pop j =>
    cases hop
    simp only [pushed, removed, List.append_nil, PipeTable.pop?_eq]
    cases hq : (rig.pipes.get j).queue.head? with
    | none =>
      -- an empty pipe stays as it is
      simp only [Option.map_none, Option.elim_none, Option.toList_none, ite_self, List.append_nil]
      exact h
    | some v =>
      have hskip := h.modify j Pipe.skip [] [v] fun hji => by
        subst hji
        have hs := h.balanced.skip
        rw [hq] at hs
        simpa using hs
      simpa using hskip
  | drain j =>
    cases hop
    simp only [pushed, removed, List.append_nil, PipeTable.popAll_eq]
    have hdrain := h.modify j Pipe.drain [] (rig.pipes.get j).queue fun hji => by
      subst hji
      simpa using h.balanced.drain
    simpa using hdrain

theorem BalancedAt.operateAll (h : rig.BalancedAt i entered left) {ops : List Operation}
    (hops : rig.operateAll ops = some rig') :
    rig'.BalancedAt i (entered ++ rig.allPushed i ops) (left ++ rig.allRemoved i ops) := by
  induction ops generalizing rig entered left with
  | nil =>
    cases hops
    simp only [allPushed, allRemoved, List.append_nil]
    exact h
  | cons op rest ih =>
    obtain ⟨rig₁, hop, hrest⟩ := Option.bind_eq_some_iff.1 hops
    simp only [allPushed, allRemoved, hop, Option.elim_some]
    rw [← List.append_assoc, ← List.append_assoc]
    exact ih (h.operate hop) hrest

end Balance

/-- No value is lost, doubled or reordered. After any operations on machines that share
pipes in any way, the values that were in a pipe at first and those put into it since are
the values that have been removed from it and then its queue. The number of pushes and the
last value are those of all values ever put in. The records that this is about agree with
the instructions that are executed. -/
theorem values_conserved {rig rig' : Rig} {initial : Nat → List Cell} {ops : List Operation}
    (hinitial : ∀ i, i < rig.pipes.size → rig.pipes.get i = .ofList (initial i))
    (hops : rig.operateAll ops = some rig') :
    (∀ i, i < rig.pipes.size →
      initial i ++ rig.allPushed i ops = rig.allRemoved i ops ++ (rig'.pipes.get i).queue ∧
      (rig'.pipes.get i).pushes = (initial i ++ rig.allPushed i ops).length ∧
      (rig'.pipes.get i).last? = (initial i ++ rig.allPushed i ops).getLast?) ∧
    ∀ (m : Machine) (t : PipeTable), m.Accounts t := by
  refine ⟨?_, Machine.accounts⟩
  intro i hi
  have hstart : rig.BalancedAt i (initial i) [] := by
    refine ⟨hi, ?_⟩
    rw [hinitial i hi]
    exact Pipe.balanced_ofList _
  have hend := (hstart.operateAll hops).balanced
  rw [List.nil_append] at hend
  exact ⟨hend.split, hend.pushes_eq, hend.last?_eq⟩

/-- Two machines on one pipe. The first sends a value to it. The second reads from it and
sends what it has read back to the same pipe. -/
def crossing : Rig :=
  ⟨#[.new "vm" false ⟨#[104, 7, 99]⟩ 1 0, .new "vm" false ⟨#[3, 5, 4, 5, 99, 0]⟩ 0 0],
    ⟨#[.ofList [1, 2], .empty]⟩⟩

/-- The second machine takes 1 and sends it behind the 7 of the first one. -/
theorem crossing_conserved :
    ∃ rig, crossing.operateAll [.run 5 0, .step 1, .pop 0, .write 1 9, .run 5 1, .push 1 4] =
        some rig ∧
      crossing.allPushed 0 [.run 5 0, .step 1, .pop 0, .write 1 9, .run 5 1, .push 1 4] =
        [7, 9, 1] ∧
      crossing.allRemoved 0 [.run 5 0, .step 1, .pop 0, .write 1 9, .run 5 1, .push 1 4] =
        [1, 2] ∧
      [1, 2] ++ [7, 9, 1] = [1, 2] ++ (rig.pipes.get 0).queue ∧
      (rig.pipes.get 0).pushes = 5 ∧ (rig.pipes.get 0).last? = some 1 := by
  let ops : List Operation := [.run 5 0, .step 1, .pop 0, .write 1 9, .run 5 1, .push 1 4]
  have hsome : (crossing.operateAll ops).isSome = true := by decide +kernel
  obtain ⟨rig, hops⟩ := Option.isSome_iff_exists.1 hsome
  have hinitial : ∀ i, i < crossing.pipes.size →
      crossing.pipes.get i = .ofList (if i = 0 then [1, 2] else []) := by
    intro i hi
    have hsize : crossing.pipes.size = 2 := rfl
    obtain rfl | rfl : i = 0 ∨ i = 1 := by omega
    · rfl
    · rfl
  have hpushed : crossing.allPushed 0 ops = [7, 9, 1] := by decide +kernel
  have hremoved : crossing.allRemoved 0 ops = [1, 2] := by decide +kernel
  obtain ⟨hpipes, -⟩ := values_conserved hinitial hops
  obtain ⟨hqueue, hpushes, hlast⟩ := hpipes 0 (by decide)
  rw [if_pos rfl, hpushed] at hqueue hpushes hlast
  rw [hremoved] at hqueue
  exact ⟨rig, hops, hpushed, hremoved, hqueue, hpushes, hlast⟩

end Rig

end CellMachine
