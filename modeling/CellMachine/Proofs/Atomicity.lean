import CellMachine.Proofs.Independence

/-!
# Faulting steps

A step plans its instruction, with every address checked, before it does anything. The
instruction can also be carried out access by access, on the machine and the pipes as they
are: it reads its operands one after another, looks up its destination, stores, takes or
sends, and moves on. Any of these accesses may meet an address out of range, and what the
ones before it have done is then not undone. `Machine.execute` is this execution in place.

The two agree (`Machine.execute_carriesOut`), because in every instruction the accesses that
can fault come before the first one that has an effect. The only exception is the store of
an input instruction, which comes after a value has been taken; its address has been checked
by then (`InPlace.carriesOut_receive`). So a step is an execution in place
(`Machine.step_eq_execute`), and one that faults finds everything as it was before
(`Rig.faulting_step_atomic`).
-/

set_option autoImplicit false

namespace CellMachine

/-- Work on a machine and its pipes in place. A fault ends the work, and what has been done
by then stays done. -/
def InPlace (α : Type) : Type :=
  Machine × PipeTable → Except Fault α × Machine × PipeTable

namespace InPlace

instance : Monad InPlace where
  pure a := fun s => (.ok a, s)
  bind x f := fun s =>
    match x s with
    | (.error fault, s) => (.error fault, s)
    | (.ok a, s) => f a s

/-! ## Single accesses -/

/-- Looks at the memory. An address out of range is a fault of the instruction at `pc`. -/
def look {α : Type} (pc : Int) (f : Memory → Except BadAddress α) : InPlace α :=
  fun s => ((f s.1.memory).mapError (Fault.address (some pc)), s)

/-- Reads operand `k` of the instruction at `pc`. -/
def operand (ins : Instruction) (pc : Int) (k : Nat) : InPlace Cell :=
  look pc fun m => m.read (pc + 1 + k) (ins.mode k)

/-- Reads parameter `k` of the instruction at `pc` as an address, which may be out of range. -/
def parameter (pc : Int) (k : Nat) : InPlace Int :=
  look pc fun m => (m.get (pc + 1 + k)).map Int64.toInt

/-- Passes an address on if it is in range. -/
def check (pc addr : Int) : InPlace Int :=
  look pc fun m => (m.index addr).map fun _ => addr

/-- Stores a value at an address. -/
def put (pc addr : Int) (v : Cell) : InPlace Unit := fun (m, pipes) =>
  match m.memory.write addr v with
  | .ok memory => (.ok (), { m with memory }, pipes)
  | .error e => (.error (.address (some pc) e), m, pipes)

/-- Takes the head of the input queue, if there is one. -/
def take : InPlace (Option Cell) := fun (m, pipes) =>
  match pipes.pop? m.input with
  | some (v, pipes) => (.ok (some v), m, pipes)
  | none => (.ok none, m, pipes)

/-- Sends a value to the output. -/
def send (v : Cell) : InPlace Unit := fun (m, pipes) =>
  (.ok (), m, pipes.push m.output v)

/-- Goes on at an address. -/
def goTo (next : Int) : InPlace Unit := fun (m, pipes) =>
  (.ok (), { m with pc := next, status := .running }, pipes)

/-- Stays at the instruction with another status. -/
def stay (status : Status) : InPlace Unit := fun (m, pipes) =>
  (.ok (), { m with status }, pipes)

/-! ## Instructions -/

/-- An instruction that stores a function of its two operands. -/
def combine (ins : Instruction) (pc : Int) (f : Cell → Cell → Cell) : InPlace Unit := do
  let a ← operand ins pc 0
  let b ← operand ins pc 1
  let addr ← parameter pc 2
  put pc addr (f a b)
  goTo (pc + 4)

/-- An input instruction. The destination is checked before a value is taken. -/
def receive (pc : Int) : InPlace Unit := do
  let addr ← parameter pc 0
  let addr ← check pc addr
  let head ← take
  match head with
  | none => stay .waiting
  | some v =>
    put pc addr v
    goTo (pc + 2)

/-- An output instruction. -/
def emit (ins : Instruction) (pc : Int) : InPlace Unit := do
  let v ← operand ins pc 0
  send v
  goTo (pc + 2)

/-- A jump that is taken if its first operand satisfies `p`. -/
def jump (ins : Instruction) (pc : Int) (p : Cell → Bool) : InPlace Unit := do
  let a ← operand ins pc 0
  if p a then
    let target ← operand ins pc 1
    goTo target.toInt
  else
    goTo (pc + 3)

/-- The instruction at `pc`. -/
def perform (ins : Instruction) (pc : Int) : InPlace Unit :=
  match ins.op with
  | .add => combine ins pc (· + ·)
  | .mul => combine ins pc (· * ·)
  | .lessThan => combine ins pc fun a b => if a < b then 1 else 0
  | .equals => combine ins pc fun a b => if a = b then 1 else 0
  | .input => receive pc
  | .output => emit ins pc
  | .jumpIfTrue => jump ins pc (· != 0)
  | .jumpIfFalse => jump ins pc (· == 0)
  | .halt => stay .halted

end InPlace

namespace Machine

/-- Carries out the instruction at the program counter in place. -/
def execute (m : Machine) (pipes : PipeTable) : Except Fault Unit × Machine × PipeTable :=
  match Instruction.decode m.memory m.pc with
  | .error fault => (.error fault, m, pipes)
  | .ok ins => InPlace.perform ins m.pc (m, pipes)

/-- The machine with its instruction counted, unless it waits. -/
def counted (m : Machine) : Machine :=
  if m.status = .waiting then m else { m with count := m.count + 1 }

end Machine

namespace InPlace

variable {m : Machine} {pipes : PipeTable} {pc : Int}

/-! ## Planned and carried out

Both ways go through the same accesses in the same order as long as nothing is changed, so
they are compared access by access up to there. -/

/-- The work on the machine carries out what is planned: it meets the planned fault with
nothing changed, or has the effect of the planned action, the count aside. -/
structure CarriesOut (x : InPlace Unit) (m : Machine) (pipes : PipeTable)
    (planned : Except Fault Action) : Prop where
  fault : ∀ cause, planned = .error cause → x (m, pipes) = (.error cause, m, pipes)
  effect : ∀ action, planned = .ok action →
    ∃ m', x (m, pipes) = (.ok (), m', (m.perform pipes action).2) ∧
      m'.counted = (m.perform pipes action).1

theorem bind_of_ok {α β : Type} {x : InPlace α} {f : α → InPlace β} {s s' : Machine × PipeTable}
    {a : α} (h : x s = (.ok a, s')) : (x >>= f) s = f a s' := by
  show (match x s with
    | (.error fault, s) => (.error fault, s)
    | (.ok a, s) => f a s) = f a s'
  rw [h]

theorem bind_of_error {α β : Type} {x : InPlace α} {f : α → InPlace β}
    {s s' : Machine × PipeTable} {cause : Fault} (h : x s = (.error cause, s')) :
    (x >>= f) s = (.error cause, s') := by
  show (match x s with
    | (.error fault, s) => (.error fault, s)
    | (.ok a, s) => f a s) = (.error cause, s')
  rw [h]

section CarriesOut

variable {x y : InPlace Unit}

theorem CarriesOut.of_error {cause : Fault} (h : x (m, pipes) = (.error cause, m, pipes)) :
    CarriesOut x m pipes (.error cause) := by
  constructor
  · intro cause' hcause
    cases hcause
    exact h
  · intro action haction
    cases haction

theorem CarriesOut.of_ok {action : Action} (m' : Machine)
    (h : x (m, pipes) = (.ok (), m', (m.perform pipes action).2))
    (hcount : m'.counted = (m.perform pipes action).1) : CarriesOut x m pipes (.ok action) := by
  constructor
  · intro cause hcause
    cases hcause
  · intro action' haction
    cases haction
    exact ⟨m', h, hcount⟩

/-- Only the work on this machine and these pipes matters. -/
theorem CarriesOut.congr {planned : Except Fault Action} (hy : CarriesOut y m pipes planned)
    (h : x (m, pipes) = y (m, pipes)) : CarriesOut x m pipes planned := by
  constructor
  · intro cause hcause
    rw [h]
    exact hy.fault cause hcause
  · intro action haction
    rw [h]
    exact hy.effect action haction

end CarriesOut

/-- An access that changes nothing is matched by the one that is planned. -/
theorem CarriesOut.bind {α : Type} {x : InPlace α} {f : α → InPlace Unit} {e : Except Fault α}
    {g : α → Except Fault Action} (hx : x (m, pipes) = (e, m, pipes))
    (hf : ∀ a, CarriesOut (f a) m pipes (g a)) : CarriesOut (x >>= f) m pipes (e >>= g) := by
  cases e with
  | error cause => exact .of_error (bind_of_error hx)
  | ok a => exact (hf a).congr (bind_of_ok hx)

theorem operand_apply (ins : Instruction) (k : Nat) :
    operand ins pc k (m, pipes) = (ins.operand m.memory pc k, m, pipes) :=
  rfl

/-- A machine that goes on is counted. -/
theorem counted_goTo (m : Machine) (next : Int) :
    Machine.counted { m with pc := next, status := .running } = m.advance next :=
  rfl

/-- A store to an address in range. -/
theorem put_of_index {addr : Int} {i : Fin m.memory.cells.size} (h : m.memory.index addr = .ok i)
    (pipes : PipeTable) (v : Cell) :
    put pc addr v (m, pipes) = (.ok (), m.store i v, pipes) := by
  have hwrite : m.memory.write addr v = .ok ⟨m.memory.cells.setIfInBounds i v⟩ := by
    rw [Memory.write, h, Array.setIfInBounds_def, dif_pos i.isLt]
  simp only [put, hwrite]
  rfl

theorem put_of_error {addr : Int} {e : BadAddress} (h : m.memory.index addr = .error e)
    (pipes : PipeTable) (v : Cell) :
    put pc addr v (m, pipes) = (.error (.address (some pc) e), m, pipes) := by
  simp only [put, Memory.write, h]

/-- A destination is looked up and then checked. The look-up changes nothing, so only the
check is left to be compared. -/
theorem carriesOut_parameter {k : Nat} {rest : Int → InPlace Unit} {g : Nat → Except Fault Action}
    (h : ∀ addr, CarriesOut (rest addr) m pipes
      (((m.memory.index addr).map Fin.val).mapError (Fault.address (some pc)) >>= g)) :
    CarriesOut (parameter pc k >>= rest) m pipes
      (Instruction.destination m.memory pc k >>= g) := by
  have hplanned : Instruction.destination m.memory pc k =
      ((m.memory.get (pc + 1 + k)).map Int64.toInt).mapError (Fault.address (some pc)) >>=
        fun addr => ((m.memory.index addr).map Fin.val).mapError (Fault.address (some pc)) := by
    cases hget : m.memory.get (pc + 1 + k) with
    | error e =>
      simp only [Instruction.destination, hget]
      rfl
    | ok a =>
      show Instruction.destination m.memory pc k =
        ((m.memory.index a.toInt).map Fin.val).mapError (Fault.address (some pc))
      simp only [Instruction.destination, hget]
      cases m.memory.index a.toInt <;> rfl
  rw [hplanned, bind_assoc]
  exact CarriesOut.bind rfl h

/-- The last accesses of an instruction that stores. The destination is checked by the store
itself, which has no effect if it faults. -/
theorem carriesOut_store (k : Nat) (v : Cell) (next : Int) :
    CarriesOut (do
        let addr ← parameter pc k
        put pc addr v
        goTo next) m pipes
      (do
        let i ← Instruction.destination m.memory pc k
        return .store i v next) := by
  apply carriesOut_parameter
  intro addr
  cases hindex : m.memory.index addr with
  | error e => exact .of_error (bind_of_error (put_of_error hindex pipes v))
  | ok i =>
    exact .of_ok { m.store i v with pc := next, status := .running }
      (bind_of_ok (put_of_index hindex pipes v)) (counted_goTo (m.store i v) next)

theorem carriesOut_combine (ins : Instruction) (f : Cell → Cell → Cell) :
    CarriesOut (combine ins pc f) m pipes (ins.combine m.memory pc f) := by
  refine CarriesOut.bind (operand_apply ins 0) ?_
  intro a
  refine CarriesOut.bind (operand_apply ins 1) ?_
  intro b
  exact carriesOut_store 2 (f a b) (pc + 4)

/-- The address is checked while nothing has changed, and taking a value does not touch the
memory, so the store cannot fault any more. -/
theorem carriesOut_receive :
    CarriesOut (receive pc) m pipes (do
      let i ← Instruction.destination m.memory pc 0
      return .receive i (pc + 2)) := by
  apply carriesOut_parameter
  intro addr
  have hcheck : check pc addr (m, pipes) =
      (((m.memory.index addr).map fun _ => addr).mapError (Fault.address (some pc)), m, pipes) :=
    rfl
  cases hindex : m.memory.index addr with
  | error e =>
    rw [hindex] at hcheck
    exact .of_error (bind_of_error hcheck)
  | ok i =>
    rw [hindex] at hcheck
    refine CarriesOut.congr ?_ (bind_of_ok hcheck)
    cases hpop : pipes.pop? m.input with
    | none =>
      have htake : take (m, pipes) = (.ok none, m, pipes) := by
        simp only [take, hpop]
      have hwaits : m.perform pipes (.receive i (pc + 2)) = (m.await, pipes) := by
        simp only [Machine.perform, hpop]
        rfl
      refine .of_ok m.await ?_ ?_
      · rw [bind_of_ok htake, hwaits]
        rfl
      · rw [hwaits]
        rfl
    | some taken =>
      obtain ⟨v, pipes'⟩ := taken
      have htake : take (m, pipes) = (.ok (some v), m, pipes') := by
        simp only [take, hpop]
      have hput : put pc addr v (m, pipes') = (.ok (), m.store i v, pipes') :=
        put_of_index hindex pipes' v
      have hreceives : m.perform pipes (.receive i (pc + 2)) =
          ((m.store i v).advance (pc + 2), pipes') := by
        simp only [Machine.perform, hpop]
      refine .of_ok { m.store i v with pc := pc + 2, status := .running } ?_ ?_
      · rw [bind_of_ok htake, hreceives]
        exact bind_of_ok hput
      · rw [hreceives]
        exact counted_goTo (m.store i v) (pc + 2)

theorem carriesOut_emit (ins : Instruction) :
    CarriesOut (emit ins pc) m pipes (do
      let v ← ins.operand m.memory pc 0
      return .send v (pc + 2)) := by
  refine CarriesOut.bind (operand_apply ins 0) ?_
  intro v
  exact .of_ok _ rfl (counted_goTo m (pc + 2))

theorem carriesOut_goTo (next : Int) : CarriesOut (goTo next) m pipes (.ok (.jump next)) :=
  .of_ok _ rfl (counted_goTo m next)

theorem carriesOut_jump (ins : Instruction) (p : Cell → Bool) :
    CarriesOut (jump ins pc p) m pipes (ins.jump m.memory pc p) := by
  refine CarriesOut.bind (operand_apply ins 0) ?_
  intro a
  cases p a with
  | true =>
    refine CarriesOut.bind (operand_apply ins 1) ?_
    intro target
    exact carriesOut_goTo target.toInt
  | false => exact carriesOut_goTo (pc + 3)

theorem carriesOut_perform (ins : Instruction) :
    CarriesOut (perform ins pc) m pipes (ins.action m.memory pc) := by
  unfold perform Instruction.action
  cases ins.op with
  | add | mul | lessThan | equals => exact carriesOut_combine ins _
  | input => exact carriesOut_receive
  | output => exact carriesOut_emit ins
  | jumpIfTrue | jumpIfFalse => exact carriesOut_jump ins _
  | halt => exact .of_ok _ rfl rfl

end InPlace

namespace Machine

/-! ## Steps -/

/-- Execution in place carries out the plan of the whole instruction. -/
theorem execute_carriesOut (m : Machine) (pipes : PipeTable) :
    InPlace.CarriesOut (fun s => s.1.execute s.2) m pipes (plan m.memory m.pc) := by
  unfold plan
  cases hd : Instruction.decode m.memory m.pc with
  | error fault => exact .of_error (by simp only [execute, hd])
  | ok ins => exact (InPlace.carriesOut_perform ins).congr (by simp only [execute, hd])

/-- What becomes of a machine after an execution in place: it is stopped by the fault, or its
instruction is counted. -/
def conclude : Except Fault Unit × Machine × PipeTable → Machine × PipeTable
  | (.error cause, m, pipes) => (m.stop cause, pipes)
  | (.ok _, m, pipes) => (m.counted, pipes)

/-- A step is an execution in place. -/
theorem step_eq_execute {m : Machine} (hs : ¬ m.Stopped) (pipes : PipeTable) :
    m.step pipes = conclude (m.execute pipes) := by
  have hs' : ¬ (m.status = .halted ∨ m.status = .faulted) := hs
  have hcarries := m.execute_carriesOut pipes
  simp only [step, hs', if_false]
  cases hp : plan m.memory m.pc with
  | error cause =>
    have hfault : m.execute pipes = (.error cause, m, pipes) := hcarries.fault cause hp
    rw [hfault]
    rfl
  | ok action =>
    obtain ⟨m', hwork, hcount⟩ := hcarries.effect action hp
    have hwork' : m.execute pipes = (.ok (), m', (m.perform pipes action).2) := hwork
    rw [hwork', conclude, hcount]

/-- No action leaves its machine faulted. -/
theorem status_perform (m : Machine) (pipes : PipeTable) (action : Action) :
    (m.perform pipes action).1.status ≠ .faulted := by
  intro hf
  cases action with
  | store | send | jump | halt => cases hf
  | receive index next =>
    unfold perform at hf
    cases hpop : pipes.pop? m.input with
    | none =>
      rw [hpop] at hf
      cases hf
    | some taken =>
      rw [hpop] at hf
      cases hf

/-- A step that reports a fault is an execution in place that met the fault and changed
nothing before it. -/
theorem execute_of_error? {m : Machine} {pipes : PipeTable} {f : MachineFault}
    (hs : ¬ m.Stopped) (hf : (m.step pipes).1.error? = some f) :
    m.execute pipes = (.error f.cause, m, pipes) ∧ f.name = m.name := by
  have hcarries := m.execute_carriesOut pipes
  obtain ⟨hstatus, hfault⟩ := error?_eq_some_iff.1 hf
  rw [step_eq_execute hs] at hstatus hfault
  cases hp : plan m.memory m.pc with
  | error cause =>
    have hwork : m.execute pipes = (.error cause, m, pipes) := hcarries.fault cause hp
    rw [hwork] at hfault ⊢
    cases hfault
    exact ⟨rfl, rfl⟩
  | ok action =>
    obtain ⟨m', hwork, hcount⟩ := hcarries.effect action hp
    have hwork' : m.execute pipes = (.ok (), m', (m.perform pipes action).2) := hwork
    rw [hwork', conclude, hcount] at hstatus
    exact absurd hstatus (status_perform m pipes action)

end Machine

/-- A faulting step is atomic. If the step of a running or waiting machine reports a fault,
then the fault came up before any access of the instruction had an effect. The machine
differs from before in its status and in the fault on record, which bears its name; its
memory, program counter, count and wiring, all pipes and all other machines are the same. -/
theorem Rig.faulting_step_atomic {rig : Rig} {k : Nat} {m : Machine} {f : MachineFault}
    (hm : rig.machine? k = some m) (hs : m.status = .running ∨ m.status = .waiting)
    (hf : rig.stepError? k = some f) :
    m.execute rig.pipes = (.error f.cause, m, rig.pipes) ∧ f.name = m.name ∧
      rig.step k = rig.setMachine k { m with status := .faulted, fault := some f } := by
  have hgoes : ¬ m.Stopped := by
    rcases hs with hs | hs <;> simp [Machine.Stopped, hs]
  have herror : (m.step rig.pipes).1.error? = some f := by
    rw [stepError?, machine?_step_self hm] at hf
    exact hf
  obtain ⟨hwork, hname⟩ := Machine.execute_of_error? hgoes herror
  refine ⟨hwork, hname, ?_⟩
  have hstep : m.step rig.pipes = ({ m with status := .faulted, fault := some f }, rig.pipes) := by
    rw [Machine.step_eq_execute hgoes, hwork, Machine.conclude, Machine.stop, ← hname]
  rw [step_of_machine? hm, hstep]
  rfl

/-- A machine that reads from the pipe it writes to. It waits at an input instruction whose
destination has been put out of range, and a value has arrived. -/
def strayReader : Rig :=
  ⟨#[{ Machine.new "loop" false ⟨#[3, 50]⟩ 0 0 with status := .waiting }],
    ⟨#[Pipe.ofList [7]]⟩⟩

/-- The value is still in the pipe after the fault. -/
theorem strayReader_atomic :
    ∃ m f, strayReader.machine? 0 = some m ∧ m.status = .waiting ∧
      strayReader.stepError? 0 = some f ∧ f.cause = .address (some 0) ⟨50, 2⟩ ∧
      m.execute strayReader.pipes = (.error f.cause, m, strayReader.pipes) ∧
      (strayReader.step 0).pipes = strayReader.pipes ∧
      ((strayReader.step 0).pipes.get 0).queue = [7] := by
  let m : Machine := { Machine.new "loop" false ⟨#[3, 50]⟩ 0 0 with status := .waiting }
  have hm : strayReader.machine? 0 = some m := rfl
  have hf : strayReader.stepError? 0 = some ⟨"loop", .address (some 0) ⟨50, 2⟩⟩ := by
    decide +kernel
  obtain ⟨hwork, -, hstep⟩ := Rig.faulting_step_atomic hm (Or.inr rfl) hf
  refine ⟨m, _, hm, rfl, hf, rfl, hwork, ?_, ?_⟩
  · rw [hstep]
    rfl
  · rw [hstep]
    rfl

end CellMachine
