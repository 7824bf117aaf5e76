import CellMachine.Proofs.Assembly.Language
import CellMachine.Proofs.Atomicity
import CellMachine.Proofs.Lifecycle
import CellMachine.Proofs.ModeDigits

/-!
# The addresses that an instruction goes through

Before it does anything, an instruction looks at a few addresses one after another: those of
its parameters, those that position parameters hold, and the one of its destination. `trail`
lists them for a cell and the operation that the cell selects. A jump that is not taken does
not look at its target, so the list depends on the memory as well.

An instruction faults at the first address of its trail that is out of range, and if there is
none it does not fault (`checks_action`). With the two ways in which no instruction is found
in the first place, this says exactly when a step faults and with what
(`Machine.step_faults_iff`).
-/

set_option autoImplicit false

namespace CellMachine

namespace Memory

/-- The cell at an address, if there is one. -/
def cell? (m : Memory) (addr : Int) : Option Cell :=
  if addr < 0 then none else m.toList[addr.toNat]?

/-- The first address of a list that is out of range. -/
def firstOutside? (m : Memory) (addrs : List Int) : Option Int :=
  addrs.find? fun addr => ¬ m.Has addr

variable {m : Memory} {addr : Int} {v : Cell}

theorem cell?_eq_none_iff : m.cell? addr = none ↔ ¬ m.Has addr := by
  by_cases hneg : addr < 0
  · simp only [cell?, hneg, if_true, Has, true_iff]
    omega
  · simp only [cell?, hneg, if_false, Has, size, toList, List.getElem?_eq_none_iff,
      Array.length_toList]
    omega

theorem get_of_not_has (h : ¬ m.Has addr) : m.get addr = .error ⟨addr, m.size⟩ := by
  simp only [get, index, h, dif_neg, not_false_eq_true]

theorem cell?_eq_some_iff : m.cell? addr = some v ↔ m.get addr = .ok v := by
  by_cases hhas : m.Has addr
  · have hneg : ¬ addr < 0 := Int.not_lt.2 hhas.1
    have hlt : addr.toNat < m.cells.size := by
      have hsize : addr < m.cells.size := hhas.2
      omega
    simp [cell?, get, index, hneg, hhas, toList, hlt]
  · rw [cell?_eq_none_iff.2 hhas, get_of_not_has hhas]
    simp

theorem firstOutside?_append (m : Memory) (addrs addrs' : List Int) :
    m.firstOutside? (addrs ++ addrs') = (m.firstOutside? addrs).or (m.firstOutside? addrs') :=
  List.find?_append

theorem firstOutside?_eq_none_iff {addrs : List Int} :
    m.firstOutside? addrs = none ↔ ∀ addr ∈ addrs, m.Has addr := by
  simp [firstOutside?]

end Memory

/-! ## Operations and operands of a cell -/

/-- The cell selects the operation: it is not negative, and its two lowest digits are the
number of the operation. -/
def Opcode.SelectedBy (op : Opcode) (v : Cell) : Prop :=
  0 ≤ v.toInt ∧ (op.code : Int) = v.toInt % 100

instance (op : Opcode) (v : Cell) : Decidable (op.SelectedBy v) :=
  inferInstanceAs (Decidable (_ ∧ _))

namespace Instruction

section Trails

variable (m : Memory) (pc : Int) (v : Cell)

/-- The operand that parameter `k` of the instruction cell `v` at `pc` denotes, if all cells
on the way to it exist. -/
def operand? (k : Nat) : Option Cell :=
  if modeDigit v k = 0 then (m.cell? (pc + 1 + k)).bind fun a => m.cell? a.toInt
  else m.cell? (pc + 1 + k)

/-- Whether the cell at `pc` is a jump that is taken. -/
def jumps : Opcode → Bool
  | .jumpIfTrue => (operand? m pc v 0).any (· != 0)
  | .jumpIfFalse => (operand? m pc v 0).any (· == 0)
  | _ => false

/-- The address of parameter `k`, and then the one that the parameter holds. -/
def destinationTrail (k : Nat) : List Int :=
  (pc + 1 + k) :: (m.cell? (pc + 1 + k)).toList.map Int64.toInt

/-- The address of parameter `k`, and in position mode then the one that it holds. -/
def operandTrail (k : Nat) : List Int :=
  if modeDigit v k = 0 then destinationTrail m pc k else [pc + 1 + k]

/-- The addresses that the instruction cell `v` at `pc` goes through, in order. -/
def trail (op : Opcode) : List Int :=
  match op with
  | .add | .mul | .lessThan | .equals =>
    operandTrail m pc v 0 ++ (operandTrail m pc v 1 ++ destinationTrail m pc 2)
  | .input => destinationTrail m pc 0
  | .output => operandTrail m pc v 0
  | .jumpIfTrue | .jumpIfFalse =>
    operandTrail m pc v 0 ++ if jumps m pc v op then operandTrail m pc v 1 else []
  | .halt => []

end Trails

/-! ## Accesses in order -/

/-- A computation looks at the addresses of a list, one after another, for the instruction at
`pc`: it faults at the first of them that is out of range, and has a result if there is none. -/
structure Checks {α : Type} (m : Memory) (pc : Int) (addrs : List Int) (x : Except Fault α) :
    Prop where
  fault : ∀ addr, m.firstOutside? addrs = some addr →
    x = .error (.address (some pc) ⟨addr, m.size⟩)
  result : m.firstOutside? addrs = none → ∃ a, x = .ok a

variable {m : Memory} {pc : Int} {v : Cell} {ins : Instruction}

theorem checks_ok {α : Type} (m : Memory) (pc : Int) (a : α) : Checks m pc [] (.ok a) := by
  constructor
  · intro addr haddr
    cases haddr
  · intro _
    exact ⟨a, rfl⟩

/-- What is looked at next may depend on what has been found. -/
theorem Checks.bind {α β : Type} {addrs addrs' : List Int} {x : Except Fault α}
    {g : α → Except Fault β} (hx : Checks m pc addrs x)
    (hg : ∀ a, x = .ok a → Checks m pc addrs' (g a)) : Checks m pc (addrs ++ addrs') (x >>= g) := by
  cases hfirst : m.firstOutside? addrs with
  | some addr =>
    have hfault := hx.fault addr hfirst
    constructor
    · intro addr' haddr'
      rw [Memory.firstOutside?_append, hfirst] at haddr'
      cases haddr'
      rw [hfault]
      rfl
    · intro hnone
      rw [Memory.firstOutside?_append, hfirst] at hnone
      cases hnone
  | none =>
    -- the first part has a result, so all depends on the second one
    obtain ⟨a, ha⟩ := hx.result hfirst
    have hrest := hg a ha
    have happend : m.firstOutside? (addrs ++ addrs') = m.firstOutside? addrs' := by
      rw [Memory.firstOutside?_append, hfirst]
      rfl
    rw [ha]
    constructor
    · intro addr haddr
      exact hrest.fault addr (happend.symm.trans haddr)
    · intro hnone
      exact hrest.result (happend.symm.trans hnone)

/-- A look at the memory by the instruction at `pc`. -/
def look (m : Memory) (pc addr : Int) : Except Fault Cell :=
  (m.get addr).mapError (Fault.address (some pc))

theorem look_eq_ok_iff {addr : Int} {a : Cell} :
    look m pc addr = .ok a ↔ m.cell? addr = some a := by
  rw [Memory.cell?_eq_some_iff, look]
  cases m.get addr with
  | error e => simp [Except.mapError]
  | ok b => simp [Except.mapError]

/-- An access to a single address. -/
theorem checks_single {α : Type} {addr : Int} {x : Except Fault α}
    (hin : m.Has addr → ∃ a, x = .ok a)
    (hout : ¬ m.Has addr → x = .error (.address (some pc) ⟨addr, m.size⟩)) :
    Checks m pc [addr] x := by
  by_cases hhas : m.Has addr
  · have hnone : m.firstOutside? [addr] = none := by simp [Memory.firstOutside?, hhas]
    constructor
    · intro addr' haddr'
      rw [hnone] at haddr'
      cases haddr'
    · intro _
      exact hin hhas
  · have hsome : m.firstOutside? [addr] = some addr := by simp [Memory.firstOutside?, hhas]
    constructor
    · intro addr' haddr'
      rw [hsome] at haddr'
      cases haddr'
      exact hout hhas
    · intro hnone
      rw [hsome] at hnone
      cases hnone

theorem checks_look (m : Memory) (pc addr : Int) : Checks m pc [addr] (look m pc addr) := by
  apply checks_single
  · intro hhas
    have hcell : m.cell? addr ≠ none := fun hnone => Memory.cell?_eq_none_iff.1 hnone hhas
    obtain ⟨a, ha⟩ := Option.ne_none_iff_exists'.1 hcell
    exact ⟨a, look_eq_ok_iff.2 ha⟩
  · intro hhas
    rw [look, Memory.get_of_not_has hhas]
    rfl

/-- A look at a parameter, and then at the address that it holds. -/
theorem checks_through {α : Type} (k : Nat) {f : Cell → Except Fault α}
    (hf : ∀ a, Checks m pc [a.toInt] (f a)) :
    Checks m pc (destinationTrail m pc k) (look m pc (pc + 1 + k) >>= f) := by
  have hrest : ∀ a, look m pc (pc + 1 + k) = .ok a →
      Checks m pc ((m.cell? (pc + 1 + k)).toList.map Int64.toInt) (f a) := by
    intro a ha
    rw [look_eq_ok_iff.1 ha]
    exact hf a
  exact (checks_look m pc (pc + 1 + k)).bind hrest

/-! ## Operands and destinations -/

theorem mode_eq_position_iff (hv : ofCell? v = some ins) {k : Nat} (hk : k < ins.op.arity) :
    ins.mode k = .position ↔ modeDigit v k = 0 := by
  have himm := mode_eq_immediate_iff hv k
  cases hmode : ins.mode k with
  | position => simpa [hmode, hk] using himm
  | immediate => simpa [hmode, hk] using himm

theorem operand_eq (hv : ofCell? v = some ins) {k : Nat} (hk : k < ins.op.arity) :
    ins.operand m pc k =
      if modeDigit v k = 0 then look m pc (pc + 1 + k) >>= fun a => look m pc a.toInt
      else look m pc (pc + 1 + k) := by
  have hmode := mode_eq_position_iff hv hk
  by_cases hdigit : modeDigit v k = 0
  · rw [if_pos hdigit, operand, hmode.2 hdigit, Memory.read, look]
    cases m.get (pc + 1 + k) with
    | error e => rfl
    | ok a => rfl
  · have himm : ins.mode k = .immediate := by
      cases h : ins.mode k with
      | position => exact absurd (hmode.1 h) hdigit
      | immediate => rfl
    rw [if_neg hdigit, operand, himm, Memory.read, look]

theorem operand_eq_ok_iff (hv : ofCell? v = some ins) {k : Nat} (hk : k < ins.op.arity) {a : Cell} :
    ins.operand m pc k = .ok a ↔ operand? m pc v k = some a := by
  rw [operand_eq hv hk, operand?]
  by_cases hdigit : modeDigit v k = 0
  · rw [if_pos hdigit, if_pos hdigit, Option.bind_eq_some_iff]
    constructor
    · intro h
      obtain ⟨b, hb, ha⟩ := bind_eq_ok h
      exact ⟨b, look_eq_ok_iff.1 hb, look_eq_ok_iff.1 ha⟩
    · rintro ⟨b, hb, ha⟩
      rw [look_eq_ok_iff.2 hb]
      exact look_eq_ok_iff.2 ha
  · rw [if_neg hdigit, if_neg hdigit, look_eq_ok_iff]

theorem checks_operand (hv : ofCell? v = some ins) {k : Nat} (hk : k < ins.op.arity) :
    Checks m pc (operandTrail m pc v k) (ins.operand m pc k) := by
  rw [operand_eq hv hk, operandTrail]
  by_cases hdigit : modeDigit v k = 0
  · rw [if_pos hdigit, if_pos hdigit]
    exact checks_through k fun a => checks_look m pc a.toInt
  · rw [if_neg hdigit, if_neg hdigit]
    exact checks_look m pc (pc + 1 + k)

/-- The address of a destination is looked at, and then checked without a look at its cell. -/
theorem checks_destination (m : Memory) (pc : Int) (k : Nat) :
    Checks m pc (destinationTrail m pc k) (destination m pc k) := by
  have hindex : ∀ addr, Checks m pc [addr]
      (((m.index addr).map Fin.val).mapError (Fault.address (some pc))) := by
    intro addr
    apply checks_single
    · intro hhas
      simp only [Memory.index, hhas, dif_pos]
      exact ⟨_, rfl⟩
    · intro hhas
      simp only [Memory.index, hhas, dif_neg, not_false_eq_true]
      rfl
  have heq : destination m pc k = (look m pc (pc + 1 + k) >>= fun a =>
      ((m.index a.toInt).map Fin.val).mapError (Fault.address (some pc))) := by
    cases hget : m.get (pc + 1 + k) with
    | error e =>
      simp only [destination, look, hget]
      rfl
    | ok a =>
      simp only [destination, look, hget]
      show _ = ((m.index a.toInt).map Fin.val).mapError (Fault.address (some pc))
      cases m.index a.toInt <;> rfl
  rw [heq]
  exact checks_through k fun a => hindex a.toInt

/-! ## Instructions -/

theorem checks_combine (hv : ofCell? v = some ins) (hk : ins.op.arity = 3)
    (f : Cell → Cell → Cell) :
    Checks m pc (operandTrail m pc v 0 ++ (operandTrail m pc v 1 ++ destinationTrail m pc 2))
      (ins.combine m pc f) := by
  apply (checks_operand hv (by omega)).bind
  intro a _
  apply (checks_operand hv (by omega)).bind
  intro b _
  have hstore : ∀ i, destination m pc 2 = .ok i →
      Checks m pc [] (.ok (Action.store i (f a b) (pc + 4)) : Except Fault Action) :=
    fun i _ => checks_ok m pc _
  have hlast := (checks_destination m pc 2).bind hstore
  rwa [List.append_nil] at hlast

theorem checks_jump (hv : ofCell? v = some ins) (hk : ins.op.arity = 2) {p : Cell → Bool}
    {taken : Bool} (hp : ∀ a, operand? m pc v 0 = some a → taken = p a) :
    Checks m pc (operandTrail m pc v 0 ++ if taken then operandTrail m pc v 1 else [])
      (ins.jump m pc p) := by
  apply (checks_operand hv (by omega)).bind
  intro a ha
  rw [hp a ((operand_eq_ok_iff hv (by omega)).1 ha)]
  cases p a with
  | false => exact checks_ok m pc _
  | true =>
    have hlook : Checks m pc (operandTrail m pc v 1) (ins.operand m pc 1) :=
      checks_operand hv (by omega)
    have htarget := hlook.bind fun target _ => checks_ok m pc (Action.jump target.toInt)
    rwa [List.append_nil] at htarget

/-- An instruction goes through its trail. -/
theorem checks_action (hv : ofCell? v = some ins) :
    Checks m pc (trail m pc v ins.op) (ins.action m pc) := by
  unfold trail action
  cases hop : ins.op with
  | add | mul | lessThan | equals => exact checks_combine hv (by rw [hop]; rfl) _
  | input =>
    have h := (checks_destination m pc 0).bind
      fun i _ => checks_ok m pc (Action.receive i (pc + 2))
    rwa [List.append_nil] at h
  | output =>
    have hlook : Checks m pc (operandTrail m pc v 0) (ins.operand m pc 0) :=
      checks_operand hv (by rw [hop]; decide)
    have h := hlook.bind fun a _ => checks_ok m pc (Action.send a (pc + 2))
    rwa [List.append_nil] at h
  | jumpIfTrue | jumpIfFalse =>
    apply checks_jump hv (by rw [hop]; rfl)
    intro a ha
    simp only [jumps, ha, Option.any_some]
  | halt => exact checks_ok m pc _

/-! ## Cells that hold an instruction -/

theorem selectedBy_of_ofCell? (hv : ofCell? v = some ins) : ins.op.SelectedBy v := by
  obtain ⟨hpos, hop, -⟩ := ofCell?_eq_some_iff.1 hv
  have hcode := code_of_ofCode? hop
  refine ⟨hpos, ?_⟩
  omega

theorem ofCell?_of_selectedBy {op : Opcode} (h : op.SelectedBy v) :
    ∃ ins, ofCell? v = some ins ∧ ins.op = op := by
  obtain ⟨hpos, hcode⟩ := h
  have hcode' : v.toInt.toNat % 100 = op.code := by omega
  refine ⟨⟨op, modesOf op.arity (v.toInt.toNat / 100)⟩, ?_, rfl⟩
  rw [ofCell?_eq_some_iff]
  refine ⟨hpos, ?_, rfl⟩
  rw [hcode']
  exact Assembly.ofCode?_code op

/-- A cell holds no instruction if it is negative or its two lowest digits are no number of an
operation. -/
theorem ofCell?_eq_none_iff :
    ofCell? v = none ↔ v.toInt < 0 ∨ ∀ op : Opcode, (op.code : Int) ≠ v.toInt % 100 := by
  constructor
  · intro hnone
    by_cases hneg : v.toInt < 0
    · exact Or.inl hneg
    · right
      intro op hop
      obtain ⟨ins, hins, -⟩ := ofCell?_of_selectedBy ⟨Int.not_lt.1 hneg, hop⟩
      rw [hnone] at hins
      cases hins
  · intro h
    cases hv : ofCell? v with
    | none => rfl
    | some ins =>
      obtain ⟨hpos, hcode⟩ := selectedBy_of_ofCell? hv
      rcases h with hneg | hno
      · omega
      · exact absurd hcode (hno ins.op)

end Instruction

/-! ## The next instruction -/

section Plans

variable {m : Memory} {pc : Int} {v : Cell}

theorem plan_of_not_has (h : ¬ m.Has pc) :
    plan m pc = .error (.address (some pc) ⟨pc, m.size⟩) := by
  simp only [plan, Instruction.decode, Memory.get_of_not_has h]

theorem decode_of_cell? (hc : m.cell? pc = some v) {ins : Instruction}
    (hv : Instruction.ofCell? v = some ins) : Instruction.decode m pc = .ok ins := by
  simp only [Instruction.decode, Memory.cell?_eq_some_iff.1 hc, hv]

theorem plan_of_ofCell?_none (hc : m.cell? pc = some v) (hv : Instruction.ofCell? v = none) :
    plan m pc = .error (.opcode pc v) := by
  simp only [plan, Instruction.decode, Memory.cell?_eq_some_iff.1 hc, hv]

/-- What is planned for a cell that selects an operation goes through the trail of the cell. -/
theorem checks_plan (hc : m.cell? pc = some v) {op : Opcode} (hop : op.SelectedBy v) :
    Instruction.Checks m pc (Instruction.trail m pc v op) (plan m pc) := by
  obtain ⟨ins, hv, rfl⟩ := Instruction.ofCell?_of_selectedBy hop
  simp only [plan, decode_of_cell? hc hv]
  exact Instruction.checks_action hv

end Plans

namespace Machine

open Instruction

variable {m : Machine}

theorem not_stopped_of_status (hs : m.status = .running ∨ m.status = .waiting) : ¬ m.Stopped := by
  rcases hs with hs | hs <;> simp [Stopped, hs]

theorem error?_step_of_error (hs : ¬ m.Stopped) (t : PipeTable) {cause : Fault}
    (hp : plan m.memory m.pc = .error cause) : (m.step t).1.error? = some ⟨m.name, cause⟩ := by
  have hs' : ¬ (m.status = .halted ∨ m.status = .faulted) := hs
  simp [step, hs', hp, stop, error?]

theorem error?_step_of_ok (hs : ¬ m.Stopped) (t : PipeTable) {action : Action}
    (hp : plan m.memory m.pc = .ok action) : (m.step t).1.error? = none := by
  have hs' : ¬ (m.status = .halted ∨ m.status = .faulted) := hs
  simp only [step, hs', if_false, hp]
  simp [error?, status_perform m t action]

/-- What the step of a machine that has not stopped reports, one constructor for each reason. -/
inductive Reports (m : Machine) : Option MachineFault → Prop where
  | lost : ¬ m.memory.Has m.pc →
      Reports m (some ⟨m.name, .address (some m.pc) ⟨m.pc, m.memory.size⟩⟩)
  | unknown {v : Cell} : m.memory.cell? m.pc = some v →
      (v.toInt < 0 ∨ ∀ op : Opcode, (op.code : Int) ≠ v.toInt % 100) →
      Reports m (some ⟨m.name, .opcode m.pc v⟩)
  | stray {v : Cell} {op : Opcode} {addr : Int} : m.memory.cell? m.pc = some v →
      op.SelectedBy v → m.memory.firstOutside? (trail m.memory m.pc v op) = some addr →
      Reports m (some ⟨m.name, .address (some m.pc) ⟨addr, m.memory.size⟩⟩)
  | fine {v : Cell} {op : Opcode} : m.memory.cell? m.pc = some v → op.SelectedBy v →
      m.memory.firstOutside? (trail m.memory m.pc v op) = none → Reports m none

theorem exists_reports (m : Machine) : ∃ e, Reports m e := by
  cases hc : m.memory.cell? m.pc with
  | none => exact ⟨_, .lost (Memory.cell?_eq_none_iff.1 hc)⟩
  | some v =>
    cases hv : ofCell? v with
    | none => exact ⟨_, .unknown hc (ofCell?_eq_none_iff.1 hv)⟩
    | some ins =>
      have hop := selectedBy_of_ofCell? hv
      cases hfirst : m.memory.firstOutside? (trail m.memory m.pc v ins.op) with
      | none => exact ⟨_, .fine hc hop hfirst⟩
      | some addr => exact ⟨_, .stray hc hop hfirst⟩

theorem Reports.error?_step {e : Option MachineFault} (h : Reports m e) (hs : ¬ m.Stopped)
    (t : PipeTable) : (m.step t).1.error? = e := by
  cases h with
  | lost hhas => exact error?_step_of_error hs t (plan_of_not_has hhas)
  | unknown hc hv =>
    exact error?_step_of_error hs t (plan_of_ofCell?_none hc (ofCell?_eq_none_iff.2 hv))
  | stray hc hop hfirst =>
    exact error?_step_of_error hs t ((checks_plan hc hop).fault _ hfirst)
  | fine hc hop hfirst =>
    obtain ⟨action, hp⟩ := (checks_plan hc hop).result hfirst
    exact error?_step_of_ok hs t hp

theorem error?_step_iff (hs : ¬ m.Stopped) (t : PipeTable) {e : Option MachineFault} :
    (m.step t).1.error? = e ↔ Reports m e := by
  constructor
  · rintro rfl
    obtain ⟨e, he⟩ := m.exists_reports
    rwa [he.error?_step hs t]
  · intro h
    exact h.error?_step hs t

/-- The step of a running or waiting machine reports that a cell holds no instruction exactly
if the program counter is in range and the cell there is negative or its two lowest digits are
no number of an operation. It reports an address exactly if the program counter is out of
range, or if some address on the trail of the instruction is; then it is the program counter,
or the first such address. In all other cases it reports nothing. -/
theorem step_faults_iff (hs : m.status = .running ∨ m.status = .waiting) (t : PipeTable) :
    (∀ name pc v, (m.step t).1.error? = some ⟨name, .opcode pc v⟩ ↔
      name = m.name ∧ pc = m.pc ∧ m.memory.cell? m.pc = some v ∧
        (v.toInt < 0 ∨ ∀ op : Opcode, (op.code : Int) ≠ v.toInt % 100)) ∧
    (∀ name site cause, (m.step t).1.error? = some ⟨name, .address site cause⟩ ↔
      name = m.name ∧ site = some m.pc ∧ cause.size = m.memory.size ∧
        (¬ m.memory.Has m.pc ∧ cause.addr = m.pc ∨
          ∃ v op, m.memory.cell? m.pc = some v ∧ Opcode.SelectedBy op v ∧
            m.memory.firstOutside? (trail m.memory m.pc v op) = some cause.addr)) ∧
    ((m.step t).1.error? = none ↔
      ∃ v op, m.memory.cell? m.pc = some v ∧ Opcode.SelectedBy op v ∧
        ∀ addr ∈ trail m.memory m.pc v op, m.memory.Has addr) := by
  have hgoes := not_stopped_of_status hs
  refine ⟨?_, ?_, ?_⟩
  · intro name pc v
    rw [error?_step_iff hgoes]
    constructor
    · intro h
      cases h with
      | unknown hc hv => exact ⟨rfl, rfl, hc, hv⟩
    · rintro ⟨rfl, rfl, hc, hv⟩
      exact .unknown hc hv
  · rintro name site ⟨addr, size⟩
    rw [error?_step_iff hgoes]
    constructor
    · intro h
      cases h with
      | lost hhas => exact ⟨rfl, rfl, rfl, Or.inl ⟨hhas, rfl⟩⟩
      | stray hc hop hfirst => exact ⟨rfl, rfl, rfl, Or.inr ⟨_, _, hc, hop, hfirst⟩⟩
    · rintro ⟨rfl, rfl, rfl, ⟨hhas, rfl⟩ | ⟨v, op, hc, hop, hfirst⟩⟩
      · exact .lost hhas
      · exact .stray hc hop hfirst
  · rw [error?_step_iff hgoes]
    constructor
    · intro h
      cases h with
      | fine hc hop hfirst => exact ⟨_, _, hc, hop, Memory.firstOutside?_eq_none_iff.1 hfirst⟩
    · rintro ⟨v, op, hc, hop, hall⟩
      exact .fine hc hop (Memory.firstOutside?_eq_none_iff.2 hall)

/-- A jump whose condition is read through an address, and whose target lies past the end. -/
def strayJumper : Machine :=
  .new "jumper" false ⟨#[5, 3, 9, 7]⟩ 0 1

/-- The jump is taken, so its target is looked at, and the fault is there. -/
theorem strayJumper_fault :
    strayJumper.status = .running ∧
      trail strayJumper.memory strayJumper.pc 5 .jumpIfTrue = [1, 3, 2, 9] ∧
      (strayJumper.step ⟨#[]⟩).1.error? = some ⟨"jumper", .address (some 0) ⟨9, 4⟩⟩ := by
  have htrail : trail strayJumper.memory strayJumper.pc 5 .jumpIfTrue = [1, 3, 2, 9] := by
    decide +kernel
  refine ⟨rfl, htrail, ?_⟩
  obtain ⟨-, haddress, -⟩ := step_faults_iff (Or.inl rfl : strayJumper.status = .running ∨ _) ⟨#[]⟩
  apply (haddress _ _ _).2
  refine ⟨rfl, rfl, rfl, Or.inr ⟨5, .jumpIfTrue, by decide +kernel, by decide +kernel, ?_⟩⟩
  rw [htrail]
  decide +kernel

end Machine

end CellMachine
