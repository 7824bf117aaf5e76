import CellMachine.Proofs.Accesses
import CellMachine.Proofs.Sweep
import CellMachine.Proofs.Trace

/-!
# What a step changes

A step that executes an instruction changes little: one cell of the memory at most, the head
of one queue or the tail of another, the count and the program counter. Which of these, and
where, is said by the operation that the cell at the program counter selects, and by nothing
else (`Machine.step_effect`).

`Instruction.Does` says what is planned for each kind of operation. It gives the next address by
the number of parameters, where the definition of an instruction has a plain number, so this is
where the two are compared. A listing counts parameters as well, so it goes on at the same
address (`Machine.next_of_selectedBy`).
-/

set_option autoImplicit false

namespace CellMachine

namespace Instruction

variable {m : Memory} {pc : Int} {v : Cell} {ins : Instruction}

/-- What is planned for the cell `v` at `pc`, which selects an operation. An operation with two
parameters is a jump, and one with three stores. -/
inductive Does (m : Memory) (pc : Int) (v : Cell) (op : Opcode) : Action → Prop where
  | stores {i : Nat} {x : Cell} {next : Int} : op.arity = 3 → destination m pc 2 = .ok i →
      next = pc + 1 + op.arity → Does m pc v op (.store i x next)
  | receives {i : Nat} {next : Int} : op = .input → destination m pc 0 = .ok i →
      next = pc + 1 + op.arity → Does m pc v op (.receive i next)
  | sends {x : Cell} {next : Int} : op = .output → next = pc + 1 + op.arity →
      Does m pc v op (.send x next)
  | jumps {x : Cell} : op.arity = 2 → jumps m pc v op = true → operand? m pc v 1 = some x →
      Does m pc v op (.jump x.toInt)
  | passes {next : Int} : op.arity = 2 → jumps m pc v op = false → next = pc + 1 + op.arity →
      Does m pc v op (.jump next)
  | halts : op = .halt → Does m pc v op .halt

theorem ne_of_one_lt_arity {op : Opcode} (h : 1 < op.arity) :
    op ≠ .input ∧ op ≠ .output ∧ op ≠ .halt := by
  refine ⟨?_, ?_, ?_⟩ <;> rintro rfl <;> exact absurd h (by decide)

theorem jumps_eq_false {op : Opcode} (h : op.arity ≠ 2) : jumps m pc v op = false := by
  cases op with
  | jumpIfTrue | jumpIfFalse => exact absurd rfl h
  | add | mul | input | output | lessThan | equals | halt => rfl

theorem isDestination_two {op : Opcode} (h : op.arity = 3) : op.isDestination 2 = true := by
  cases op with
  | add | mul | lessThan | equals => rfl
  | input | output | jumpIfTrue | jumpIfFalse | halt => exact absurd h (by decide)

theorem does_combine (harity : ins.op.arity = 3) {f : Cell → Cell → Cell} {planned : Action}
    (h : ins.combine m pc f = .ok planned) : Does m pc v ins.op planned := by
  obtain ⟨a, -, h⟩ := bind_eq_ok h
  obtain ⟨b, -, h⟩ := bind_eq_ok h
  obtain ⟨i, hi, h⟩ := bind_eq_ok h
  cases h
  exact .stores harity hi (by omega)

theorem does_jump (hv : ofCell? v = some ins) (harity : ins.op.arity = 2) {p : Cell → Bool}
    (hp : ∀ a, operand? m pc v 0 = some a → jumps m pc v ins.op = p a) {planned : Action}
    (h : ins.jump m pc p = .ok planned) : Does m pc v ins.op planned := by
  obtain ⟨a, ha, h⟩ := bind_eq_ok h
  have htaken := hp a ((operand_eq_ok_iff hv (by omega)).1 ha)
  cases hpa : p a with
  | true =>
    simp only [hpa, if_true] at h
    obtain ⟨x, hx, h⟩ := bind_eq_ok h
    cases h
    exact .jumps harity (htaken.trans hpa) ((operand_eq_ok_iff hv (by omega)).1 hx)
  | false =>
    simp only [hpa] at h
    cases h
    exact .passes harity (htaken.trans hpa) (by omega)

theorem does_action (hv : ofCell? v = some ins) {planned : Action}
    (h : ins.action m pc = .ok planned) : Does m pc v ins.op planned := by
  unfold action at h
  cases hop : ins.op with
  | add | mul | lessThan | equals =>
    simp only [hop] at h
    rw [← hop]
    exact does_combine (by rw [hop]; rfl) h
  | input =>
    simp only [hop] at h
    obtain ⟨i, hi, h⟩ := bind_eq_ok h
    cases h
    exact .receives rfl hi (Int.add_assoc pc 1 1).symm
  | output =>
    simp only [hop] at h
    obtain ⟨x, -, h⟩ := bind_eq_ok h
    cases h
    exact .sends rfl (Int.add_assoc pc 1 1).symm
  | jumpIfTrue | jumpIfFalse =>
    simp only [hop] at h
    rw [← hop]
    refine does_jump hv (by rw [hop]; rfl) ?_ h
    intro a ha
    simp only [hop, jumps, ha, Option.any_some]
  | halt =>
    simp only [hop] at h
    cases h
    exact .halts rfl

theorem does_of_plan {planned : Action} (h : plan m pc = .ok planned) :
    ∃ v op, m.cell? pc = some v ∧ Opcode.SelectedBy op v ∧ Does m pc v op planned := by
  obtain ⟨ins, hd, ha⟩ := decode_of_plan h
  cases hc : m.cell? pc with
  | none =>
    have hlost := plan_of_not_has (Memory.cell?_eq_none_iff.1 hc)
    rw [h] at hlost
    cases hlost
  | some v =>
    cases hv : ofCell? v with
    | none =>
      have hunknown := plan_of_ofCell?_none hc hv
      rw [h] at hunknown
      cases hunknown
    | some ins' =>
      have hsame := decode_of_cell? hc hv
      rw [hd] at hsame
      cases hsame
      exact ⟨v, ins.op, rfl, selectedBy_of_ofCell? hv, does_action hv ha⟩

/-- A destination is the cell that its parameter names. -/
theorem cell?_of_destination {k i : Nat} (h : destination m pc k = .ok i) :
    ∃ p, m.cell? (pc + 1 + k) = some p ∧ p.toInt = i := by
  unfold destination at h
  cases hg : m.get (pc + 1 + k) with
  | error e =>
    simp only [hg] at h
    cases h
  | ok p =>
    refine ⟨p, Memory.cell?_eq_some_iff.2 hg, ?_⟩
    by_cases hhas : m.Has p.toInt
    · simp only [hg, Memory.index, hhas, dif_pos] at h
      cases h
      exact (Int.toNat_of_nonneg hhas.1).symm
    · simp only [hg, Memory.index, hhas, dif_neg, not_false_eq_true] at h
      cases h

end Instruction

namespace Machine

open Instruction

/-- What becomes of memory and program counter when a machine executes the cell `v`, which
selects an operation. -/
structure Proceeds (m after : Machine) (v : Cell) (op : Opcode) : Prop where
  /-- Only the cell that a destination names is another one. -/
  memory : ∀ addr, after.memory.cell? addr ≠ m.memory.cell? addr →
    ∃ k p, op.isDestination k = true ∧ m.memory.cell? (m.pc + 1 + k) = some p ∧ addr = p.toInt
  /-- A halt instruction is not left. -/
  halts : op = .halt → after.pc = m.pc
  /-- A jump that is taken goes to its second operand. -/
  jumps : jumps m.memory m.pc v op = true →
    ∃ x, operand? m.memory m.pc v 1 = some x ∧ after.pc = x.toInt
  /-- Otherwise the machine goes on behind the parameters. -/
  passes : op ≠ .halt → Instruction.jumps m.memory m.pc v op = false →
    after.pc = m.pc + 1 + op.arity

/-- What a step of the machine changes when it executes the cell `v`, which selects an
operation. -/
structure StepEffect (m : Machine) (t : PipeTable) (v : Cell) (op : Opcode) : Prop
    extends Proceeds m (m.step t).1 v op where
  /-- The memory keeps its size. -/
  size : (m.step t).1.memory.size = m.memory.size
  /-- The instruction is counted. -/
  count : (m.step t).1.count = m.count + 1
  /-- Input instructions, and no others, take the head of the input queue. -/
  takes : m.Wired t →
    ((∃ x, (t.get m.input).queue = x :: ((m.step t).2.get m.input).queue) ↔ op = .input) ∧
    (op ≠ .input → ((m.step t).2.get m.input).queue = (t.get m.input).queue)
  /-- Output instructions, and no others, add a value behind the output queue. -/
  sends : m.Wired t →
    ((∃ x, ((m.step t).2.get m.output).queue = (t.get m.output).queue ++ [x]) ↔ op = .output) ∧
    (op ≠ .output → ((m.step t).2.get m.output).queue = (t.get m.output).queue)
  /-- Other pipes are left alone. -/
  others : ∀ i, m.input ≠ i → m.output ≠ i → (m.step t).2.get i = t.get i
  /-- Where the machine goes on after an instruction, a listing of its memory does too, if the
  parameters are all there. -/
  listed : m.pc + op.arity < m.memory.size → ∀ {σ : Type} [Destination σ] (dest : σ),
    (Listing.writeStatement m.memory m.pc dest).2.next = m.pc + 1 + op.arity

variable {m : Machine} {t : PipeTable} {op : Opcode}

/-- A store changes one cell at most. -/
theorem eq_of_cell?_store_ne {i : Nat} {x : Cell} {addr : Int}
    (h : (m.store i x).memory.cell? addr ≠ m.memory.cell? addr) : addr = i := by
  apply Classical.byContradiction
  intro hne
  apply h
  by_cases hneg : addr < 0
  · simp only [Memory.cell?, hneg, if_true]
  · have hindex : i ≠ addr.toNat := by omega
    simp [Memory.cell?, hneg, store, Memory.toList, hindex]

theorem queue_input_effect (hw : m.Wired t)
    (h : (m.react (t.get m.input).queue.head?).takes = true ↔ op = .input) :
    ((∃ x, (t.get m.input).queue = x :: ((m.step t).2.get m.input).queue) ↔ op = .input) ∧
      (op ≠ .input → ((m.step t).2.get m.input).queue = (t.get m.input).queue) := by
  rw [queue_step_input hw, Ne, ← h]
  cases htakes : (m.react (t.get m.input).queue.head?).takes with
  | true =>
    have hhead := (m.reacts_react _).head_ne_none htakes
    obtain ⟨x, hx⟩ := Option.ne_none_iff_exists'.1 hhead
    obtain ⟨rest, hq⟩ := List.head?_eq_some_iff.1 hx
    simp [hq]
  | false => simp

theorem queue_output_effect (hw : m.Wired t)
    (h : (m.react (t.get m.input).queue.head?).sends.isSome = true ↔ op = .output) :
    ((∃ x, ((m.step t).2.get m.output).queue = (t.get m.output).queue ++ [x]) ↔ op = .output) ∧
      (op ≠ .output → ((m.step t).2.get m.output).queue = (t.get m.output).queue) := by
  rw [get_step_output hw, Pipe.queue_pushAll, Ne, ← h]
  cases (m.react (t.get m.input).queue.head?).sends with
  | some x => simp
  | none => simp

/-- A listing goes on behind the parameters of an instruction that has them all. -/
theorem next_of_selectedBy {σ : Type} [Destination σ] {m : Memory} {pc : Int} {v : Cell}
    (hc : m.cell? pc = some v) (hop : op.SelectedBy v) (hroom : pc + op.arity < m.size) (dest : σ) :
    (Listing.writeStatement m pc dest).2.next = pc + 1 + op.arity := by
  have hhas : m.Has pc := by
    apply Classical.byContradiction
    intro hno
    rw [Memory.cell?_eq_none_iff.2 hno] at hc
    cases hc
  obtain ⟨n, rfl⟩ := Int.eq_ofNat_of_zero_le hhas.1
  have hlt : n < m.size := Int.ofNat_lt.1 hhas.2
  obtain ⟨ins, hv, rfl⟩ := ofCell?_of_selectedBy hop
  have hcell : m.cells.getD n 0 = v := by
    have hget := Memory.cell?_eq_some_iff.1 hc
    rw [Listing.get_of_lt hlt] at hget
    exact Except.ok.inj hget
  have hshown : Listing.shown? m n = some ins := by
    rw [Listing.shown?_eq_some_iff hlt, hcell]
    exact ⟨hv, by omega⟩
  have hsize : Listing.statementSize m n = ins.op.arity + 1 := by
    simp only [Listing.statementSize, hshown]
  rw [Listing.next_writeStatement hlt, hsize]
  omega

/-! ## Reactions and steps -/

/-- The reaction of the machine is the one that the cell `v` asks for, which selects an
operation. -/
structure Follows (m : Machine) (v : Cell) (op : Opcode) (r : Reaction) : Prop
    extends Proceeds m r.after v op where
  takes : r.takes = true ↔ op = .input
  sends : r.sends.isSome = true ↔ op = .output

/-- What a store at the destination `k` changes. -/
theorem memory_of_destination {i k : Nat} {x : Cell} (hk : op.isDestination k = true)
    (hi : destination m.memory m.pc k = .ok i) {addr : Int}
    (hne : (m.store i x).memory.cell? addr ≠ m.memory.cell? addr) :
    ∃ k p, op.isDestination k = true ∧ m.memory.cell? (m.pc + 1 + k) = some p ∧ addr = p.toInt := by
  obtain ⟨p, hp, hpi⟩ := cell?_of_destination hi
  refine ⟨k, p, hk, hp, ?_⟩
  rw [hpi]
  exact eq_of_cell?_store_ne hne

/-- With more than one parameter, a value is stored or a jump is made, and that is all. -/
theorem follows_of_one_lt_arity {v : Cell} {r : Reaction} (harity : 1 < op.arity)
    (htakes : r.takes = false) (hsends : r.sends = none)
    (hmemory : ∀ addr, r.after.memory.cell? addr ≠ m.memory.cell? addr →
      ∃ k p, op.isDestination k = true ∧ m.memory.cell? (m.pc + 1 + k) = some p ∧ addr = p.toInt)
    (hjumps : Instruction.jumps m.memory m.pc v op = true →
      ∃ x, operand? m.memory m.pc v 1 = some x ∧ r.after.pc = x.toInt)
    (hpasses : Instruction.jumps m.memory m.pc v op = false →
      r.after.pc = m.pc + 1 + op.arity) :
    m.Follows v op r := by
  obtain ⟨hin, hout, hhalt⟩ := ne_of_one_lt_arity harity
  exact
    { memory := hmemory
      takes := by simp [htakes, hin]
      sends := by simp [hsends, hout]
      halts := fun h => absurd h hhalt
      jumps := hjumps
      passes := fun _ h => hpasses h }

theorem follows_of_reacts {head : Option Cell} {r : Reaction} (hr : m.Reacts head r)
    (hs : ¬ m.Stopped) (hfaulted : r.after.status ≠ .faulted)
    (hwaiting : r.after.status ≠ .waiting) :
    ∃ v op, m.memory.cell? m.pc = some v ∧ Opcode.SelectedBy op v ∧ m.Follows v op r := by
  cases hr with
  | stopped _ hstopped => exact absurd hstopped hs
  | faults => exact absurd rfl hfaulted
  | waits => exact absurd rfl hwaiting
  | stores _ _ hp =>
    obtain ⟨v, op, hc, hop, hdoes⟩ := does_of_plan hp
    refine ⟨v, op, hc, hop, ?_⟩
    cases hdoes with
    | stores harity hi hnext =>
      have hstays : Instruction.jumps m.memory m.pc v op = false := jumps_eq_false (by omega)
      apply follows_of_one_lt_arity (by omega) rfl rfl
      · exact fun addr hne => memory_of_destination (isDestination_two harity) hi hne
      · intro h
        rw [hstays] at h
        cases h
      · exact fun _ => hnext
  | takes _ hp =>
    obtain ⟨v, op, hc, hop, hdoes⟩ := does_of_plan hp
    refine ⟨v, op, hc, hop, ?_⟩
    cases hdoes with
    | receives hin hi hnext =>
      subst hin
      exact
        { memory := fun addr hne => memory_of_destination rfl hi hne
          takes := by simp
          sends := by simp
          halts := by simp
          jumps := by simp [Instruction.jumps]
          passes := fun _ _ => hnext }
  | sends _ _ hp =>
    obtain ⟨v, op, hc, hop, hdoes⟩ := does_of_plan hp
    refine ⟨v, op, hc, hop, ?_⟩
    cases hdoes with
    | sends hout hnext =>
      subst hout
      exact
        { memory := fun addr hne => absurd rfl hne
          takes := by simp
          sends := by simp
          halts := by simp
          jumps := by simp [Instruction.jumps]
          passes := fun _ _ => hnext }
  | jumps _ _ hp =>
    obtain ⟨v, op, hc, hop, hdoes⟩ := does_of_plan hp
    refine ⟨v, op, hc, hop, ?_⟩
    cases hdoes with
    | jumps harity htaken hx =>
      apply follows_of_one_lt_arity (by omega) rfl rfl
      · exact fun addr hne => absurd rfl hne
      · exact fun _ => ⟨_, hx, rfl⟩
      · intro h
        rw [htaken] at h
        cases h
    | passes harity hstays hnext =>
      apply follows_of_one_lt_arity (by omega) rfl rfl
      · exact fun addr hne => absurd rfl hne
      · intro h
        rw [hstays] at h
        cases h
      · exact fun _ => hnext
  | halts _ _ hp =>
    obtain ⟨v, op, hc, hop, hdoes⟩ := does_of_plan hp
    refine ⟨v, op, hc, hop, ?_⟩
    cases hdoes with
    | halts hhalt =>
      subst hhalt
      exact
        { memory := fun addr hne => absurd rfl hne
          takes := by simp
          sends := by simp
          halts := fun _ => rfl
          jumps := by simp [Instruction.jumps]
          passes := fun h => absurd rfl h }

/-- A step that executes an instruction finds a cell that selects an operation at the program
counter, and changes what this operation changes. -/
theorem step_effect (h : m.Executes t) :
    ∃ v op, m.memory.cell? m.pc = some v ∧ Opcode.SelectedBy op v ∧ m.StepEffect t v op := by
  have hr := m.reacts_react (t.get m.input).queue.head?
  have hafter : (m.step t).1 = (m.react (t.get m.input).queue.head?).after := by rw [step_eq]
  obtain ⟨hs, hfaulted, hwaiting⟩ := id h
  rw [hafter] at hfaulted hwaiting
  obtain ⟨v, op, hc, hop, hfollows⟩ := follows_of_reacts hr hs hfaulted hwaiting
  refine ⟨v, op, hc, hop, ?_⟩
  constructor
  case toProceeds =>
    rw [hafter]
    exact hfollows.toProceeds
  case size =>
    rw [hafter]
    exact hr.memory_size
  case count => rw [count_step, if_pos h]
  case takes => exact fun hw => queue_input_effect hw hfollows.takes
  case sends => exact fun hw => queue_output_effect hw hfollows.sends
  case others => exact fun i hin hout => get_step_of_ne hin hout
  case listed => exact fun hroom _ _ dest => next_of_selectedBy hc hop hroom dest

/-- A machine that adds two numbers into the cell of its own instruction. -/
def overwriter : Machine :=
  .new "overwriter" false ⟨#[1101, 2, 3, 0]⟩ 0 1

/-- The step changes the cell that was executed and no other, and where the machine goes on is
read off the memory as it was before. -/
theorem overwriter_effect :
    overwriter.Executes ⟨#[.empty, .empty]⟩ ∧
      ((overwriter.step ⟨#[.empty, .empty]⟩).1.memory.cell? 0 = some 5 ∧
        ∀ addr, addr ≠ 0 →
          (overwriter.step ⟨#[.empty, .empty]⟩).1.memory.cell? addr =
            overwriter.memory.cell? addr) ∧
      (overwriter.step ⟨#[.empty, .empty]⟩).1.pc = 4 ∧
      (Listing.writeStatement overwriter.memory 0 Sink.unbounded).2.next = 4 := by
  have hexec : overwriter.Executes ⟨#[.empty, .empty]⟩ := by decide +kernel
  obtain ⟨v, op, hc, hop, heffect⟩ := step_effect hexec
  have hv : v = 1101 := by
    have hcell : overwriter.memory.cell? overwriter.pc = some 1101 := by decide +kernel
    rw [hcell] at hc
    exact (Option.some.inj hc).symm
  subst hv
  have hadd : op = .add := by
    cases op with
    | add => rfl
    | mul | input | output | jumpIfTrue | jumpIfFalse | lessThan | equals | halt =>
      exact absurd hop (by decide +kernel)
  subst hadd
  refine ⟨hexec, ⟨by decide +kernel, ?_⟩, ?_, ?_⟩
  · intro addr haddr
    apply Classical.byContradiction
    intro hne
    obtain ⟨k, p, hk, hp, rfl⟩ := heffect.memory addr hne
    -- the destination is the third parameter, which holds zero
    have hk2 : k = 2 := by simpa [Opcode.isDestination] using hk
    subst hk2
    have hzero : overwriter.memory.cell? (overwriter.pc + 1 + (2 : Nat)) = some 0 := by
      decide +kernel
    rw [hzero] at hp
    cases hp
    exact haddr rfl
  · exact heffect.passes (by decide) rfl
  · exact heffect.listed (by decide +kernel) Sink.unbounded

end Machine

end CellMachine
