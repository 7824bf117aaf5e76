import CellMachine.Proofs.Accesses
import CellMachine.Proofs.Assembly.Roundtrip

/-!
# The cells of an instruction

A cell holds an instruction exactly if its decimal digits say so: the two lowest are the
number of the operation, and each of the next ones tells the mode of a parameter
(`Instruction.ofCell?_iff_digits`). Only the operation and the digits that are zero matter,
so two cells that agree in these hold the same instruction. The least of all cells that hold
an instruction is the one that the assembler writes for it
(`Instruction.decode_reads_digits`).
-/

set_option autoImplicit false

namespace CellMachine

theorem Mode.eq_of_immediate_iff {a b : Mode} (h : a = .immediate ↔ b = .immediate) : a = b := by
  cases a with
  | immediate => exact (h.1 rfl).symm
  | position =>
    cases b with
    | position => rfl
    | immediate => exact h.2 rfl

namespace Instruction

variable {m : Memory} {pc : Int} {v v' : Cell} {ins ins' : Instruction}

/-! ## Digits -/

@[simp] theorem length_modesOf (k n : Nat) : (modesOf k n).length = k := by
  induction k generalizing n with
  | zero => rfl
  | succ k ih => rw [modesOf_succ, List.length_cons, ih]

/-- An instruction with a mode for each parameter is known by its operation and by the
parameters that are immediate. -/
theorem ext_mode (hop : ins.op = ins'.op) (hlen : ins.modes.length = ins.op.arity)
    (hlen' : ins'.modes.length = ins'.op.arity)
    (hmode : ∀ k < ins.op.arity, (ins.mode k = .immediate ↔ ins'.mode k = .immediate)) :
    ins = ins' := by
  obtain ⟨op, modes⟩ := ins
  obtain ⟨op', modes'⟩ := ins'
  obtain rfl : op = op' := hop
  have hmodes : modes = modes' := by
    apply List.ext_getElem (hlen.trans hlen'.symm)
    intro k hk hk'
    have hiff := hmode k (hlen ▸ hk)
    simp only [mode, List.getD_eq_getElem?_getD, List.getElem?_eq_getElem hk,
      List.getElem?_eq_getElem hk', Option.getD_some] at hiff
    exact Mode.eq_of_immediate_iff hiff
  rw [hmodes]

theorem digits_of_ofCell? (h : ofCell? v = some ins) :
    ins.op.SelectedBy v ∧ ins.modes.length = ins.op.arity ∧
      ∀ k < ins.op.arity, (ins.mode k = .immediate ↔ modeDigit v k ≠ 0) := by
  refine ⟨selectedBy_of_ofCell? h, ?_, ?_⟩
  · rw [(ofCell?_eq_some_iff.1 h).2.2, length_modesOf]
  · intro k hk
    rw [mode_eq_immediate_iff h, and_iff_right hk]

/-- A cell holds an instruction exactly if the instruction is what its digits say. -/
theorem ofCell?_iff_digits :
    ofCell? v = some ins ↔
      ins.op.SelectedBy v ∧ ins.modes.length = ins.op.arity ∧
        ∀ k < ins.op.arity, (ins.mode k = .immediate ↔ modeDigit v k ≠ 0) := by
  constructor
  · exact digits_of_ofCell?
  · rintro ⟨hop, hlen, hmode⟩
    -- the operation alone decides that there is an instruction, and the digits which one
    obtain ⟨found, hfound, hsame⟩ := ofCell?_of_selectedBy hop
    obtain ⟨-, hlen', hmode'⟩ := digits_of_ofCell? hfound
    rw [hfound, Option.some.injEq]
    refine ext_mode hsame hlen' hlen ?_
    intro k hk
    rw [hmode' k hk, hmode k (hsame ▸ hk)]

theorem mode_of_arity_le (h : ofCell? v = some ins) {k : Nat} (hk : ins.op.arity ≤ k) :
    ins.mode k = .position := by
  have hlen := (digits_of_ofCell? h).2.1
  rw [mode, List.getD_eq_getElem?_getD, List.getElem?_eq_none (hlen ▸ hk), Option.getD_none]

/-! ## Cells that hold the same instruction -/

/-- A cell selects an operation exactly if its remainder by 100 is the number of the
operation. The remainder of a negative cell is not positive, so it selects none. -/
theorem selectedBy_iff_tmod {op : Opcode} : op.SelectedBy v ↔ v.toInt.tmod 100 = op.code := by
  have hpos : 0 < op.code := by
    cases op <;> decide
  by_cases hv : 0 ≤ v.toInt
  · rw [Opcode.SelectedBy, and_iff_right hv, Int.tmod_eq_emod_of_nonneg hv, eq_comm]
  · have hrem : 0 ≤ (-v.toInt).tmod 100 := Int.tmod_nonneg 100 (by omega)
    rw [Int.neg_tmod] at hrem
    constructor
    · intro h
      exact absurd h.1 hv
    · intro h
      omega

/-- If one cell holds an instruction, another one holds it exactly if it has the same
operation and the same zeros among the mode digits. -/
theorem ofCell?_iff_same_digits (h : ofCell? v = some ins) :
    ofCell? v' = some ins ↔ v'.toInt.tmod 100 = v.toInt.tmod 100 ∧
      ∀ k < ins.op.arity, (modeDigit v' k = 0 ↔ modeDigit v k = 0) := by
  obtain ⟨hop, hlen, hmode⟩ := digits_of_ofCell? h
  rw [ofCell?_iff_digits, selectedBy_iff_tmod, selectedBy_iff_tmod.1 hop, and_iff_right hlen]
  refine and_congr_right fun _ => forall₂_congr fun k hk => ?_
  rw [hmode k hk, ne_eq, ne_eq, not_iff_not]
  exact Iff.comm

theorem decode_eq_ok_iff (hv : m.get pc = .ok v) : decode m pc = .ok ins ↔ ofCell? v = some ins := by
  simp only [decode, hv]
  cases ofCell? v with
  | none => simp
  | some found => simp

end Instruction

/-! ## What the assembler writes -/

namespace Assembly

/-- The cell of an instruction with its operands is the number of the instruction. -/
theorem headCell_eq_number {op : Opcode} {operands : List Operand}
    (h : operands.length = op.arity) :
    headCell op operands =
      Int64.ofNat (Instruction.number ⟨op, operands.map Operand.mode⟩) := by
  have hlist : operands = (List.range op.arity).map fun k => operands.getD k default := by
    apply List.ext_getElem
    · simpa using h
    · intro k hk _
      simp [hk]
  -- the operands are taken one by one, as the digits of the number are
  conv => lhs; rw [hlist]
  apply headCell_range ⟨op, operands.map Operand.mode⟩
  intro k hk
  have hk' : k < operands.length := h ▸ hk
  cases himm : operands[k].immediate with
  | true => simp [Instruction.mode, Operand.mode, hk', himm]
  | false => simp [Instruction.mode, Operand.mode, hk', himm]

/-- Where an accepted program has an instruction, the memory has the instruction's number. -/
theorem get_of_assemble {file : String} {text : Text} {failure : Option String} {memory : Memory}
    {before after : List Item} {op : Opcode} {operands : List Operand}
    (h : assemble file text failure = .ok memory)
    (hs : Splits (wordsOf text) (before ++ .instruction op operands :: after)) :
    memory.get (slots before).length =
      .ok (Int64.ofNat (Instruction.number ⟨op, operands.map Operand.mode⟩)) := by
  obtain ⟨hl, items, hs', hw⟩ := splits_of_assemble h
  rw [assemble_of_splits hl hs' hw, ← hs.unique hs'] at h
  obtain rfl := Except.ok.inj h
  have hlen : operands.length = op.arity :=
    length_of_splits hs (List.mem_append_right _ List.mem_cons_self)
  rw [get_encode, headCell_eq_number hlen]

end Assembly

namespace Instruction

open Assembly

/-- The cell `v` at `pc` is decoded to an instruction exactly if it is not negative, its two
lowest digits are the number of the operation, and there is a mode for each parameter,
immediate where the digit of the parameter is not zero. All other parameters are in position
mode.

A cell is decoded to the instruction of another one exactly if the two have the same
operation and the same zeros among the digits of its parameters. Of all these cells the
number of the instruction is the least, and this is what the assembler writes for it. -/
theorem decode_reads_digits {m : Memory} {pc : Int} {v : Cell} (hv : m.get pc = .ok v)
    (ins : Instruction) :
    (decode m pc = .ok ins ↔
      0 ≤ v.toInt ∧ (ins.op.code : Int) = v.toInt % 100 ∧ ins.modes.length = ins.op.arity ∧
        ∀ k < ins.op.arity, (ins.mode k = .immediate ↔ modeDigit v k ≠ 0)) ∧
    (decode m pc = .ok ins →
      (∀ k, ins.op.arity ≤ k → ins.mode k = .position) ∧
      (∀ m' pc' v', m'.get pc' = .ok v' →
        (decode m' pc' = .ok ins ↔ v'.toInt.tmod 100 = v.toInt.tmod 100 ∧
          ∀ k < ins.op.arity, (modeDigit v' k = 0 ↔ modeDigit v k = 0))) ∧
      (Int64.ofNat ins.number).toInt = ins.number ∧
      (∀ m' pc', m'.get pc' = .ok (Int64.ofNat ins.number) → decode m' pc' = .ok ins) ∧
      (∀ m' pc' v', m'.get pc' = .ok v' → decode m' pc' = .ok ins →
        (ins.number : Int) ≤ v'.toInt) ∧
      ∀ file text failure memory before operands after,
        assemble file text failure = .ok memory →
        Splits (wordsOf text) (before ++ .instruction ins.op operands :: after) →
        operands.map Operand.mode = ins.modes →
        memory.get (slots before).length = .ok (Int64.ofNat ins.number)) := by
  refine ⟨?_, ?_⟩
  · rw [decode_eq_ok_iff hv, ofCell?_iff_digits, Opcode.SelectedBy, and_assoc]
  · intro h
    have hcell := (decode_eq_ok_iff hv).1 h
    refine ⟨fun k hk => mode_of_arity_le hcell hk, ?_, toInt_number hcell, ?_, ?_, ?_⟩
    · intro m' pc' v' hv'
      rw [decode_eq_ok_iff hv', ofCell?_iff_same_digits hcell]
    · intro m' pc' hv'
      exact (decode_eq_ok_iff hv').2 (ofCell?_number hcell)
    · intro m' pc' v' hv' h'
      exact number_le ((decode_eq_ok_iff hv').1 h')
    · intro file text failure memory before operands after hrun hsplits hmodes
      rw [get_of_assemble hrun hsplits, hmodes]

/-- A comparison of two immediate parameters. -/
def comparison : Instruction :=
  ⟨.lessThan, [.immediate, .immediate, .position]⟩

/-- A cell of the comparison with the mode digits 8, 5 and 0, and more digits above them. -/
def crowded : Memory :=
  .ofList [9223372036854705807, 1, 2, 3]

/-- A source text of the comparison, as it is assembled and as it is read. -/
theorem comparison_assembled :
    assemble "x" (.ofString "lt #1 #2 3") none = .ok ⟨#[1107, 1, 2, 3]⟩ ∧
      (wordsOf (.ofString "lt #1 #2 3")).foldlM Reader.step ⟨[], .statement⟩ =
        some ⟨[.instruction .lessThan
          [⟨true, .literal 1⟩, ⟨true, .literal 2⟩, ⟨false, .literal 3⟩]], .statement⟩ := by
  decide +kernel

theorem crowded_digits :
    crowded.get 0 = .ok 9223372036854705807 ∧ decode crowded 0 = .ok comparison ∧
      comparison.mode 3 = .position ∧ comparison.number = 1107 ∧
      decode (.ofList [2907]) 0 = .ok comparison ∧ decode (.ofList [1107]) 0 = .ok comparison ∧
      (∀ m pc v, m.get pc = .ok v → decode m pc = .ok comparison → 1107 ≤ v.toInt) ∧
      Memory.get ⟨#[1107, 1, 2, 3]⟩ 0 = .ok (Int64.ofNat comparison.number) := by
  have hv : crowded.get 0 = .ok 9223372036854705807 := rfl
  obtain ⟨hiff, hall⟩ := decode_reads_digits hv comparison
  have hins : decode crowded 0 = .ok comparison := hiff.2 (by decide +kernel)
  obtain ⟨hrest, hsame, -, hnumber, hle, hassembled⟩ := hall hins
  have heq : comparison.number = 1107 := by decide
  obtain ⟨hrun, hread⟩ := comparison_assembled
  have hsplits := (read_eq_some_iff.1 hread).1
  refine ⟨hv, hins, hrest 3 (by decide), heq, ?_, ?_, ?_, ?_⟩
  · exact (hsame _ 0 2907 rfl).2 (by decide +kernel)
  · apply hnumber
    rw [heq]
    rfl
  · intro m pc v hm h
    have hbound := hle m pc v hm h
    rwa [heq] at hbound
  · exact hassembled _ _ _ _ [] _ [] hrun hsplits rfl

end Instruction

end CellMachine
