import CellMachine.Assembly.Assembler
import CellMachine.Instruction
import CellMachine.Proofs.Numerals
import Mathlib.Data.List.Forall2

/-!
# The assembly language

A program is a list of items: label definitions, data and instructions. How each of
them is spelled in words is said by the `Spelled` relations, and what makes a list of
items a program by `WellFormed`. Both speak of the items as a whole and not of an
order of reading.

`encode` lays a program out in two passes, first the slots, some of which name a
label, then the addresses of the labels in place of their names. The cell of an
instruction decodes to its operation and modes (`decode_encode`).
-/

set_option autoImplicit false

namespace CellMachine.Assembly

/-- What stands in a cell: an integer, or the address of a label. -/
inductive Value where
  | literal (v : Cell)
  | label (name : String)
deriving DecidableEq, Inhabited

/-- An operand of an instruction. -/
structure Operand where
  immediate : Bool
  value : Value
deriving DecidableEq, Inhabited

/-- An item of a program. -/
inductive Item where
  | label (name : String)
  | data (value : Value)
  | instruction (op : Opcode) (operands : List Operand)
deriving DecidableEq, Inhabited

/-! ## Spelling -/

/-- A value is a decimal literal that fits 64 bits, or the name of a label. -/
inductive Value.Spelled : Text → Value → Prop where
  | literal {w : Text} {n : Int} : Numeral.Decimal w n → Numeral.least ≤ n → n ≤ Numeral.greatest →
      Spelled w (.literal (Int64.ofInt n))
  | label {w : Text} : isLabelName w = true → Spelled w (.label w.toString)

/-- An operand is a value, with `#` before it if it is immediate. -/
inductive Operand.Spelled : Text → Operand → Prop where
  | position {w : Text} {v : Value} : v.Spelled w → Spelled w ⟨false, v⟩
  | immediate {w : Text} {v : Value} : v.Spelled w → Spelled (.char '#' :: w) ⟨true, v⟩

/-- The words of an item. -/
inductive Item.Spelled : List Text → Item → Prop where
  | label {name : Text} : isLabelName name = true →
      Spelled [.char ':' :: name] (.label name.toString)
  | data {w : Text} {v : Value} : v.Spelled w → Spelled [Text.ofString ".dat", w] (.data v)
  | instruction {name : String} {op : Opcode} {ws : List Text} {operands : List Operand} :
      (name, op) ∈ mnemonics → List.Forall₂ Operand.Spelled ws operands →
      operands.length = op.arity → Spelled (Text.ofString name :: ws) (.instruction op operands)

/-- The words can be split into the words of the items. -/
def Splits (words : List Text) (items : List Item) : Prop :=
  ∃ parts : List (List Text), parts.flatten = words ∧ List.Forall₂ Item.Spelled parts items

/-! ## Layout -/

/-- The mode digits of the operands, where the first has the given weight. -/
def modeSum (weight : Nat) : List Operand → Nat
  | [] => 0
  | o :: rest => (if o.immediate then weight else 0) + modeSum (10 * weight) rest

/-- The cell of an instruction: the number of the operation, and 100, 1000 and 10000
for immediate operands in the first, second and third place. -/
def headCell (op : Opcode) (operands : List Operand) : Cell :=
  Int64.ofNat (op.code + modeSum 100 operands)

/-- What stands in the cells of an item. -/
def Item.slots : Item → List Value
  | .label _ => []
  | .data v => [v]
  | .instruction op operands => .literal (headCell op operands) :: operands.map Operand.value

/-- What stands in the cells of a program. -/
def slots (items : List Item) : List Value :=
  items.flatMap Item.slots

/-- The address of a label: the number of cells before its definition. -/
def addressOf (items : List Item) (name : String) : Nat :=
  (slots (items.takeWhile fun item => item ≠ .label name)).length

/-- The cell of a value, given the addresses of the labels. -/
def Value.cell (address : String → Nat) : Value → Cell
  | .literal v => v
  | .label name => Int64.ofNat (address name)

/-- The cells of a program. -/
def encode (items : List Item) : List Cell :=
  (slots items).map (Value.cell (addressOf items))

/-- No operand that an instruction stores to is immediate. -/
def Allows (op : Opcode) (operands : List Operand) : Prop :=
  ∀ (k : Nat) o, operands[k]? = some o → o.immediate = true → op.isDestination k = false

/-- What can be said against items without looking at the rest of the program: no
label is defined twice and no destination is immediate. -/
structure Lawful (items : List Item) : Prop where
  unique : ∀ name, items.count (.label name) ≤ 1
  allowed : ∀ op operands, .instruction op operands ∈ items → Allows op operands

/-- What makes items a program, apart from their spelling. -/
structure WellFormed (items : List Item) : Prop extends Lawful items where
  /-- Every label is defined, before or after it is used. -/
  defined : ∀ name, .label name ∈ slots items → .label name ∈ items
  nonempty : slots items ≠ []

/-! ## Instruction cells -/

/-- The mode that an operand asks for. -/
def Operand.mode (o : Operand) : Mode :=
  if o.immediate then .immediate else .position

theorem modeSum_mul (weight : Nat) (operands : List Operand) :
    modeSum (10 * weight) operands = 10 * modeSum weight operands := by
  induction operands generalizing weight with
  | nil => rfl
  | cons o rest ih =>
    simp only [modeSum, ih]
    split <;> omega

/-- One more operand adds one more digit. -/
theorem modeSum_append (weight : Nat) (operands : List Operand) (o : Operand) :
    modeSum weight (operands ++ [o]) =
      modeSum weight operands +
        if o.immediate then Nat.pow 10 operands.length * weight else 0 := by
  induction operands generalizing weight with
  | nil => simp [modeSum]
  | cons o' rest ih =>
    have hpow : Nat.pow 10 rest.length * (10 * weight) = Nat.pow 10 (rest.length + 1) * weight :=
      (Nat.mul_assoc _ 10 weight).symm
    simp only [List.cons_append, modeSum, ih, List.length_cons, hpow]
    omega

theorem modeSum_lt (operands : List Operand) : modeSum 1 operands < Nat.pow 10 operands.length := by
  induction operands with
  | nil => exact Nat.one_pos
  | cons o rest ih =>
    have hpow : Nat.pow 10 (rest.length + 1) = Nat.pow 10 rest.length * 10 := rfl
    simp only [modeSum, modeSum_mul, List.length_cons, hpow]
    split <;> omega

/-- The digits give back the modes. -/
theorem modesOf_modeSum (operands : List Operand) :
    Instruction.modesOf operands.length (modeSum 1 operands) = operands.map Operand.mode := by
  induction operands with
  | nil => rfl
  | cons o rest ih =>
    have hdiv : modeSum 1 (o :: rest) / 10 = modeSum 1 rest := by
      simp only [modeSum, modeSum_mul]
      split <;> omega
    have hmod : modeSum 1 (o :: rest) % 10 = if o.immediate then 1 else 0 := by
      simp only [modeSum, modeSum_mul]
      split <;> omega
    rw [List.length_cons, Instruction.modesOf_succ, hdiv, hmod, ih, List.map_cons]
    cases h : o.immediate <;> simp [Operand.mode, h]

theorem ofCode?_code (op : Opcode) : Opcode.ofCode? op.code = some op := by
  cases op <;> rfl

theorem code_lt (op : Opcode) : op.code < 100 := by
  cases op <;> decide

theorem arity_le (op : Opcode) : op.arity ≤ 3 := by
  cases op <;> decide

/-- The cell of an instruction holds its operation and the modes of its operands. -/
theorem ofCell?_headCell {op : Opcode} {operands : List Operand}
    (h : operands.length = op.arity) :
    Instruction.ofCell? (headCell op operands) = some ⟨op, operands.map Operand.mode⟩ := by
  have hcode := code_lt op
  have hsum : modeSum 100 operands = 100 * modeSum 1 operands := by
    have h10 : modeSum 10 operands = 10 * modeSum 1 operands := modeSum_mul 1 operands
    have h100 : modeSum 100 operands = 10 * modeSum 10 operands := modeSum_mul 10 operands
    omega
  have hlt : modeSum 1 operands < 1000 := by
    have hpow : Nat.pow 10 operands.length ≤ Nat.pow 10 3 :=
      Nat.pow_le_pow_right (by decide) (by rw [h]; exact arity_le op)
    exact Nat.lt_of_lt_of_le (modeSum_lt operands) hpow
  have hint : (headCell op operands).toInt = (op.code + 100 * modeSum 1 operands : Nat) := by
    rw [headCell, hsum]
    exact Int64.toInt_ofNat_of_lt (by omega)
  have hnat : (headCell op operands).toInt.toNat = op.code + 100 * modeSum 1 operands := by
    rw [hint, Int.toNat_natCast]
  have hnonneg : ¬ (headCell op operands).toInt < 0 := by omega
  have hmod : (op.code + 100 * modeSum 1 operands) % 100 = op.code := by omega
  have hdiv : (op.code + 100 * modeSum 1 operands) / 100 = modeSum 1 operands := by omega
  rw [Instruction.ofCell?, if_neg hnonneg, hnat, hmod, hdiv, ofCode?_code, Option.map_some, ← h,
    modesOf_modeSum]

theorem slots_append (items items' : List Item) :
    slots (items ++ items') = slots items ++ slots items' :=
  List.flatMap_append

theorem get_ofList {cells : List Cell} {i : Nat} {v : Cell} (h : cells[i]? = some v) :
    (Memory.ofList cells).get i = .ok v := by
  obtain ⟨hlt, hv⟩ := List.getElem?_eq_some_iff.1 h
  have hhas : (Memory.ofList cells).Has i := by
    simp only [Memory.Has, Memory.size, Memory.ofList, List.size_toArray]
    omega
  simp only [Memory.get, Memory.index, hhas, dif_pos]
  simpa [Memory.ofList] using hv

/-- At the address of an instruction stands the cell of the instruction. -/
theorem get_encode {before after : List Item} {op : Opcode} {operands : List Operand} :
    (Memory.ofList (encode (before ++ .instruction op operands :: after))).get
      (slots before).length = .ok (headCell op operands) := by
  have hslots : slots (before ++ .instruction op operands :: after) =
      slots before ++ .literal (headCell op operands) ::
        (operands.map Operand.value ++ slots after) := by
    rw [slots_append]
    rfl
  apply get_ofList
  rw [encode, List.getElem?_map, hslots, List.getElem?_append_right (Nat.le_refl _), Nat.sub_self]
  rfl

/-- At the address of an instruction a machine finds that instruction. -/
theorem decode_encode {before after : List Item} {op : Opcode} {operands : List Operand}
    (h : operands.length = op.arity) :
    Instruction.decode (Memory.ofList (encode (before ++ .instruction op operands :: after)))
      (slots before).length = .ok ⟨op, operands.map Operand.mode⟩ := by
  rw [Instruction.decode, get_encode]
  simp only [ofCell?_headCell h]

end CellMachine.Assembly
