import CellMachine.Instruction

/-!
# Mode digits

The decimal digits of an instruction cell above its two lowest give the modes of the
parameters: zero is position, every other digit is immediate. So many cells hold the
same instruction. The canonical one among them has a one for each immediate parameter
and no other digits; `canonical_eq_self_iff` says which cells are canonical already,
digit by digit.

The digits are looked at from the lowest up, as `modesOf` does. `flags` is the number
that has a one in place of each of the first digits that is not zero, and
`sumBelow_flags` says that it is the sum of the places of these digits.

The canonical cell is determined by the instruction (`canonical_of_ofCell?`). It holds the
instruction (`ofCell?_number`), and no lower cell does (`number_le`).
-/

set_option autoImplicit false

namespace CellMachine.Instruction

/-- The digit of a cell that gives the mode of parameter `k`. -/
def modeDigit (v : Cell) (k : Nat) : Nat :=
  v.toInt.toNat / Nat.pow 10 (k + 2) % 10

/-- The sum of the values of `f` at the numbers below `n`. -/
def sumBelow : Nat → (Nat → Nat) → Nat
  | 0, _ => 0
  | n + 1, f => f 0 + sumBelow n fun k => f (k + 1)

/-- The canonical form of the cell of an instruction with `arity` parameters: the
operation, and a one in place of the digit of each immediate parameter. -/
def canonical (arity : Nat) (v : Cell) : Cell :=
  Int64.ofNat (v.toInt.toNat % 100 +
    sumBelow arity fun k => if modeDigit v k = 0 then 0 else Nat.pow 10 (k + 2))

/-- All mode digits are zero or one, and those past the parameters are zero. -/
def IsCanonical (arity : Nat) (v : Cell) : Prop :=
  ∀ k, modeDigit v k ≤ 1 ∧ (arity ≤ k → modeDigit v k = 0)

/-- The number that an instruction is written as: that of its operation, and a one in the
place of the digit of each immediate parameter. -/
def number (ins : Instruction) : Nat :=
  ins.op.code +
    sumBelow ins.op.arity fun k => if ins.mode k = .immediate then Nat.pow 10 (k + 2) else 0

/-! ## Numbers of ones and zeros -/

/-- The number with a one for each of the lowest `k` digits of `n` that is not zero. -/
def flags : Nat → Nat → Nat
  | 0, _ => 0
  | k + 1, n => (if n % 10 = 0 then 0 else 1) + 10 * flags k (n / 10)

theorem digit_zero (n : Nat) : n / Nat.pow 10 0 = n :=
  Nat.div_one n

/-- The digit of a parameter stands two places above its number. -/
theorem weight_eq (k : Nat) : Nat.pow 10 (k + 2) = Nat.pow 10 k * 100 :=
  Nat.mul_assoc _ 10 10

theorem digit_succ (n k : Nat) : n / Nat.pow 10 (k + 1) % 10 = n / 10 / Nat.pow 10 k % 10 := by
  have hpow : Nat.pow 10 (k + 1) = 10 * Nat.pow 10 k := Nat.mul_comm _ _
  rw [hpow, Nat.div_div_eq_div_mul]

theorem sumBelow_congr {n : Nat} {f g : Nat → Nat} (h : ∀ k, k < n → f k = g k) :
    sumBelow n f = sumBelow n g := by
  induction n generalizing f g with
  | zero => rfl
  | succ n ih =>
    have hrest : sumBelow n (fun k => f (k + 1)) = sumBelow n fun k => g (k + 1) := by
      apply ih
      intro k hk
      exact h (k + 1) (Nat.succ_lt_succ hk)
    rw [sumBelow, sumBelow, h 0 (Nat.succ_pos n), hrest]

/-- Flags are the places of the digits that are not zero. -/
theorem sumBelow_flags (c k n : Nat) :
    (sumBelow k fun i => if n / Nat.pow 10 i % 10 = 0 then 0 else Nat.pow 10 i * c) =
      c * flags k n := by
  induction k generalizing c n with
  | zero => rfl
  | succ k ih =>
    -- one place up, the weight is ten times as high
    have hrest : (sumBelow k fun i =>
        if n / Nat.pow 10 (i + 1) % 10 = 0 then 0 else Nat.pow 10 (i + 1) * c) =
          10 * c * flags k (n / 10) := by
      rw [← ih]
      apply sumBelow_congr
      intro i _
      have hweight : Nat.pow 10 (i + 1) * c = Nat.pow 10 i * (10 * c) := Nat.mul_assoc _ 10 c
      rw [digit_succ, hweight]
    have hfirst : (if n / Nat.pow 10 0 % 10 = 0 then 0 else Nat.pow 10 0 * c) =
        c * if n % 10 = 0 then 0 else 1 := by
      rw [digit_zero]
      split
      · rfl
      · rw [Nat.mul_one]
        exact Nat.one_mul c
    rw [sumBelow, hrest, hfirst, flags, Nat.mul_add, ← Nat.mul_assoc, Nat.mul_comm 10 c]

theorem flags_le (k n : Nat) : flags k n ≤ n := by
  induction k generalizing n with
  | zero => exact Nat.zero_le n
  | succ k ih =>
    have hrest := ih (n / 10)
    rw [flags]
    split <;> omega

/-- A number without digits other than zero is zero. -/
theorem eq_zero_of_digits {n : Nat} (h : ∀ k, n / Nat.pow 10 k % 10 = 0) : n = 0 := by
  induction n using Nat.strongRecOn with
  | ind n ih =>
    by_cases hn : n = 0
    · exact hn
    · have hlast : n % 10 = 0 := by
        have h0 := h 0
        rwa [digit_zero] at h0
      have hrest : n / 10 = 0 := by
        apply ih (n / 10) (by omega)
        intro k
        rw [← digit_succ]
        exact h (k + 1)
      omega

/-- A number is made of ones and zeros, with at most `k` digits, exactly if `flags`
leaves it as it is. -/
theorem flags_eq_self_iff {k n : Nat} :
    flags k n = n ↔
      ∀ i, n / Nat.pow 10 i % 10 ≤ 1 ∧ (k ≤ i → n / Nat.pow 10 i % 10 = 0) := by
  induction k generalizing n with
  | zero =>
    constructor
    · intro h i
      have hzero : n = 0 := h.symm
      simp [hzero]
    · intro h
      exact (eq_zero_of_digits fun i => (h i).2 (Nat.zero_le i)).symm
  | succ k ih =>
    -- the lowest digit has to be a flag, and the rest flags of its own
    have hsplit : flags (k + 1) n = n ↔ n % 10 ≤ 1 ∧ flags k (n / 10) = n / 10 := by
      rw [flags]
      split <;> omega
    rw [hsplit, ih]
    constructor
    · rintro ⟨hlast, hrest⟩ i
      cases i with
      | zero => exact ⟨by rwa [digit_zero], fun hle => absurd hle (Nat.not_succ_le_zero k)⟩
      | succ i =>
        rw [digit_succ]
        exact ⟨(hrest i).1, fun hle => (hrest i).2 (by omega)⟩
    · intro h
      refine ⟨by have h0 := (h 0).1; rwa [digit_zero] at h0, ?_⟩
      intro i
      rw [← digit_succ]
      exact ⟨(h (i + 1)).1, fun hle => (h (i + 1)).2 (by omega)⟩

/-! ## Cells -/

theorem modeDigit_eq (v : Cell) (k : Nat) :
    modeDigit v k = v.toInt.toNat / 100 / Nat.pow 10 k % 10 := by
  rw [modeDigit, weight_eq, Nat.mul_comm, Nat.div_div_eq_div_mul]

theorem sumBelow_modeDigit (arity : Nat) (v : Cell) :
    (sumBelow arity fun k => if modeDigit v k = 0 then 0 else Nat.pow 10 (k + 2)) =
      100 * flags arity (v.toInt.toNat / 100) := by
  rw [← sumBelow_flags]
  apply sumBelow_congr
  intro k _
  rw [modeDigit_eq, weight_eq]

theorem canonical_eq (arity : Nat) (v : Cell) :
    canonical arity v =
      Int64.ofNat (v.toInt.toNat % 100 + 100 * flags arity (v.toInt.toNat / 100)) := by
  rw [canonical, sumBelow_modeDigit]

/-- The canonical form as a number. It fits a cell because it is not above the cell. -/
theorem toInt_canonical (arity : Nat) (v : Cell) :
    (canonical arity v).toInt =
      (v.toInt.toNat % 100 + 100 * flags arity (v.toInt.toNat / 100) : Nat) := by
  have hle := flags_le arity (v.toInt.toNat / 100)
  have hmax : v.toInt < 9223372036854775808 := Int64.toInt_lt v
  rw [canonical_eq]
  exact Int64.toInt_ofNat_of_lt (by omega)

/-- A cell that is not negative is its own canonical form exactly if its digits are
canonical. -/
theorem canonical_eq_self_iff {arity : Nat} {v : Cell} (hv : 0 ≤ v.toInt) :
    canonical arity v = v ↔ IsCanonical arity v := by
  have hcells : canonical arity v = v ↔
      flags arity (v.toInt.toNat / 100) = v.toInt.toNat / 100 := by
    rw [← Int64.toInt_inj, toInt_canonical]
    omega
  rw [hcells, flags_eq_self_iff]
  simp only [IsCanonical, modeDigit_eq]

/-! ## Decoded modes -/

theorem getD_modesOf (arity n k : Nat) :
    (modesOf arity n).getD k .position = .immediate ↔
      k < arity ∧ n / Nat.pow 10 k % 10 ≠ 0 := by
  induction arity generalizing n k with
  | zero => simp [modesOf]
  | succ arity ih =>
    cases k with
    | zero =>
      rw [digit_zero]
      by_cases h : n % 10 = 0 <;> simp [modesOf_succ, h]
    | succ k =>
      rw [digit_succ, modesOf_succ, List.getD_cons_succ, ih]
      simp

/-- What a decoded cell says: it is not negative, and the operation and the modes are
read off its digits. -/
theorem ofCell?_eq_some_iff {v : Cell} {ins : Instruction} :
    ofCell? v = some ins ↔
      0 ≤ v.toInt ∧ Opcode.ofCode? (v.toInt.toNat % 100 : Nat) = some ins.op ∧
        ins.modes = modesOf ins.op.arity (v.toInt.toNat / 100) := by
  obtain ⟨op, modes⟩ := ins
  by_cases hneg : v.toInt < 0
  · simp only [ofCell?, hneg, if_true]
    constructor
    · intro h
      cases h
    · rintro ⟨hpos, -⟩
      omega
  · simp only [ofCell?, hneg, if_false, Option.map_eq_some_iff, Instruction.mk.injEq]
    constructor
    · rintro ⟨op', hop, rfl, rfl⟩
      exact ⟨by omega, hop, rfl⟩
    · rintro ⟨-, hop, rfl⟩
      exact ⟨op, hop, rfl, rfl⟩

/-- A parameter is immediate exactly if there is such a parameter and its digit is not
zero. -/
theorem mode_eq_immediate_iff {v : Cell} {ins : Instruction} (h : ofCell? v = some ins) (k : Nat) :
    ins.mode k = .immediate ↔ k < ins.op.arity ∧ modeDigit v k ≠ 0 := by
  obtain ⟨-, -, hmodes⟩ := ofCell?_eq_some_iff.1 h
  rw [mode, hmodes, getD_modesOf, modeDigit_eq]

/-- Only the number of an operation selects it. -/
theorem code_of_ofCode? {n : Nat} {op : Opcode} (h : Opcode.ofCode? n = some op) :
    op.code = n := by
  unfold Opcode.ofCode? at h
  split at h <;> cases h <;> simp only [Opcode.code] <;> omega

/-! ## The number of a decoded instruction -/

/-- Flags have the modes of the digits that they stand for. -/
theorem modesOf_flags (k n : Nat) : modesOf k (flags k n) = modesOf k n := by
  induction k generalizing n with
  | zero => rfl
  | succ k ih =>
    -- the lowest flag is zero where the digit is, and the others are flags of the rest
    have hdiv : flags (k + 1) n / 10 = flags k (n / 10) := by
      rw [flags]
      split <;> omega
    have hmod : flags (k + 1) n % 10 = 0 ↔ n % 10 = 0 := by
      rw [flags]
      split <;> omega
    rw [modesOf_succ, modesOf_succ, hdiv, ih]
    simp only [hmod]

theorem number_eq {v : Cell} {ins : Instruction} (h : ofCell? v = some ins) :
    ins.number = v.toInt.toNat % 100 + 100 * flags ins.op.arity (v.toInt.toNat / 100) := by
  obtain ⟨-, hcode, -⟩ := ofCell?_eq_some_iff.1 h
  rw [number, code_of_ofCode? hcode, ← sumBelow_modeDigit]
  congr 1
  apply sumBelow_congr
  intro k hk
  have hmode := mode_eq_immediate_iff h k
  by_cases hdigit : modeDigit v k = 0
  · rw [if_pos hdigit, if_neg fun himm => (hmode.1 himm).2 hdigit]
  · rw [if_neg hdigit, if_pos (hmode.2 ⟨hk, hdigit⟩)]

/-- The canonical form of a cell is the number of the instruction in it. -/
theorem canonical_of_ofCell? {v : Cell} {ins : Instruction} (h : ofCell? v = some ins) :
    canonical ins.op.arity v = Int64.ofNat ins.number := by
  rw [canonical_eq, number_eq h]

/-- No cell below the number of an instruction holds the instruction. -/
theorem number_le {v : Cell} {ins : Instruction} (h : ofCell? v = some ins) :
    (ins.number : Int) ≤ v.toInt := by
  have hpos := (ofCell?_eq_some_iff.1 h).1
  have hle := flags_le ins.op.arity (v.toInt.toNat / 100)
  rw [number_eq h]
  omega

theorem toInt_number {v : Cell} {ins : Instruction} (h : ofCell? v = some ins) :
    (Int64.ofNat ins.number).toInt = ins.number := by
  have hle := number_le h
  have hmax : v.toInt < 9223372036854775808 := Int64.toInt_lt v
  exact Int64.toInt_ofNat_of_lt (by omega)

/-- The number of an instruction holds the instruction. -/
theorem ofCell?_number {v : Cell} {ins : Instruction} (h : ofCell? v = some ins) :
    ofCell? (Int64.ofNat ins.number) = some ins := by
  obtain ⟨-, hcode, hmodes⟩ := ofCell?_eq_some_iff.1 h
  have hnumber := number_eq h
  have hmod : ins.number % 100 = v.toInt.toNat % 100 := by omega
  have hdiv : ins.number / 100 = flags ins.op.arity (v.toInt.toNat / 100) := by omega
  rw [ofCell?_eq_some_iff, toInt_number h, Int.toNat_natCast, hmod, hdiv, modesOf_flags]
  exact ⟨Int.natCast_nonneg _, hcode, hmodes⟩

end CellMachine.Instruction
