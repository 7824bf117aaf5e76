import CellMachine.Proofs.Assembly.Listed
import CellMachine.Proofs.ModeDigits
import CellMachine.Proofs.Sweep

/-!
# From memory to text and back

The text that a sweep writes is assembled again. Laid out again, the items of the text
give every cell back, except that the cell of an instruction is canonical afterwards
(`encode_listed`).

The assembler refuses an immediate destination, and a listing shows one wherever the
mode digit of a destination is not zero. This is the only thing that can be said
against a listing (`assembles_source_iff`). That a refusal of some other split of the
words cannot matter is due to the language: words split into items in one way only
(`Splits.unique`).
-/

set_option autoImplicit false

namespace CellMachine.Assembly

open Listing Instruction

/-! ## One way to split -/

theorem Value.Spelled.unique {w : Text} {v v' : Value} (h : v.Spelled w) (h' : v'.Spelled w) :
    v = v' := by
  have hv := Value.read?_eq_some_iff.2 h
  rw [Value.read?_eq_some_iff.2 h'] at hv
  exact (Option.some.inj hv).symm

theorem Operand.Spelled.unique {w : Text} {o o' : Operand} (h : o.Spelled w) (h' : o'.Spelled w) :
    o = o' := by
  cases h with
  | position hv =>
    cases h' with
    | position hv' => rw [hv.unique hv']
    | immediate hv' => exact absurd hv Value.not_spelled_hash
  | immediate hv =>
    cases h' with
    | position hv' => exact absurd hv' Value.not_spelled_hash
    | immediate hv' => rw [hv.unique hv']

theorem operands_unique {ws ws' rest rest' : List Text} {os os' : List Operand}
    (h : List.Forall₂ Operand.Spelled ws os) (h' : List.Forall₂ Operand.Spelled ws' os')
    (hlen : os.length = os'.length) (heq : ws ++ rest = ws' ++ rest') : os = os' ∧ rest = rest' := by
  induction h generalizing ws' os' with
  | nil =>
    cases h' with
    | nil => exact ⟨rfl, heq⟩
    | cons => cases hlen
  | cons ho _ ih =>
    cases h' with
    | nil => cases hlen
    | cons ho' hrest' =>
      rw [List.cons_append, List.cons_append, List.cons.injEq] at heq
      obtain ⟨rfl, heq⟩ := heq
      obtain ⟨rfl, hrest⟩ := ih hrest' (Nat.succ.inj hlen) heq
      exact ⟨by rw [ho.unique ho'], hrest⟩

/-- The first word of an item tells its kind, and the kind tells where it ends. -/
theorem Item.Spelled.unique {ws ws' rest rest' : List Text} {item item' : Item}
    (h : item.Spelled ws) (h' : item'.Spelled ws') (heq : ws ++ rest = ws' ++ rest') :
    item = item' ∧ rest = rest' := by
  have hhead : ∀ p ∈ mnemonics, (Text.ofString p.1).head? ≠ some (.char ':') ∧
      Text.ofString p.1 ≠ Text.ofString ".dat" := by
    decide
  -- the mixed cases disagree on the first word
  cases h with
  | label hname =>
    cases h' with
    | label hname' =>
      simp only [List.cons_append, List.nil_append, List.cons.injEq, true_and] at heq
      obtain ⟨rfl, hrest⟩ := heq
      exact ⟨rfl, hrest⟩
    | data hv' =>
      have hfirst := congrArg List.head? (List.cons.inj heq).1
      cases hfirst
    | instruction hop' =>
      exact absurd (by rw [← (List.cons.inj heq).1]; rfl) (hhead _ hop').1
  | data hv =>
    cases h' with
    | label hname' =>
      have hfirst := congrArg List.head? (List.cons.inj heq).1
      cases hfirst
    | data hv' =>
      simp only [List.cons_append, List.nil_append, List.cons.injEq, true_and] at heq
      obtain ⟨rfl, hrest⟩ := heq
      exact ⟨by rw [hv.unique hv'], hrest⟩
    | instruction hop' => exact absurd (List.cons.inj heq).1.symm (hhead _ hop').2
  | @instruction name op ws os hop hos hlen =>
    cases h' with
    | label hname' =>
      exact absurd (by rw [(List.cons.inj heq).1]; rfl) (hhead _ hop).1
    | data hv' => exact absurd (List.cons.inj heq).1 (hhead _ hop).2
    | @instruction name' op' ws' os' hop' hos' hlen' =>
      rw [List.cons_append, List.cons_append, List.cons.injEq] at heq
      -- equal words name equal operations, which take equally many operands
      have hops : op = op' := by
        have hread := operation?_eq_some_iff.2 ⟨name, rfl, hop⟩
        rw [heq.1, operation?_eq_some_iff.2 ⟨name', rfl, hop'⟩] at hread
        exact (Option.some.inj hread).symm
      subst hops
      obtain ⟨rfl, hrest⟩ := operands_unique hos hos' (hlen.trans hlen'.symm) heq.2
      exact ⟨rfl, hrest⟩

theorem Item.Spelled.ne_nil {ws : List Text} {item : Item} (h : item.Spelled ws) : ws ≠ [] := by
  cases h <;> exact List.cons_ne_nil _ _

/-- Words split into items in at most one way. -/
theorem Splits.unique {words : List Text} {items items' : List Item} (h : Splits words items)
    (h' : Splits words items') : items = items' := by
  obtain ⟨parts, rfl, hparts⟩ := h
  obtain ⟨parts', heq, hparts'⟩ := h'
  induction hparts generalizing parts' items' with
  | nil =>
    cases hparts' with
    | nil => rfl
    | cons hitem =>
      rw [List.flatten_cons, List.flatten_nil, List.append_eq_nil_iff] at heq
      exact absurd heq.1 hitem.ne_nil
  | cons hitem _ ih =>
    cases hparts' with
    | nil =>
      rw [List.flatten_cons, List.flatten_nil] at heq
      exact absurd (List.append_eq_nil_iff.1 heq.symm).1 hitem.ne_nil
    | cons hitem' hrest' =>
      rw [List.flatten_cons, List.flatten_cons] at heq
      obtain ⟨rfl, hflat⟩ := hitem'.unique hitem heq
      rw [ih _ hflat hrest']

/-! ## Cells -/

/-- The cells of the statement at `pc`, with a canonical instruction cell. -/
def shownCells (m : Memory) (pc : Nat) : List Cell :=
  match shown? m pc with
  | some ins => canonical ins.op.arity (m.cells.getD pc 0) ::
      (List.range ins.op.arity).map fun k => m.cells.getD (pc + 1 + k) 0
  | none => [m.cells.getD pc 0]

/-- The mode digits of operands that are given one by one. -/
theorem modeSum_range (weight arity : Nat) (f : Nat → Operand) :
    modeSum weight ((List.range arity).map f) =
      sumBelow arity fun k => if (f k).immediate then Nat.pow 10 k * weight else 0 := by
  induction arity generalizing weight f with
  | zero => rfl
  | succ n ih =>
    have hrest : modeSum (10 * weight) ((List.range n).map fun k => f (k + 1)) =
        sumBelow n fun k => if (f (k + 1)).immediate then Nat.pow 10 (k + 1) * weight else 0 := by
      rw [ih]
      apply sumBelow_congr
      intro k _
      have hweight : Nat.pow 10 (k + 1) * weight = Nat.pow 10 k * (10 * weight) :=
        Nat.mul_assoc _ 10 weight
      rw [hweight]
    have hfirst : Nat.pow 10 0 * weight = weight := Nat.one_mul weight
    rw [List.range_succ_eq_map, List.map_cons, List.map_map, modeSum, sumBelow, hfirst, ← hrest]
    rfl

/-- Operands that are immediate where an instruction is make up the number of the
instruction. -/
theorem headCell_range (ins : Instruction) {f : Nat → Operand}
    (hf : ∀ k < ins.op.arity, ((f k).immediate = true ↔ ins.mode k = .immediate)) :
    headCell ins.op ((List.range ins.op.arity).map f) = Int64.ofNat ins.number := by
  rw [headCell, modeSum_range, number]
  congr 2
  apply sumBelow_congr
  intro k hk
  simp only [hf k hk, weight_eq]

/-- The cell that is put together from an instruction is the canonical form of the cell
that the instruction was read from. -/
theorem headCell_shown {m : Memory} {pc : Nat} {ins : Instruction} {v : Cell}
    (h : ofCell? v = some ins) :
    headCell ins.op ((List.range ins.op.arity).map (shownOperand m ins pc)) =
      canonical ins.op.arity v := by
  rw [canonical_of_ofCell? h]
  apply headCell_range ins
  intro k _
  exact decide_eq_true_iff

theorem slots_shownItem {m : Memory} {pc : Nat} (hpc : pc < m.size) :
    (shownItem m pc).slots = (shownCells m pc).map .literal := by
  unfold shownItem shownCells
  cases hs : shown? m pc with
  | none => rfl
  | some ins =>
    simp only [Item.slots, headCell_shown ((shown?_eq_some_iff hpc).1 hs).1, List.map_cons,
      List.map_map]
    rfl

theorem slots_listed (m : Memory) :
    slots (listed m) = ((statements m).flatMap (shownCells m)).map .literal := by
  rw [slots, listed, List.flatMap_map, List.map_flatMap, List.flatMap_def, List.flatMap_def]
  congr 1
  apply List.map_congr_left
  intro pc hpc
  exact slots_shownItem (bounds_of_mem hpc).2

/-- What stands at an address once a listing with the given statements is assembled. -/
def restored (m : Memory) (addresses : List Nat) (a : Nat) : Cell :=
  match if a ∈ addresses then shown? m a else none with
  | some ins => canonical ins.op.arity (m.cells.getD a 0)
  | none => m.cells.getD a 0

theorem restored_of_shown {m : Memory} {addresses : List Nat} {a : Nat} {ins : Instruction}
    (hmem : a ∈ addresses) (hs : shown? m a = some ins) :
    restored m addresses a = canonical ins.op.arity (m.cells.getD a 0) := by
  simp only [restored, hmem, hs, if_true]

theorem restored_of_not_shown {m : Memory} {addresses : List Nat} {a : Nat}
    (h : a ∈ addresses → shown? m a = none) : restored m addresses a = m.cells.getD a 0 := by
  by_cases hmem : a ∈ addresses
  · simp only [restored, hmem, h hmem, if_true]
  · simp only [restored, hmem, if_false]

/-- Within a statement only the first cell changes. -/
theorem shownCells_eq {m : Memory} {pc : Nat} {rest : List Nat}
    (hrest : ∀ a ∈ rest, pc + statementSize m pc ≤ a) :
    shownCells m pc = (List.range' pc (statementSize m pc)).map (restored m (pc :: rest)) := by
  cases hs : shown? m pc with
  | none =>
    have hsize : statementSize m pc = 1 := by simp only [statementSize, hs]
    have hcells : shownCells m pc = [m.cells.getD pc 0] := by simp only [shownCells, hs]
    rw [hcells, hsize, List.range'_one, List.map_singleton, restored_of_not_shown fun _ => hs]
  | some ins =>
    have hsize : statementSize m pc = ins.op.arity + 1 := by simp only [statementSize, hs]
    have hcells : shownCells m pc = canonical ins.op.arity (m.cells.getD pc 0) ::
        (List.range ins.op.arity).map fun k => m.cells.getD (pc + 1 + k) 0 := by
      simp only [shownCells, hs]
    rw [hsize] at hrest ⊢
    rw [hcells, List.range'_succ, List.map_cons, restored_of_shown List.mem_cons_self hs,
      List.range'_eq_map_range, List.map_map]
    congr 1
    apply List.map_congr_left
    intro k hk
    have hk' : k < ins.op.arity := List.mem_range.1 hk
    have hnot : pc + 1 + k ∉ pc :: rest := by
      intro hmem
      rcases List.mem_cons.1 hmem with heq | hmem
      · omega
      · have hle := hrest _ hmem
        omega
    exact (restored_of_not_shown fun hmem => absurd hmem hnot).symm

/-- The cells of the statements from `pc` on are those from `pc` on. -/
theorem flatMap_shownCells (m : Memory) (pc : Nat) :
    (statementsFrom m pc).flatMap (shownCells m) =
      (List.range' pc (m.size - pc)).map (restored m (statementsFrom m pc)) := by
  fun_induction statementsFrom m pc with
  | case1 pc hlt ih =>
    have hle := add_statementSize_le hlt
    have hsplit : List.range' pc (m.size - pc) = List.range' pc (statementSize m pc) ++
        List.range' (pc + statementSize m pc) (m.size - (pc + statementSize m pc)) := by
      rw [List.range'_append_1]
      congr 1
      omega
    rw [List.flatMap_cons, ih, hsplit, List.map_append,
      shownCells_eq fun a ha => (bounds_of_mem ha).1]
    congr 1
    -- behind the first statement its address does not occur
    apply List.map_congr_left
    intro a ha
    have hpos := statementSize_pos m pc
    have hne : a ≠ pc := by
      rw [List.mem_range'_1] at ha
      omega
    simp only [restored, List.mem_cons, hne, false_or]
  | case2 pc hge =>
    have hzero : m.size - pc = 0 := by omega
    rw [hzero]
    rfl

/-- Assembling the items of a listing gives the cells back, with canonical instruction
cells. -/
theorem encode_listed (m : Memory) :
    encode (listed m) = (List.range m.size).map (restored m (statements m)) := by
  have hcells := flatMap_shownCells m 0
  rw [Nat.sub_zero, ← List.range_eq_range'] at hcells
  rw [encode, slots_listed, List.map_map]
  have hid : ∀ address, Value.cell address ∘ Value.literal = id := fun _ => rfl
  rw [hid, List.map_id]
  exact hcells

/-! ## What is accepted -/

/-- No instruction in a listing has a mode digit other than zero on its destination. -/
def PlainDestinations (m : Memory) : Prop :=
  ∀ pc ∈ statements m, ∀ ins, shown? m pc = some ins →
    ∀ k, ins.op.isDestination k = true → modeDigit (m.cells.getD pc 0) k = 0

theorem lt_arity_of_isDestination {op : Opcode} {k : Nat} (h : op.isDestination k = true) :
    k < op.arity := by
  cases op with
  | add | mul | lessThan | equals | input =>
    simp only [Opcode.isDestination, beq_iff_eq] at h
    simp only [Opcode.arity]
    omega
  | output | jumpIfTrue | jumpIfFalse | halt => cases h

instance (m : Memory) : Decidable (PlainDestinations m) :=
  decidable_of_iff
    (∀ pc ∈ statements m, ∀ ins ∈ shown? m pc, ∀ k < ins.op.arity,
      ins.op.isDestination k = true → modeDigit (m.cells.getD pc 0) k = 0)
    ⟨fun h pc hpc ins hs k hd => h pc hpc ins hs k (lt_arity_of_isDestination hd) hd,
      fun h pc hpc ins hs k _ hd => h pc hpc ins hs k hd⟩

theorem label_not_mem_listed (m : Memory) (name : String) : Item.label name ∉ listed m := by
  intro hmem
  obtain ⟨pc, -, heq⟩ := List.mem_map.1 hmem
  unfold shownItem at heq
  split at heq <;> cases heq

/-- An instruction in a listing comes from one of its statements. -/
theorem instruction_mem_listed {m : Memory} {op : Opcode} {operands : List Operand} :
    Item.instruction op operands ∈ listed m ↔
      ∃ pc ∈ statements m, ∃ ins, shown? m pc = some ins ∧ op = ins.op ∧
        operands = (List.range ins.op.arity).map (shownOperand m ins pc) := by
  rw [listed, List.mem_map]
  constructor
  · rintro ⟨pc, hpc, heq⟩
    unfold shownItem at heq
    split at heq
    · next ins hs =>
      cases heq
      exact ⟨pc, hpc, ins, hs, rfl, rfl⟩
    · cases heq
  · rintro ⟨pc, hpc, ins, hs, rfl, rfl⟩
    exact ⟨pc, hpc, by simp only [shownItem, hs]⟩

/-- The operands of a statement are allowed exactly if its destination has no mode
digit. -/
theorem allows_shown_iff {m : Memory} {pc : Nat} {ins : Instruction} (hpc : pc < m.size)
    (hs : shown? m pc = some ins) :
    Allows ins.op ((List.range ins.op.arity).map (shownOperand m ins pc)) ↔
      ∀ k, ins.op.isDestination k = true → modeDigit (m.cells.getD pc 0) k = 0 := by
  have hcell := ((shown?_eq_some_iff hpc).1 hs).1
  constructor
  · intro hallows k hdest
    have hk := lt_arity_of_isDestination hdest
    by_contra hdigit
    have hmode : ins.mode k = .immediate := (mode_eq_immediate_iff hcell k).2 ⟨hk, hdigit⟩
    have hfalse := hallows k (shownOperand m ins pc k) (by simp [hk]) (by simp [shownOperand, hmode])
    rw [hdest] at hfalse
    cases hfalse
  · intro hplain k o hk himm
    rw [List.getElem?_map, Option.map_eq_some_iff] at hk
    obtain ⟨j, hj, rfl⟩ := hk
    obtain ⟨_, hkj⟩ := List.getElem?_eq_some_iff.1 hj
    rw [List.getElem_range] at hkj
    subst hkj
    have hmode : ins.mode k = .immediate := by simpa [shownOperand] using himm
    cases hdest : ins.op.isDestination k with
    | false => rfl
    | true => exact absurd (hplain k hdest) ((mode_eq_immediate_iff hcell k).1 hmode).2

theorem length_slots_listed (m : Memory) : (slots (listed m)).length = m.size := by
  have hlen := congrArg List.length (encode_listed m)
  rwa [encode, List.length_map, List.length_map, List.length_range] at hlen

/-- A listing is a program exactly if it is not empty and no destination in it has a
mode digit. -/
theorem wellFormed_listed_iff (m : Memory) :
    WellFormed (listed m) ↔ m.size ≠ 0 ∧ PlainDestinations m := by
  have hempty : slots (listed m) ≠ [] ↔ m.size ≠ 0 := by
    rw [← length_slots_listed m, Ne, Ne, List.length_eq_zero_iff]
  constructor
  · intro h
    refine ⟨hempty.1 h.nonempty, ?_⟩
    intro pc hpc ins hs
    apply (allows_shown_iff (bounds_of_mem hpc).2 hs).1
    exact h.allowed _ _ (instruction_mem_listed.2 ⟨pc, hpc, ins, hs, rfl, rfl⟩)
  · rintro ⟨hsize, hplain⟩
    refine ⟨⟨?_, ?_⟩, ?_, hempty.2 hsize⟩
    · intro name
      rw [List.count_eq_zero_of_not_mem (label_not_mem_listed m name)]
      exact Nat.zero_le 1
    · intro op operands hmem
      obtain ⟨pc, hpc, ins, hs, rfl, rfl⟩ := instruction_mem_listed.1 hmem
      exact (allows_shown_iff (bounds_of_mem hpc).2 hs).2 (hplain pc hpc ins hs)
    · -- there are only literals, so no label has to be defined
      intro name hmem
      rw [slots_listed] at hmem
      obtain ⟨v, -, hv⟩ := List.mem_map.1 hmem
      cases hv

/-- The text of a memory is assembled unless it shows an immediate destination. -/
theorem assemble_source {m : Memory} (hm : m.size ≠ 0) (hd : PlainDestinations m) (file : String) :
    assemble file (Text.ofString (source m)) none = .ok (.ofList (encode (listed m))) :=
  assemble_of_splits (spaced_source m).legible (splits_source m)
    ((wellFormed_listed_iff m).2 ⟨hm, hd⟩)

/-- What is accepted in the text of a memory are its items, since no other split of the
words can be. -/
theorem assembles_source_iff (m : Memory) (file : String) :
    (∃ m', assemble file (Text.ofString (source m)) none = .ok m') ↔
      m.size ≠ 0 ∧ PlainDestinations m := by
  constructor
  · rintro ⟨m', h⟩
    obtain ⟨-, items, hsplits, hwell⟩ := splits_of_assemble h
    rw [hsplits.unique (splits_source m)] at hwell
    exact (wellFormed_listed_iff m).1 hwell
  · rintro ⟨hm, hd⟩
    exact ⟨_, assemble_source hm hd file⟩

/-! ## The round trip -/

section Restored

variable {m : Memory}

theorem size_restored : (Memory.ofList (encode (listed m))).size = m.size := by
  simp [Memory.size, Memory.ofList, encode_listed]

theorem getD_restored (a : Nat) :
    (Memory.ofList (encode (listed m))).cells.getD a 0 =
      if a < m.size then restored m (statements m) a else 0 := by
  by_cases h : a < m.size
  · simp [Memory.ofList, encode_listed, h]
  · simp [Memory.ofList, encode_listed, h]

/-- The cell of an instruction in a listing is the only one that can change. -/
theorem restored_eq_self_iff {pc : Nat} {ins : Instruction} (hpc : pc ∈ statements m)
    (hs : shown? m pc = some ins) :
    restored m (statements m) pc = m.cells.getD pc 0 ↔
      IsCanonical ins.op.arity (m.cells.getD pc 0) := by
  have hcell := ((shown?_eq_some_iff (bounds_of_mem hpc).2).1 hs).1
  rw [restored_of_shown hpc hs, canonical_eq_self_iff (ofCell?_eq_some_iff.1 hcell).1]

theorem ofList_listed_eq_self_iff :
    Memory.ofList (encode (listed m)) = m ↔
      ∀ pc ∈ statements m, ∀ ins, shown? m pc = some ins →
        IsCanonical ins.op.arity (m.cells.getD pc 0) := by
  constructor
  · intro heq pc hpc ins hs
    have hcell := getD_restored (m := m) pc
    rw [heq, if_pos (bounds_of_mem hpc).2] at hcell
    exact (restored_eq_self_iff hpc hs).1 hcell.symm
  · intro h
    have hcells : ∀ a, a < m.size → restored m (statements m) a = m.cells.getD a 0 := by
      intro a _
      by_cases hmem : a ∈ statements m
      · cases hs : shown? m a with
        | none => exact restored_of_not_shown fun _ => hs
        | some ins => exact (restored_eq_self_iff hmem hs).2 (h a hmem ins hs)
      · exact restored_of_not_shown fun hmem' => absurd hmem' hmem
    obtain ⟨cells⟩ := m
    rw [Memory.ofList, Memory.mk.injEq, encode_listed]
    apply Array.ext
    · simp [Memory.size]
    · intro a ha ha'
      have hcell := hcells a ha'
      simpa [ha'] using hcell

end Restored

/-- The round trip: a memory that shows no immediate destination is swept into a text
that is assembled to a memory of the same size. The cells of the instructions that the
sweep visits are canonical there, and all other cells are as before; so nothing has
changed exactly if those cells were canonical already. -/
theorem assemble_sweep {m : Memory} (hm : m.size ≠ 0) (hd : PlainDestinations m) (file : String) :
    ∃ sink m', Sweep m 0 .unbounded (statements m) sink ∧
      assemble file (Text.ofByteArray sink.content) none = .ok m' ∧ m'.size = m.size ∧
      (∀ pc ∈ statements m, ∀ ins, shown? m pc = some ins →
        m'.cells.getD pc 0 = canonical ins.op.arity (m.cells.getD pc 0)) ∧
      (∀ a, (a ∈ statements m → shown? m a = none) →
        m'.cells.getD a 0 = m.cells.getD a 0) ∧
      (m' = m ↔ ∀ pc ∈ statements m, ∀ ins, shown? m pc = some ins →
        IsCanonical ins.op.arity (m.cells.getD pc 0)) := by
  refine ⟨_, .ofList (encode (listed m)), sweep_source m, ?_, size_restored, ?_, ?_,
    ofList_listed_eq_self_iff⟩
  · rw [ofByteArray_source]
    exact assemble_source hm hd file
  · intro pc hpc ins hs
    rw [getD_restored, if_pos (bounds_of_mem hpc).2, restored_of_shown hpc hs]
  · intro a ha
    rw [getD_restored]
    split
    · exact restored_of_not_shown ha
    · next hout =>
      have hsize : m.cells.size ≤ a := Nat.le_of_not_lt hout
      simp [hsize]

/-- An instruction with a mode digit of two, the least value there is, and an operation
whose parameter would lie behind the end. -/
def mixed : Memory :=
  ⟨#[1201, 7, -9223372036854775808, 0, 99, 104]⟩

theorem statements_mixed : statements mixed = [0, 4, 5] := by
  decide +kernel

theorem assemble_sweep_mixed :
    mixed.size ≠ 0 ∧ PlainDestinations mixed ∧
      ∃ sink m', Sweep mixed 0 .unbounded [0, 4, 5] sink ∧
        assemble "mixed" (Text.ofByteArray sink.content) none = .ok m' ∧ m'.size = 6 ∧
        m'.cells.getD 0 0 = 1101 ∧ m'.cells.getD 2 0 = -9223372036854775808 ∧
        m'.cells.getD 5 0 = 104 ∧ m' ≠ mixed := by
  have hsize : mixed.size ≠ 0 := by decide
  have hplain : PlainDestinations mixed := by decide +kernel
  obtain ⟨sink, m', hsweep, hok, hlen, hshown, hsame, heq⟩ := assemble_sweep hsize hplain "mixed"
  rw [statements_mixed] at hsweep hshown hsame heq
  have hadd : shown? mixed 0 = some ⟨.add, [.immediate, .immediate, .position]⟩ := by
    decide +kernel
  refine ⟨hsize, hplain, sink, m', hsweep, hok, hlen, ?_, ?_, ?_, ?_⟩
  · rw [hshown 0 (by decide) _ hadd]
    decide +kernel
  · exact hsame 2 (by decide)
  · exact hsame 5 fun _ => by decide +kernel
  · intro h
    have hdigit : modeDigit (mixed.cells.getD 0 0) 0 ≤ 1 := (heq.1 h 0 (by decide) _ hadd 0).1
    exact absurd hdigit (by decide +kernel)

/-- A sweep is assembled exactly if there was something to sweep and it met no mode
digit on a destination. -/
theorem sweep_accepted_iff (m : Memory) (file : String) :
    ∃ sink, Sweep m 0 .unbounded (statements m) sink ∧
      ((∃ m', assemble file (Text.ofByteArray sink.content) none = .ok m') ↔
        m.size ≠ 0 ∧ PlainDestinations m) := by
  refine ⟨_, sweep_source m, ?_⟩
  rw [ofByteArray_source]
  exact assembles_source_iff m file

/-- An input with a mode digit on its destination is shown as `in #0`, which no file can
contain. -/
theorem sweep_immediate_input :
    ∃ sink, Sweep ⟨#[103, 0]⟩ 0 .unbounded [0] sink ∧ sink.content = "in #0\n".toUTF8 ∧
      ∀ file m', assemble file (Text.ofByteArray sink.content) none ≠ .ok m' := by
  have hstatements : statements ⟨#[103, 0]⟩ = [0] := by decide +kernel
  have hsource : source ⟨#[103, 0]⟩ = "in #0\n" := by decide +kernel
  have hnot : ¬ PlainDestinations ⟨#[103, 0]⟩ := by decide +kernel
  refine ⟨_, hstatements ▸ sweep_source _, ?_, ?_⟩
  · rw [hsource]
    rfl
  · intro file m' h
    rw [ofByteArray_source] at h
    exact hnot ((assembles_source_iff _ file).1 ⟨m', h⟩).2

end CellMachine.Assembly
