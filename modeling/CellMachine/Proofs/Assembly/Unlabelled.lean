import CellMachine.Proofs.Assembly.Roundtrip

/-!
# Programs without their labels

In a memory that has been assembled from instructions alone, a sweep finds these instructions
again. It knows where a statement ends only from the cell at its start. That cell holds the
operation and the modes as they were written, since filling in addresses changes operands only. So
one statement leads to the next instruction of the program (`statementsFrom_encode`), and the sweep
stays on the program from its first cell to its last.

What is written is the program with the addresses in place of its labels. Laid out again it gives
the same cells (`encode_listed_encode`), so it is assembled to the same memory
(`sweep_unlabelled`).
-/

set_option autoImplicit false

namespace CellMachine.Assembly

open Listing

/-- An instruction of a program and its address. -/
structure Placed where
  address : Nat
  op : Opcode
  operands : List Operand
deriving DecidableEq, Inhabited

/-- The instructions of a program that starts at an address. -/
def placed : Nat → List Item → List Placed
  | _, [] => []
  | pc, .label _ :: rest => placed pc rest
  | pc, .data _ :: rest => placed (pc + 1) rest
  | pc, .instruction op operands :: rest =>
    ⟨pc, op, operands⟩ :: placed (pc + (operands.length + 1)) rest

/-- An operand with an address in place of a label. -/
def Operand.resolved (address : String → Nat) (o : Operand) : Operand :=
  ⟨o.immediate, .literal (o.value.cell address)⟩

/-- An operand as it is written behind a mnemonic, with an address in place of a label. -/
def Operand.text (address : String → Nat) (o : Operand) : String :=
  parameterText o.immediate (o.value.cell address)

/-- An instruction in its own words, with addresses in place of labels. -/
def Placed.text (address : String → Nat) (p : Placed) : String :=
  p.op.name ++ String.join (p.operands.map (Operand.text address))

/-! ## One instruction -/

section Instruction

variable (before after : List Item) {op : Opcode} {operands : List Operand}

theorem size_encode (items : List Item) :
    (Memory.ofList (encode items)).size = (slots items).length := by
  simp [Memory.size, Memory.ofList, encode]

theorem slots_around (op : Opcode) (operands : List Operand) :
    slots (before ++ .instruction op operands :: after) =
      slots before ++ (.literal (headCell op operands) :: operands.map Operand.value) ++
        slots after := by
  rw [slots_append, List.append_assoc]
  rfl

/-- The instruction is shown as it was written. -/
theorem shown?_encode (h : operands.length = op.arity) :
    shown? (.ofList (encode (before ++ .instruction op operands :: after)))
      (slots before).length = some ⟨op, operands.map Operand.mode⟩ := by
  have hroom : (slots before).length + op.arity <
      (Memory.ofList (encode (before ++ .instruction op operands :: after))).size := by
    rw [size_encode, slots_around]
    simp only [List.length_append, List.length_cons, List.length_map]
    omega
  simp only [shown?, decode_encode h, hroom, if_true]

/-- Its operands are in the cells behind it. -/
theorem getD_operand {k : Nat} {o : Operand} (hk : operands[k]? = some o) :
    (Memory.ofList (encode (before ++ .instruction op operands :: after))).cells.getD
        ((slots before).length + 1 + k) 0 =
      o.value.cell (addressOf (before ++ .instruction op operands :: after)) := by
  have hslot : (slots (before ++ .instruction op operands :: after))[(slots before).length + 1 + k]? =
      some o.value := by
    have hindex : (slots before).length + 1 + k - (slots before).length = k + 1 := by omega
    have hlt : k < (operands.map Operand.value).length := by
      rw [List.length_map]
      exact (List.getElem?_eq_some_iff.1 hk).1
    rw [slots_around, List.append_assoc, List.getElem?_append_right (by omega), hindex,
      List.cons_append, List.getElem?_cons_succ, List.getElem?_append_left hlt,
      List.getElem?_map, hk]
    rfl
  simp [Memory.ofList, encode, hslot]

theorem shownOperands_encode (h : operands.length = op.arity) :
    (List.range op.arity).map (shownOperand
        (.ofList (encode (before ++ .instruction op operands :: after)))
        ⟨op, operands.map Operand.mode⟩ (slots before).length) =
      operands.map (Operand.resolved (addressOf (before ++ .instruction op operands :: after))) := by
  apply List.ext_getElem?
  intro k
  rw [List.getElem?_map, List.getElem?_map]
  cases hk : operands[k]? with
  | none =>
    have hout : op.arity ≤ k := by
      rw [← h]
      exact List.getElem?_eq_none_iff.1 hk
    rw [List.getElem?_eq_none (by rw [List.length_range]; exact hout)]
    rfl
  | some o =>
    have hlt : k < op.arity := by
      rw [← h]
      exact (List.getElem?_eq_some_iff.1 hk).1
    have hmode : Instruction.mode ⟨op, operands.map Operand.mode⟩ k = o.mode := by
      simp [Instruction.mode, hk]
    have himmediate : decide (o.mode = .immediate) = o.immediate := by
      cases hi : o.immediate <;> simp [Operand.mode, hi]
    rw [List.getElem?_range hlt, Option.map_some, Option.map_some, shownOperand, hmode,
      himmediate, getD_operand before after hk]
    rfl

end Instruction

/-! ## The whole program -/

/-- The items are instructions and labels, and each instruction has all its operands. -/
structure Plain (items : List Item) : Prop where
  code : ∀ v, .data v ∉ items
  complete : ∀ op operands, .instruction op operands ∈ items → operands.length = op.arity

theorem Plain.tail {item : Item} {rest : List Item} (h : Plain (item :: rest)) : Plain rest :=
  ⟨fun v hv => h.code v (List.mem_cons_of_mem item hv),
    fun op operands hmem => h.complete op operands (List.mem_cons_of_mem item hmem)⟩

/-- A sweep goes from one instruction to the next. -/
theorem statementsFrom_encode (before : List Item) {after : List Item} (h : Plain after) :
    statementsFrom (.ofList (encode (before ++ after))) (slots before).length =
      (placed (slots before).length after).map Placed.address := by
  induction after generalizing before with
  | nil =>
    rw [statementsFrom, if_neg]
    · rfl
    · rw [size_encode, List.append_nil]
      exact Nat.lt_irrefl _
  | cons item rest ih =>
    -- the first item goes over to the items before, and the address with it
    have hstep := ih (before ++ [item]) h.tail
    rw [List.append_assoc, List.singleton_append, slots_append, List.length_append] at hstep
    cases item with
    | label name => exact hstep
    | data v => exact absurd List.mem_cons_self (h.code v)
    | instruction op operands =>
      have hlen : operands.length = op.arity := h.complete op operands List.mem_cons_self
      have hsize : (slots [Item.instruction op operands]).length = operands.length + 1 := by
        simp [slots, Item.slots]
      have hlt : (slots before).length <
          (Memory.ofList (encode (before ++ .instruction op operands :: rest))).size := by
        rw [size_encode, slots_around]
        simp only [List.length_append, List.length_cons]
        omega
      have hstatement : statementSize (.ofList (encode (before ++ .instruction op operands :: rest)))
          (slots before).length = operands.length + 1 := by
        simp only [statementSize, shown?_encode before rest hlen, hlen]
      rw [hsize] at hstep
      -- the statement is as long as the item, so the sweep goes on where the next item is
      rw [statementsFrom, if_pos hlt, hstatement, hstep]
      rfl

/-- Every instruction of the program stands at its address. -/
theorem of_mem_placed (before : List Item) {after : List Item} {p : Placed}
    (h : p ∈ placed (slots before).length after) :
    ∃ front back, before ++ after = front ++ .instruction p.op p.operands :: back ∧
      p.address = (slots front).length ∧ .instruction p.op p.operands ∈ after := by
  induction after generalizing before with
  | nil => cases h
  | cons item rest ih =>
    have hstep := ih (before ++ [item])
    rw [List.append_assoc, List.singleton_append, slots_append, List.length_append] at hstep
    have hrest : p ∈ placed ((slots before).length + (slots [item]).length) rest →
        ∃ front back, before ++ item :: rest = front ++ .instruction p.op p.operands :: back ∧
          p.address = (slots front).length ∧ .instruction p.op p.operands ∈ item :: rest := by
      intro hp
      obtain ⟨front, back, hsplit, haddress, hmem⟩ := hstep hp
      exact ⟨front, back, hsplit, haddress, List.mem_cons_of_mem item hmem⟩
    cases item with
    | label name => exact hrest h
    | data v => exact hrest h
    | instruction op operands =>
      rcases List.mem_cons.1 h with rfl | h
      · exact ⟨before, rest, rfl, rfl, List.mem_cons_self⟩
      · apply hrest
        simpa [slots, Item.slots] using h

section Whole

variable {items : List Item} (h : Plain items)

include h

theorem statements_encode :
    statements (.ofList (encode items)) = (placed 0 items).map Placed.address :=
  statementsFrom_encode [] h

/-- What is found at the address of an instruction. -/
theorem shown?_placed {p : Placed} (hp : p ∈ placed 0 items) :
    shown? (.ofList (encode items)) p.address = some ⟨p.op, p.operands.map Operand.mode⟩ ∧
      (List.range p.op.arity).map (shownOperand (.ofList (encode items))
          ⟨p.op, p.operands.map Operand.mode⟩ p.address) =
        p.operands.map (Operand.resolved (addressOf items)) := by
  obtain ⟨front, back, hsplit, haddress, hmem⟩ := of_mem_placed [] hp
  have hlen := h.complete _ _ hmem
  rw [List.nil_append] at hsplit
  rw [hsplit, haddress]
  exact ⟨shown?_encode front back hlen, shownOperands_encode front back hlen⟩

theorem statementText_placed {p : Placed} (hp : p ∈ placed 0 items) :
    statementText (.ofList (encode items)) p.address = p.text (addressOf items) := by
  obtain ⟨hshown, hoperands⟩ := shown?_placed h hp
  have htexts := congrArg (List.map (Operand.text (addressOf items))) hoperands
  rw [List.map_map, List.map_map] at htexts
  rw [statementText_of_shown hshown]
  exact congrArg (fun texts => p.op.name ++ String.join texts) htexts

theorem source_encode :
    source (.ofList (encode items)) =
      String.join ((placed 0 items).map fun p => p.text (addressOf items) ++ "\n") := by
  rw [source, statements_encode h, List.map_map]
  congr 1
  apply List.map_congr_left
  intro p hp
  rw [Function.comp_apply, statementText_placed h hp]

theorem listed_encode :
    listed (.ofList (encode items)) = (placed 0 items).map fun p =>
      .instruction p.op (p.operands.map (Operand.resolved (addressOf items))) := by
  rw [listed, statements_encode h, List.map_map]
  apply List.map_congr_left
  intro p hp
  obtain ⟨hshown, hoperands⟩ := shown?_placed h hp
  simp only [Function.comp_apply, shownItem, hshown, hoperands]

end Whole

/-! ## The same cells -/

theorem modeSum_resolved (address : String → Nat) (weight : Nat) (operands : List Operand) :
    modeSum weight (operands.map (Operand.resolved address)) = modeSum weight operands := by
  induction operands generalizing weight with
  | nil => rfl
  | cons o rest ih =>
    rw [List.map_cons, modeSum, ih]
    rfl

/-- An address in place of a label takes the same cell. -/
theorem slots_resolved (address : String → Nat) {items : List Item} (h : Plain items) (pc : Nat) :
    slots ((placed pc items).map fun p =>
        .instruction p.op (p.operands.map (Operand.resolved address))) =
      (slots items).map fun v => .literal (v.cell address) := by
  induction items generalizing pc with
  | nil => rfl
  | cons item rest ih =>
    cases item with
    | label name => exact ih h.tail pc
    | data v => exact absurd List.mem_cons_self (h.code v)
    | instruction op operands =>
      have hhead : headCell op (operands.map (Operand.resolved address)) = headCell op operands := by
        rw [headCell, headCell, modeSum_resolved]
      have hfirst : Item.slots (.instruction op (operands.map (Operand.resolved address))) =
          (Item.slots (.instruction op operands)).map fun v => .literal (v.cell address) := by
        simp only [Item.slots, hhead, List.map_cons, List.map_map]
        rfl
      have hrest := ih h.tail (pc + (operands.length + 1))
      rw [slots] at hrest
      rw [placed, List.map_cons, slots, List.flatMap_cons, hfirst, hrest, ← List.map_append]
      rfl

/-- The program without its labels has the cells of the program. -/
theorem encode_listed_encode {items : List Item} (h : Plain items) :
    encode (listed (.ofList (encode items))) = encode items := by
  rw [encode, listed_encode h, slots_resolved _ h, List.map_map]
  rfl

/-- An address in place of a label does not make an operand immediate. -/
theorem plainDestinations_encode {items : List Item} (h : Plain items) (hlaw : Lawful items) :
    PlainDestinations (.ofList (encode items)) := by
  intro pc hpc ins hs
  apply (allows_shown_iff (bounds_of_mem hpc).2 hs).1
  have hmem := instruction_mem_listed.2 ⟨pc, hpc, ins, hs, rfl, rfl⟩
  rw [listed_encode h] at hmem
  obtain ⟨p, hp, heq⟩ := List.mem_map.1 hmem
  injection heq with hop hoperands
  rw [← hoperands, ← hop]
  -- the mark of an operand is that of the operand in the program
  obtain ⟨-, -, -, -, hitem⟩ := of_mem_placed [] hp
  intro k o hk himmediate
  rw [List.getElem?_map, Option.map_eq_some_iff] at hk
  obtain ⟨o', hk', rfl⟩ := hk
  exact hlaw.allowed _ _ hitem k o' hk' himmediate

/-- A source text without data directives that has been assembled is swept instruction by
instruction, in its own order and nowhere else. Each instruction is written with the first name of
its operation, its marks, and the addresses in place of labels, and the text is assembled to the
same memory. -/
theorem sweep_unlabelled {file : String} {text : Text} {failure : Option String} {m : Memory}
    (h : assemble file text failure = .ok m) (hdat : Text.ofString ".dat" ∉ wordsOf text)
    (file' : String) :
    ∃ items sink, Splits (wordsOf text) items ∧
      Sweep m 0 .unbounded ((placed 0 items).map Placed.address) sink ∧
      (∀ p ∈ placed 0 items, statementText m p.address = p.text (addressOf items)) ∧
      sink.content =
        (String.join ((placed 0 items).map fun p => p.text (addressOf items) ++ "\n")).toUTF8 ∧
      assemble file' (Text.ofByteArray sink.content) none = .ok m := by
  obtain ⟨hlegible, items, hsplits, hwell⟩ := splits_of_assemble h
  rw [assemble_of_splits hlegible hsplits hwell] at h
  obtain rfl := Except.ok.inj h
  -- a data item would have been spelled with the directive
  have hplain : Plain items := by
    refine ⟨?_, fun op operands hmem => length_of_splits hsplits hmem⟩
    intro v hmem
    obtain ⟨ws, hspelled, hwords⟩ := spelled_of_mem hsplits hmem
    cases hspelled
    exact hdat (hwords _ List.mem_cons_self)
  refine ⟨items, Sink.unbounded.andText (source (.ofList (encode items))), hsplits, ?_,
    fun p hp => statementText_placed hplain hp, ?_, ?_⟩
  · rw [← statements_encode hplain]
    exact sweep_source _
  · rw [Sink.content_andText_unbounded, source_encode hplain]
  · have hsize : (Memory.ofList (encode items)).size ≠ 0 := by
      rw [size_encode]
      exact fun hzero => hwell.nonempty (List.length_eq_zero_iff.1 hzero)
    rw [ofByteArray_source, assemble_source hsize (plainDestinations_encode hplain hwell.toLawful),
      encode_listed_encode hplain]

/-- A jump to a label behind it, with other names for the operations and a comment. -/
theorem assemble_namedJump :
    assemble "x" (.ofString "jnz #a 0 ( c ) :a halt") none = .ok ⟨#[105, 3, 0, 99]⟩ ∧
      Text.ofString ".dat" ∉ wordsOf (.ofString "jnz #a 0 ( c ) :a halt") := by
  decide +kernel

theorem sweep_namedJump :
    assemble "x" (.ofString "jnz #a 0 ( c ) :a halt") none = .ok ⟨#[105, 3, 0, 99]⟩ ∧
      Text.ofString ".dat" ∉ wordsOf (.ofString "jnz #a 0 ( c ) :a halt") ∧
      source ⟨#[105, 3, 0, 99]⟩ = "jt #3 0\nhlt\n" ∧
      ∃ items sink, Splits (wordsOf (.ofString "jnz #a 0 ( c ) :a halt")) items ∧
        Sweep ⟨#[105, 3, 0, 99]⟩ 0 .unbounded ((placed 0 items).map Placed.address) sink ∧
        (∀ p ∈ placed 0 items,
          statementText ⟨#[105, 3, 0, 99]⟩ p.address = p.text (addressOf items)) ∧
        sink.content =
          (String.join ((placed 0 items).map fun p => p.text (addressOf items) ++ "\n")).toUTF8 ∧
        assemble "y" (Text.ofByteArray sink.content) none = .ok ⟨#[105, 3, 0, 99]⟩ := by
  obtain ⟨hrun, hdat⟩ := assemble_namedJump
  exact ⟨hrun, hdat, by decide +kernel, sweep_unlabelled hrun hdat "y"⟩

end CellMachine.Assembly
