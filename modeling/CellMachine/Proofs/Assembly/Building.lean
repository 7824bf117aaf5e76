import CellMachine.Proofs.Assembly.Blame

/-!
# Building what is read

The assembler builds cells and a table of labels while a reader collects items.
`Builder.Holds` relates the two: the cells are those of the items, with nothing in the
place of labels, and the table is that of the items. A word that the reader takes
keeps this, and a word that it refuses is reported (`Builder.Holds.word`). Nothing
takes a report back (`Builder.Broken.word`), so at the end there is no report exactly
if the reader got through.
-/

set_option autoImplicit false

namespace CellMachine.Assembly

/-- What stands in the cells of an item that is not complete. -/
def Pending.slots : Pending → List Value
  | .statement | .data => []
  | .operands op done => (Item.instruction op done).slots

namespace Reader

/-- What stands in the cells of all that has been read. -/
def slots (r : Reader) : List Value :=
  Assembly.slots r.items ++ r.pending.slots

/-- What the next word is taken for. -/
def expected (r : Reader) : Expected :=
  match r.pending with
  | .statement => .statement
  | .data => .value
  | .operands op done =>
    .operand op (Assembly.slots r.items).length (op.arity - (done.length + 1))

end Reader

/-- The cell of a value while labels have no address. -/
def Value.blank (v : Value) : Cell :=
  v.cell fun _ => 0

namespace Builder

/-! ## Reports stay -/

theorem Broken.word {a : Builder} (h : a.Broken) (position : Position) (w : Text) :
    (a.word position w).Broken :=
  (blames_word a position w).broken h

/-! ## One word -/

/-- The builder has built what the reader has read. -/
structure Holds (a : Builder) (r : Reader) : Prop where
  clean : a.diagnostics = #[]
  cells : a.cells.toList = r.slots.map Value.blank
  table : Table a.labels (r.slots.map Value.name?) r.items
  expected : a.expected = r.expected
  room : ∀ op done, r.pending = .operands op done → done.length < op.arity

theorem holds_start : Holds start ⟨[], .statement⟩ :=
  ⟨rfl, rfl, table_nil, rfl, nofun⟩

theorem Holds.size {a : Builder} {r : Reader} (h : a.Holds r) : a.cells.size = r.slots.length := by
  rw [← Array.length_toList, h.cells, List.length_map]

/-- Between two items there are only the cells of whole items. -/
theorem Holds.between {a : Builder} {items : List Item} {p : Pending} (h : a.Holds ⟨items, p⟩)
    (hp : p.slots = []) :
    a.cells.toList = (slots items).map Value.blank ∧
      Table a.labels ((slots items).map Value.name?) items ∧
      a.cells.size = (slots items).length := by
  have hslots : Reader.slots ⟨items, p⟩ = slots items := by
    rw [Reader.slots, hp, List.append_nil]
  rw [← hslots]
  exact ⟨h.cells, h.table, h.size⟩

@[simp] theorem cells_define (a : Builder) (position : Position) (name : String) :
    (a.define position name).cells = a.cells := by
  unfold Builder.define
  split
  · rfl
  · split
    · exact cells_report a position _
    · rfl

@[simp] theorem expected_define (a : Builder) (position : Position) (name : String) :
    (a.define position name).expected = a.expected := by
  unfold Builder.define
  split
  · rfl
  · split
    · exact expected_report a position _
    · rfl

/-- A value that can be read gets a cell. -/
theorem value_of_read {a : Builder} {refs : List (Option String)} {items : List Item} {w : Text}
    {v : Value} (hv : Value.read? w = some v) (h : Table a.labels refs items)
    (hsize : a.cells.size = refs.length) (position : Position) :
    (a.value position w).cells = a.cells.push v.blank ∧
      Table (a.value position w).labels (refs ++ [v.name?]) items ∧
      (a.value position w).diagnostics = a.diagnostics := by
  cases v with
  | literal n =>
    rw [value_literal hv]
    exact ⟨rfl, h.literal, rfl⟩
  | label name =>
    rw [value_label hv]
    refine ⟨?_, table_useLabel h hsize position, diagnostics_useLabel a position name⟩
    show (a.useLabel position name).cells.push 0 = a.cells.push 0
    rw [cells_useLabel]

/-- A value that cannot be read is reported. -/
theorem broken_value {w : Text} (hv : Value.read? w = none) (a : Builder) (position : Position) :
    (a.value position w).Broken := by
  rw [value_unread hv]
  exact broken_report a position _

theorem headCell_append (op : Opcode) (done : List Operand) (o : Operand) :
    headCell op (done ++ [o]) =
      headCell op done + if o.immediate then modeWeight done.length else 0 := by
  have hpow : Nat.pow 10 done.length * 100 = Nat.pow 10 (done.length + 2) :=
    (Nat.mul_assoc _ 10 10).symm
  rw [headCell, modeSum_append, hpow, ← Nat.add_assoc, Int64.ofNat_add, ← headCell]
  cases o.immediate <;> rfl

theorem modify_middle (front back : List Cell) (v : Cell) (f : Cell → Cell) :
    (front ++ v :: back).modify front.length f = front ++ f v :: back := by
  induction front with
  | nil => rfl
  | cons u front ih => simp [ih]

/-- Cells of an instruction some of whose operands have been read. -/
structure Halfway (a : Builder) (items : List Item) (op : Opcode) (done : List Operand) : Prop where
  clean : a.diagnostics = #[]
  cells : a.cells.toList = (slots items ++ (Item.instruction op done).slots).map Value.blank
  table : Table a.labels ((slots items ++ (Item.instruction op done).slots).map Value.name?) items

/-- With the operands it has, an instruction is complete or waits for the next. -/
theorem Halfway.holds {a : Builder} {items : List Item} {op : Opcode} {done : List Operand}
    (h : a.Halfway items op done) (hle : done.length ≤ op.arity)
    (he : a.expected = expect op (slots items).length (op.arity - done.length)) (p : Pending) :
    a.Holds (Reader.hold ⟨items, p⟩ op done) := by
  unfold Reader.hold
  split
  · next hlen =>
    have hslots : Reader.slots ⟨items ++ [.instruction op done], .statement⟩ =
        slots items ++ (Item.instruction op done).slots := by
      simp [Reader.slots, slots, Pending.slots]
    refine ⟨h.clean, ?_, ?_, ?_, nofun⟩
    · rw [hslots]
      exact h.cells
    · rw [hslots]
      exact h.table.item nofun
    · rw [he, hlen, Nat.sub_self]
      rfl
  · next hlen =>
    -- the operands to come are counted from one, the ones left from zero
    refine ⟨h.clean, h.cells, h.table, ?_, ?_⟩
    · rw [he, show op.arity - done.length = op.arity - (done.length + 1) + 1 by omega]
      rfl
    · intro op' done' heq
      cases heq
      omega

theorem Halfway.cells_eq {a : Builder} {items : List Item} {op : Opcode} {done : List Operand}
    (h : a.Halfway items op done) :
    a.cells.toList = (slots items).map Value.blank ++
      headCell op done :: (done.map Operand.value).map Value.blank := by
  rw [h.cells, List.map_append]
  rfl

/-- The instruction has one more operand if there is one more cell and the
instruction cell is right. -/
theorem Halfway.append {a b : Builder} {items : List Item} {op : Opcode} {done : List Operand}
    {o : Operand} (h : a.Halfway items op done) (hclean : b.diagnostics = a.diagnostics)
    (hcells : b.cells.toList = (slots items).map Value.blank ++
      headCell op (done ++ [o]) :: (done.map Operand.value).map Value.blank ++ [o.value.blank])
    (htable : Table b.labels
      ((slots items ++ (Item.instruction op done).slots).map Value.name? ++ [o.value.name?])
      items) :
    b.Halfway items op (done ++ [o]) := by
  refine ⟨hclean.trans h.clean, ?_, ?_⟩
  · rw [hcells]
    simp [Item.slots, Value.blank, Value.cell]
  · have hrefs : (slots items ++ (Item.instruction op (done ++ [o])).slots).map Value.name? =
        (slots items ++ (Item.instruction op done).slots).map Value.name? ++ [o.value.name?] := by
      simp [Item.slots, Value.name?]
    rw [hrefs]
    exact htable

/-- An operand that can be read gets a cell, and its mode a digit. -/
theorem Halfway.operand {a : Builder} {items : List Item} {op : Opcode} {done : List Operand}
    {o : Operand} {w : Text} (h : a.Halfway items op done)
    (ho : Operand.read? op done.length w = some o) (position : Position) :
    (a.operand position op (slots items).length done.length w).Halfway items op (done ++ [o]) := by
  have hsize : a.cells.size =
      ((slots items ++ (Item.instruction op done).slots).map Value.name?).length := by
    rw [← Array.length_toList, h.cells, List.length_map, List.length_map]
  by_cases hw : ∃ rest, w = .char '#' :: rest
  · obtain ⟨rest, rfl⟩ := hw
    rw [Operand.read?_hash] at ho
    split at ho
    · cases ho
    · next hdest =>
      obtain ⟨v, hv, rfl⟩ := Option.map_eq_some_iff.1 ho
      rw [operand_hash, if_neg hdest]
      have htable₀ : Table (a.addTo (slots items).length (modeWeight done.length)).labels
          ((slots items ++ (Item.instruction op done).slots).map Value.name?) items := h.table
      have hsize' : (a.addTo (slots items).length (modeWeight done.length)).cells.size =
          ((slots items ++ (Item.instruction op done).slots).map Value.name?).length := by
        rw [← hsize]
        exact Array.size_modify
      obtain ⟨hcells, htable, hclean⟩ := value_of_read hv htable₀ hsize' position
      refine h.append hclean ?_ htable
      show ((a.addTo (slots items).length (modeWeight done.length)).value position
        rest).cells.toList = _
      -- the weight goes to the first cell of the instruction
      have hlen : (slots items).length = ((slots items).map Value.blank).length := by
        rw [List.length_map]
      rw [hcells, Array.toList_push, addTo, Array.toList_modify, h.cells_eq, hlen, modify_middle,
        headCell_append]
      rfl
  · have hplain : ∀ rest, w ≠ .char '#' :: rest := not_exists.1 hw
    rw [Operand.read?_plain op _ hplain] at ho
    rw [operand_plain a position op _ _ hplain]
    obtain ⟨v, hv, rfl⟩ := Option.map_eq_some_iff.1 ho
    obtain ⟨hcells, htable, hclean⟩ := value_of_read hv h.table hsize position
    refine h.append hclean ?_ htable
    rw [hcells, Array.toList_push, h.cells_eq, headCell_append]
    simp

theorem broken_operand {op : Opcode} {k : Nat} {w : Text} (ho : Operand.read? op k w = none)
    (a : Builder) (position : Position) (start : Nat) :
    (a.operand position op start k w).Broken := by
  by_cases hw : ∃ rest, w = .char '#' :: rest
  · obtain ⟨rest, rfl⟩ := hw
    rw [Operand.read?_hash] at ho
    rw [operand_hash]
    split at ho
    · next hdest =>
      rw [if_pos hdest]
      refine (blames_value (Or.inl rfl) _ position).broken ?_
      exact broken_report a position _
    · exact broken_value (Option.map_eq_none_iff.1 ho) _ position
  · have hplain : ∀ rest, w ≠ .char '#' :: rest := not_exists.1 hw
    rw [Operand.read?_plain op _ hplain] at ho
    rw [operand_plain a position op _ _ hplain]
    exact broken_value (Option.map_eq_none_iff.1 ho) a position

/-- The builder holds what the reader has after a word, or reports that the reader has
refused it. -/
def Follows (a : Builder) : Option Reader → Prop
  | some r => a.Holds r
  | none => a.Broken

theorem Holds.statement {a : Builder} {items : List Item} (h : a.Holds ⟨items, .statement⟩)
    (position : Position) (w : Text) :
    (a.statement position w).Follows (Reader.statement ⟨items, .statement⟩ w) := by
  obtain ⟨hcells, htable, hsize⟩ := h.between rfl
  unfold Builder.statement
  split
  · next name =>
    rw [Reader.statement_colon]
    by_cases hname : isLabelName name = true
    · rw [if_pos hname]
      -- a definition is refused for an item before it, whatever was used so far
      by_cases hold : .label (Text.toString name) ∈ items
      · rw [if_neg (fun hc => hc.2 hold)]
        exact broken_define htable hold position
      · rw [if_pos ⟨hname, hold⟩]
        obtain ⟨htable', hclean⟩ := table_define htable hsize hold position
        have hslots' : Reader.slots ⟨items ++ [.label (Text.toString name)], .statement⟩ =
            slots items := by
          simp [Reader.slots, Pending.slots, slots, Item.slots]
        refine ⟨hclean.trans h.clean, ?_, ?_, ?_, nofun⟩
        · rw [hslots', cells_define, hcells]
        · rw [hslots']
          exact htable'
        · rw [expected_define]
          exact h.expected
    · rw [if_neg hname, if_neg (fun hc => hname hc.1)]
      exact broken_report a position _
  · next hne =>
    rw [Reader.statement_other _ hne]
    split
    · exact ⟨h.clean, h.cells, h.table, rfl, nofun⟩
    · cases operation? w with
      | none => exact broken_report a position _
      | some op =>
        have hhalf : Halfway { a.emit (Int64.ofNat op.code) with
            expected := expect op a.cells.size op.arity } items op [] := by
          refine ⟨h.clean, ?_, ?_⟩
          · show (a.cells.push (Int64.ofNat op.code)).toList = _
            rw [Array.toList_push, hcells, List.map_append]
            rfl
          · rw [List.map_append]
            exact htable.literal
        refine hhalf.holds (Nat.zero_le _) ?_ _
        rw [← hsize]
        rfl

theorem Holds.value {a : Builder} {items : List Item} (h : a.Holds ⟨items, .data⟩)
    (position : Position) (w : Text) :
    { a.value position w with expected := .statement }.Follows (Reader.step ⟨items, .data⟩ w) := by
  obtain ⟨hcells, htable, hsize⟩ := h.between rfl
  simp only [Reader.step]
  cases hv : Value.read? w with
  | none => exact broken_value hv a position
  | some v =>
    obtain ⟨hcells', htable', hclean⟩ :=
      value_of_read hv htable (by rw [hsize, List.length_map]) position
    have hslots' : Reader.slots ⟨items ++ [.data v], .statement⟩ = slots items ++ [v] := by
      simp [Reader.slots, Pending.slots, slots, Item.slots]
    refine ⟨hclean.trans h.clean, ?_, ?_, rfl, ?_⟩
    · rw [hslots']
      show (a.value position w).cells.toList = _
      rw [hcells', Array.toList_push, hcells, List.map_append]
      rfl
    · rw [hslots', List.map_append]
      refine htable'.item ?_
      intro name heq
      cases heq
    · intro op done hp
      cases hp

theorem Holds.operand {a : Builder} {items : List Item} {op : Opcode} {done : List Operand}
    (h : a.Holds ⟨items, .operands op done⟩) (position : Position) (w : Text) :
    { a.operand position op (slots items).length done.length w with
      expected := expect op (slots items).length (op.arity - (done.length + 1)) }.Follows
        (Reader.step ⟨items, .operands op done⟩ w) := by
  have hroom : done.length < op.arity := h.room op done rfl
  have hhalf : a.Halfway items op done := ⟨h.clean, h.cells, h.table⟩
  simp only [Reader.step]
  cases ho : Operand.read? op done.length w with
  | none => exact broken_operand ho a position _
  | some o =>
    have hnext := hhalf.operand ho position
    have hnext' : Halfway { a.operand position op (slots items).length done.length w with
        expected := expect op (slots items).length (op.arity - (done.length + 1)) }
        items op (done ++ [o]) := ⟨hnext.clean, hnext.cells, hnext.table⟩
    refine hnext'.holds ?_ ?_ _
    · rw [List.length_append]
      exact hroom
    · rw [List.length_append]
      rfl

/-- The builder takes the words that the reader takes, and reports the others. -/
theorem Holds.word {a : Builder} {r : Reader} (h : a.Holds r) (position : Position) (w : Text) :
    (a.word position w).Follows (r.step w) := by
  obtain ⟨items, pending⟩ := r
  have he := h.expected
  cases pending with
  | statement =>
    rw [Builder.word, he]
    exact h.statement position w
  | data =>
    rw [Builder.word, he]
    exact h.value position w
  | operands op done =>
    have hroom : done.length < op.arity := h.room op done rfl
    have hplace : op.arity - (op.arity - (done.length + 1) + 1) = done.length := by omega
    rw [Builder.word, he]
    simp only [Reader.expected, hplace]
    exact h.operand position w

/-! ## All words -/

/-- Takes the words of some tokens. -/
def words (a : Builder) (tokens : List Token) : Builder :=
  tokens.foldl (fun a t => a.word t.position t.text) a

theorem Broken.words {a : Builder} (h : a.Broken) (tokens : List Token) :
    (a.words tokens).Broken := by
  induction tokens generalizing a with
  | nil => exact h
  | cons t rest ih => exact ih (h.word t.position t.text)

theorem Holds.words {a : Builder} {r : Reader} (h : a.Holds r) (tokens : List Token) :
    (a.words tokens).Follows ((tokens.map Token.text).foldlM Reader.step r) := by
  induction tokens generalizing a r with
  | nil => exact h
  | cons t rest ih =>
    have hone := h.word t.position t.text
    rw [List.map_cons, List.foldlM_cons]
    cases hs : r.step t.text with
    | none =>
      rw [hs] at hone
      exact Broken.words hone rest
    | some r' =>
      rw [hs] at hone
      exact ih hone

end Builder

end CellMachine.Assembly
