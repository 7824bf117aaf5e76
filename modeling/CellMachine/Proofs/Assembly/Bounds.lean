import CellMachine.Proofs.Assembly.Acceptance
import CellMachine.Proofs.Assembly.Tokens

/-!
# The assembler stays within its tables

While it reads, the assembler keeps indices for later: of the cell of the instruction whose
operands are being read, of the weight that belongs to an operand, and of the cells that wait for
a label. `assemble?` is the assembler with all of them checked at the time of use, so that an
index out of range ends the run without an outcome. It is the assembler, on every text
(`assemble?_eq`): that the indices are in range is an invariant of a single word
(`Builder.InRange.word`), whatever has been reported before it.

What comes out is either a list of diagnostics, not empty and not too long, or a memory whose size
and label cells can be read off the items of the text (`assemble_total`).
-/

set_option autoImplicit false

namespace CellMachine.Assembly

namespace Builder

/-! ## Checked steps -/

/-- The weights of the mode digits, by the place of the operand. -/
def modeWeights : List Cell :=
  [100, 1000, 10000]

/-- The weight for an operand with `left` more to come. The place is counted from the front. -/
def weight? (op : Opcode) (left : Nat) : Option Cell :=
  if left < op.arity then modeWeights[op.arity - (left + 1)]? else none

/-- Adds `v` to a cell, if there is such a cell. -/
def addTo? (a : Builder) (index : Nat) (v : Cell) : Option Builder :=
  if index < a.cells.size then some (a.addTo index v) else none

/-- Adds an operand of the instruction in cell `start`, with `left` more to come. -/
def operand? (a : Builder) (position : Position) (op : Opcode) (start left : Nat) (word : Text) :
    Option Builder :=
  match word with
  | .char '#' :: rest =>
    let a :=
      if op.isDestination (op.arity - (left + 1)) then
        a.report position (.immediateDestination word)
      else a
    (weight? op left).bind fun weight => (a.addTo? start weight).map (·.value position rest)
  | word => some (a.value position word)

/-- Takes a word as the start of a statement, by its first glyph. -/
def statement? (a : Builder) (position : Position) (word : Text) : Option Builder :=
  if word = [] then none else some (a.statement position word)

/-- Takes a word for what is expected. -/
def word? (a : Builder) (position : Position) (w : Text) : Option Builder :=
  match a.expected with
  | .statement => a.statement? position w
  | .value => some { a.value position w with expected := .statement }
  | .operand op start left =>
    (a.operand? position op start left w).map ({ · with expected := expect op start left })

/-- Takes a token. -/
def feed? (a : Builder) (t : Token) : Option Builder :=
  let a := t.complaints.foldl (fun a c => a.report t.position (.glyph c)) a
  if a.comment then some { a with comment := !(t.isWord && t.text == [.char ')']) }
  else if !t.isWord then some (a.report t.position (.unexpected t.text))
  else if t.text = [.char '('] then some { a with comment := true }
  else a.word? t.position t.text

/-- The cells with `v` in the given places, if there are such places. -/
def fill? (v : Cell) (uses : List Nat) (cells : Array Cell) : Option (Array Cell) :=
  uses.foldlM (fun cells i => if h : i < cells.size then some (cells.set i v h) else none) cells

/-- Fills in the cells that refer to a label, or reports it as undefined. -/
def resolve? (a : Builder) (l : Label) : Option Builder :=
  match l.address with
  | none => some (a.report l.position (.undefinedLabel l.name))
  | some address => (fill? (Int64.ofNat address) l.uses a.cells).map ({ a with cells := · })

/-- Fills in all labels, in order of their names. -/
def resolveAll? (a : Builder) : Option Builder :=
  (a.labels.mergeSort fun l l' => decide (l.name ≤ l'.name)).foldlM resolve? a

end Builder

/-- Assembles a source text with every index checked. There is no outcome if one is out of
range. -/
def assemble? (file : String) (text : Text) (failure : Option String) :
    Option (Except Refusal Memory) :=
  let source := Source.ofText (readable text failure)
  (source.tokens.toList.foldlM Builder.feed? .start).bind fun a =>
    let a := failure.elim a fun reason => a.report source.finish (.unreadable reason)
    (a.close source.finish).resolveAll?.map fun a => a.result file source.finish

namespace Builder

/-! ## Indices in range -/

/-- The indices that are kept for later are in range, and there are not too many diagnostics. -/
structure InRange (a : Builder) : Prop where
  uses : ∀ l ∈ a.labels, ∀ i ∈ l.uses, i < a.cells.size
  operand : ∀ op start left, a.expected = .operand op start left →
    start < a.cells.size ∧ left < op.arity
  limit : a.diagnostics.size ≤ Diagnostic.limit

theorem inRange_start : start.InRange := by
  refine ⟨?_, ?_, Nat.zero_le _⟩
  · intro l hl
    cases hl
  · intro op start left he
    cases he

section InRange

variable {a : Builder}

theorem InRange.report (h : a.InRange) (position : Position) (problem : Problem) :
    (a.report position problem).InRange := by
  refine ⟨?_, ?_, size_report_le h.limit position problem⟩
  · rw [labels_report, cells_report]
    exact h.uses
  · rw [expected_report, cells_report]
    exact h.operand

/-- One more cell keeps what is in range. -/
theorem InRange.emit (h : a.InRange) (v : Cell) : (a.emit v).InRange := by
  have hsize : (a.emit v).cells.size = a.cells.size + 1 := Array.size_push v
  refine ⟨?_, ?_, h.limit⟩
  · intro l hl i hi
    have hlt := h.uses l hl i hi
    omega
  · intro op start left he
    obtain ⟨hstart, hleft⟩ := h.operand op start left he
    exact ⟨by omega, hleft⟩

theorem InRange.addTo (h : a.InRange) (index : Nat) (v : Cell) : (a.addTo index v).InRange := by
  have hsize : (a.addTo index v).cells.size = a.cells.size := Array.size_modify
  refine ⟨?_, ?_, h.limit⟩
  · intro l hl i hi
    rw [hsize]
    exact h.uses l hl i hi
  · intro op start left he
    rw [hsize]
    exact h.operand op start left he

/-- What is expected next may be anything that refers to a cell. -/
theorem InRange.expecting (h : a.InRange) {e : Expected}
    (he : ∀ op start left, e = .operand op start left → start < a.cells.size ∧ left < op.arity) :
    { a with expected := e }.InRange :=
  ⟨h.uses, he, h.limit⟩

/-- A change of labels under which no cells wait that did not wait before. -/
theorem InRange.updateLabel (h : a.InRange) (name : String) {f : Label → Label}
    (hf : ∀ l, (f l).uses = l.uses) : (a.updateLabel name f).InRange := by
  refine ⟨?_, h.operand, h.limit⟩
  intro l' hl' i hi
  obtain ⟨l, hl, rfl⟩ := List.mem_map.1 hl'
  apply h.uses l hl
  split at hi
  · rwa [hf] at hi
  · exact hi

/-- The cell that waits for a label is the one that is added next. -/
theorem InRange.reference (h : a.InRange) (position : Position) (name : String) :
    ((a.useLabel position name).emit 0).InRange := by
  have hsize : ((a.useLabel position name).emit 0).cells.size = a.cells.size + 1 := by
    show ((a.useLabel position name).cells.push 0).size = _
    rw [Array.size_push, cells_useLabel]
  have hold : ∀ l ∈ a.labels, ∀ i ∈ l.uses, i < a.cells.size + 1 :=
    fun l hl i hi => Nat.lt_succ_of_lt (h.uses l hl i hi)
  refine ⟨?_, ?_, ?_⟩
  · rw [hsize]
    show ∀ l ∈ (a.useLabel position name).labels, ∀ i ∈ l.uses, i < a.cells.size + 1
    unfold useLabel
    -- the cell goes to a new entry or to the one of the label, and other entries stay
    cases a.label? name with
    | none =>
      intro l hl i hi
      rcases List.mem_cons.1 hl with rfl | hl
      · rw [List.mem_singleton.1 hi]
        exact Nat.lt_succ_self _
      · exact hold l hl i hi
    | some _ =>
      intro l' hl' i hi
      obtain ⟨l, hl, rfl⟩ := List.mem_map.1 hl'
      by_cases hn : (l.name == name) = true
      · rw [if_pos hn] at hi
        rcases List.mem_cons.1 hi with rfl | hi
        · exact Nat.lt_succ_self _
        · exact hold l hl i hi
      · rw [if_neg hn] at hi
        exact hold l hl i hi
  · intro op start left he
    have he' : a.expected = .operand op start left := by
      have hsame : (a.useLabel position name).expected = a.expected := by
        unfold useLabel
        split <;> rfl
      rw [← hsame]
      exact he
    obtain ⟨hstart, hleft⟩ := h.operand op start left he'
    exact ⟨by omega, hleft⟩
  · show (a.useLabel position name).diagnostics.size ≤ _
    rw [diagnostics_useLabel]
    exact h.limit

theorem InRange.value (h : a.InRange) (position : Position) (w : Text) :
    (a.value position w).InRange := by
  rcases hv : Value.read? w with _ | (v | name)
  · rw [value_unread hv]
    exact (h.report position _).emit 0
  · rw [value_literal hv]
    exact h.emit v
  · rw [value_label hv]
    exact h.reference position name

theorem InRange.operandOf (h : a.InRange) (position : Position) (op : Opcode) (start k : Nat)
    (w : Text) : (a.operand position op start k w).InRange := by
  by_cases hw : ∃ rest, w = .char '#' :: rest
  · obtain ⟨rest, rfl⟩ := hw
    rw [operand_hash]
    apply InRange.value
    apply InRange.addTo
    split
    · exact h.report position _
    · exact h
  · rw [operand_plain a position op start k (not_exists.1 hw)]
    exact h.value position w

theorem InRange.define (h : a.InRange) (position : Position) (name : String) :
    (a.define position name).InRange := by
  unfold Builder.define
  split
  · -- no cell waits for a label that has not occurred
    refine ⟨?_, h.operand, h.limit⟩
    intro l hl i hi
    rcases List.mem_cons.1 hl with rfl | hl
    · cases hi
    · exact h.uses l hl i hi
  · split
    · exact h.report position _
    · exact h.updateLabel name fun _ => rfl

theorem inRange_expect (a : Builder) (op : Opcode) {start n : Nat} (hstart : start < a.cells.size)
    (hn : n ≤ op.arity) : ∀ op' start' left, expect op start n = .operand op' start' left →
      start' < a.cells.size ∧ left < op'.arity := by
  intro op' start' left he
  cases n with
  | zero => cases he
  | succ n =>
    cases he
    exact ⟨hstart, hn⟩

theorem InRange.statement (h : a.InRange) (position : Position) (w : Text) :
    (a.statement position w).InRange := by
  unfold Builder.statement
  split
  · split
    · exact h.define position _
    · exact h.report position _
  · split
    · refine h.expecting ?_
      intro op start left he
      cases he
    · split
      · exact h.report position _
      · next op _ =>
        refine (h.emit _).expecting (inRange_expect _ op ?_ (Nat.le_refl _))
        show a.cells.size < (a.cells.push _).size
        rw [Array.size_push]
        exact Nat.lt_succ_self _

@[simp] theorem size_value (a : Builder) (position : Position) (w : Text) :
    (a.value position w).cells.size = a.cells.size + 1 := by
  rcases hv : Value.read? w with _ | (v | name)
  · rw [value_unread hv]
    show ((a.report position _).cells.push 0).size = _
    rw [Array.size_push, cells_report]
  · rw [value_literal hv]
    exact Array.size_push v
  · rw [value_label hv]
    show ((a.useLabel position name).cells.push 0).size = _
    rw [Array.size_push, cells_useLabel]

@[simp]
theorem size_operand (a : Builder) (position : Position) (op : Opcode) (start k : Nat) (w : Text) :
    (a.operand position op start k w).cells.size = a.cells.size + 1 := by
  by_cases hw : ∃ rest, w = .char '#' :: rest
  · obtain ⟨rest, rfl⟩ := hw
    rw [operand_hash, size_value]
    congr 1
    refine Array.size_modify.trans ?_
    split
    · rw [cells_report]
    · rfl
  · rw [operand_plain a position op start k (not_exists.1 hw), size_value]

/-- A word keeps all indices in range, and it does not matter what it is. -/
theorem InRange.word (h : a.InRange) (position : Position) (w : Text) :
    (a.word position w).InRange := by
  rw [Builder.word]
  cases he : a.expected with
  | statement => exact h.statement position w
  | value =>
    refine (h.value position w).expecting ?_
    intro op start left heq
    cases heq
  | operand op start left =>
    obtain ⟨hstart, hleft⟩ := h.operand op start left he
    -- the instruction stays where it is while its operands are added behind it
    refine (h.operandOf position op start _ w).expecting (inRange_expect _ op ?_ ?_)
    · rw [size_operand]
      exact Nat.lt_succ_of_lt hstart
    · exact Nat.le_of_lt hleft

theorem InRange.complaints (h : a.InRange) (position : Position) (complaints : List Complaint) :
    (complaints.foldl (fun a c => a.report position (.glyph c)) a).InRange := by
  induction complaints generalizing a with
  | nil => exact h
  | cons c rest ih => exact ih (h.report position _)

theorem InRange.close (h : a.InRange) (position : Position) : (a.close position).InRange := by
  unfold Builder.close
  split
  · exact h
  · exact h.report position _
  · exact h.report position _

end InRange

/-! ## Checked steps succeed -/

section Checked

variable {a : Builder}

/-- The table of weights has a weight for every operand of an instruction. -/
theorem weight?_eq {op : Opcode} {left : Nat} (h : left < op.arity) :
    weight? op left = some (modeWeight (op.arity - (left + 1))) := by
  have hplace : op.arity - (left + 1) < 3 := by
    have hle := arity_le op
    omega
  have htable : ∀ k : Fin 3, modeWeights[k.val]? = some (modeWeight k.val) := by decide
  rw [weight?, if_pos h]
  exact htable ⟨_, hplace⟩

theorem operand?_eq {op : Opcode} {start left : Nat} (hstart : start < a.cells.size)
    (hleft : left < op.arity) (position : Position) (w : Text) :
    a.operand? position op start left w =
      some (a.operand position op start (op.arity - (left + 1)) w) := by
  by_cases hw : ∃ rest, w = .char '#' :: rest
  · obtain ⟨rest, rfl⟩ := hw
    rw [operand_hash]
    show (weight? op left).bind _ = _
    rw [weight?_eq hleft, Option.bind_some, addTo?, if_pos, Option.map_some]
    split
    · rw [cells_report]
      exact hstart
    · exact hstart
  · rw [operand_plain a position op start _ (not_exists.1 hw)]
    unfold operand?
    split
    · next rest => exact absurd ⟨rest, rfl⟩ hw
    · rfl

theorem word?_eq (h : a.InRange) (position : Position) {w : Text} (hw : w ≠ []) :
    a.word? position w = some (a.word position w) := by
  rw [word?, Builder.word]
  cases he : a.expected with
  | statement => exact if_neg hw
  | value => rfl
  | operand op start left =>
    obtain ⟨hstart, hleft⟩ := h.operand op start left he
    simp only [operand?_eq hstart hleft, Option.map_some]

/-- A token is taken without an index out of range, and leaves none for later. -/
theorem feed?_eq (h : a.InRange) {t : Token} (ht : t.text ≠ []) :
    a.feed? t = some (a.feed t) ∧ (a.feed t).InRange := by
  have hc := h.complaints t.position t.complaints
  simp only [feed?, Builder.feed]
  split
  · exact ⟨rfl, ⟨hc.uses, hc.operand, hc.limit⟩⟩
  · split
    · exact ⟨rfl, hc.report t.position _⟩
    · split
      · exact ⟨rfl, ⟨hc.uses, hc.operand, hc.limit⟩⟩
      · exact ⟨word?_eq hc t.position ht, hc.word t.position t.text⟩

theorem feedAll?_eq {tokens : List Token} (h : a.InRange) (ht : ∀ t ∈ tokens, t.text ≠ []) :
    tokens.foldlM feed? a = some (tokens.foldl Builder.feed a) ∧
      (tokens.foldl Builder.feed a).InRange := by
  induction tokens generalizing a with
  | nil => exact ⟨rfl, h⟩
  | cons t rest ih =>
    obtain ⟨hfeed, hnext⟩ := feed?_eq h (ht t List.mem_cons_self)
    rw [List.foldlM_cons, hfeed, List.foldl_cons]
    exact ih hnext fun t' ht' => ht t' (List.mem_cons_of_mem t ht')

theorem fill?_eq (v : Cell) {uses : List Nat} {cells : Array Cell}
    (h : ∀ i ∈ uses, i < cells.size) : fill? v uses cells = some (fill v uses cells) := by
  induction uses generalizing cells with
  | nil => rfl
  | cons i rest ih =>
    have hi : i < cells.size := h i List.mem_cons_self
    have hset : cells.setIfInBounds i v = cells.set i v hi := dif_pos hi
    rw [fill?, List.foldlM_cons, dif_pos hi]
    show fill? v rest (cells.set i v hi) = some (fill v rest (cells.setIfInBounds i v))
    rw [hset]
    apply ih
    intro j hj
    rw [Array.size_set]
    exact h j (List.mem_cons_of_mem i hj)

/-- Filling in labels keeps the number of cells, so the next label finds its cells. -/
theorem resolveList?_eq {labels : List Label} (hlimit : a.diagnostics.size ≤ Diagnostic.limit)
    (h : ∀ l ∈ labels, ∀ i ∈ l.uses, i < a.cells.size) :
    labels.foldlM resolve? a = some (labels.foldl resolve a) ∧
      (labels.foldl resolve a).diagnostics.size ≤ Diagnostic.limit := by
  induction labels generalizing a with
  | nil => exact ⟨rfl, hlimit⟩
  | cons l rest ih =>
    have hrest : ∀ l' ∈ rest, ∀ i ∈ l'.uses, i < a.cells.size :=
      fun l' hl' => h l' (List.mem_cons_of_mem l hl')
    rw [List.foldlM_cons, List.foldl_cons]
    cases hl : l.address with
    | none =>
      have hone : a.resolve? l = some (a.report l.position (.undefinedLabel l.name)) := by
        rw [resolve?, hl]
      rw [hone, resolve_undefined a hl]
      apply ih (size_report_le hlimit _ _)
      rw [cells_report]
      exact hrest
    | some address =>
      have hone : a.resolve? l = some { a with cells := fill (Int64.ofNat address) l.uses a.cells } := by
        simp only [resolve?, hl, fill?_eq _ (h l List.mem_cons_self), Option.map_some]
      rw [hone, resolve_defined a hl]
      apply ih
      · exact hlimit
      · show ∀ l' ∈ rest, ∀ i ∈ l'.uses, i < (fill (Int64.ofNat address) l.uses a.cells).size
        rw [size_fill]
        exact hrest

theorem resolveAll?_eq (h : a.InRange) :
    a.resolveAll? = some a.resolveAll ∧
      a.resolveAll.diagnostics.size ≤ Diagnostic.limit := by
  apply resolveList?_eq h.limit
  intro l hl
  exact h.uses l (List.mem_mergeSort.1 hl)

end Checked

end Builder

/-! ## Whole texts -/

section Text

variable {file : String} {text : Text} {failure : Option String}

theorem inRange_closed (text : Text) (failure : Option String) : (closed text failure).InRange := by
  have htokens := (Builder.feedAll?_eq Builder.inRange_start fun t ht =>
    ((Source.cuts_ofText (readable text failure)).stands ht).1).2
  rw [Array.foldl_toList] at htokens
  apply Builder.InRange.close
  cases failure with
  | none => exact htokens
  | some reason => exact htokens.report _ _

/-- No index is out of range. -/
theorem assemble?_eq (file : String) (text : Text) (failure : Option String) :
    assemble? file text failure = some (assemble file text failure) := by
  have htokens := (Builder.feedAll?_eq Builder.inRange_start fun t ht =>
    ((Source.cuts_ofText (readable text failure)).stands ht).1).1
  have hlabels := (Builder.resolveAll?_eq (inRange_closed text failure)).1
  rw [Array.foldl_toList] at htokens
  rw [assemble?, htokens, Option.bind_some]
  exact congrArg (Option.map fun a => a.result file (sourceOf text failure).finish) hlabels

/-- A refusal has something to say, and not too much. -/
theorem length_of_refusal {r : Refusal} (h : assemble file text failure = .error r) :
    1 ≤ r.diagnostics.length ∧ r.diagnostics.length ≤ Diagnostic.limit := by
  have hlimit := (Builder.resolveAll?_eq (inRange_closed text failure)).2
  rw [assemble_eq, Builder.result] at h
  split at h
  · next hsome =>
    cases h
    exact ⟨hsome, hlimit⟩
  · split at h
    · cases h
      exact ⟨Nat.le_refl 1, (by decide : 1 ≤ Diagnostic.limit)⟩
    · cases h

end Text

/-! ## Sizes -/

/-- Whether the item is a data directive. -/
def Item.isData : Item → Bool
  | .data _ => true
  | _ => false

/-- The cells of the instructions: one for the operation, and one for each operand it takes. -/
def instructionCells : List Item → Nat
  | [] => 0
  | .instruction op _ :: rest => 1 + op.arity + instructionCells rest
  | _ :: rest => instructionCells rest

section Sizes

variable {words : List Text} {items : List Item}

theorem slots_cons (item : Item) (rest : List Item) :
    slots (item :: rest) = item.slots ++ slots rest :=
  List.flatMap_cons

/-- A program has a cell for each data directive, and the cells of its instructions. -/
theorem length_slots (h : Splits words items) :
    (slots items).length = items.countP Item.isData + instructionCells items := by
  obtain ⟨parts, -, hparts⟩ := h
  induction hparts with
  | nil => rfl
  | cons hitem _ ih =>
    rw [slots_cons, List.length_append, ih, List.countP_cons]
    cases hitem with
    | label => simp [Item.slots, Item.isData, instructionCells]
    | data =>
      simp only [Item.slots, Item.isData, instructionCells, List.length_singleton, if_true]
      omega
    | instruction _ _ hlen =>
      simp only [Item.slots, Item.isData, instructionCells, List.length_cons, List.length_map, hlen,
        Bool.false_eq_true, if_false]
      omega

/-- A program has no more cells than words. -/
theorem length_slots_le (h : Splits words items) : (slots items).length ≤ words.length := by
  obtain ⟨parts, rfl, hparts⟩ := h
  induction hparts with
  | nil => exact Nat.le_refl 0
  | cons hitem _ ih =>
    rw [slots_cons, List.length_append, List.flatten_cons, List.length_append]
    refine Nat.add_le_add ?_ ih
    cases hitem with
    | label => exact Nat.zero_le 1
    | data => exact Nat.le_succ 1
    | instruction _ hos _ =>
      simp only [Item.slots, List.length_cons, List.length_map, hos.length_eq]
      exact Nat.le_refl _

/-- The address of a label is not behind the end. -/
theorem addressOf_le (items : List Item) (name : String) :
    addressOf items name ≤ (slots items).length := by
  have hsplit : items.takeWhile (fun item => item ≠ .label name) ++
      items.dropWhile (fun item => item ≠ .label name) = items := List.takeWhile_append_dropWhile
  have hlen := congrArg (fun items => (slots items).length) hsplit
  simp only [slots_append, List.length_append] at hlen
  rw [addressOf]
  omega

/-- A file has no more words than bytes. -/
theorem length_wordsOf_le (bytes : ByteArray) :
    (wordsOf (.ofByteArray bytes)).length ≤ bytes.size :=
  calc (wordsOf (.ofByteArray bytes)).length
      = (uncommented (Source.ofText (.ofByteArray bytes)).tokens.toList).length := List.length_map _
    _ ≤ (Source.ofText (.ofByteArray bytes)).tokens.toList.length :=
        (uncommented_sublist _).length_le
    _ ≤ (Text.ofByteArray bytes).length := (Source.cuts_ofText _).length_le
    _ ≤ (Text.toBytes (.ofByteArray bytes)).size := Text.length_le_size_toBytes _
    _ = bytes.size := by rw [Text.toBytes_ofByteArray]

end Sizes

/-- The assembler reads every file to its end without an index out of range, and either refuses it
with one to ten diagnostics or gives a memory, which is not empty. The memory has one cell for each
data directive and, for each instruction, one cell and one for each operand. A cell that stands for
a label holds the label's address, which is not behind the end of the memory; a file of a size that
fits 64 bits has addresses that do. -/
theorem assemble_total (file : String) (bytes : ByteArray) (failure : Option String) :
    assemble? file (.ofByteArray bytes) failure =
      some (assemble file (.ofByteArray bytes) failure) ∧
    (Source.ofText (.ofByteArray bytes)).finish.offset = bytes.size ∧
    ((∃ r, assemble file (.ofByteArray bytes) failure = .error r ∧
        1 ≤ r.diagnostics.length ∧ r.diagnostics.length ≤ 10) ∨
      ∃ memory items, assemble file (.ofByteArray bytes) failure = .ok memory ∧
        1 ≤ memory.size ∧ Splits (wordsOf (.ofByteArray bytes)) items ∧
        memory.size = items.countP Item.isData + instructionCells items ∧
        ∀ (i : Nat) (name : String), (slots items)[i]? = some (.label name) →
          ∃ v, memory.cells[i]? = some v ∧ v = Int64.ofNat (addressOf items name) ∧
            addressOf items name ≤ memory.size ∧
            (bytes.size < 9223372036854775808 → v.toInt = addressOf items name)) := by
  refine ⟨assemble?_eq file _ failure, ?_, ?_⟩
  · rw [(Source.cuts_ofText _).finish_eq, Position.offset_afterText, Text.toBytes_ofByteArray]
    exact Nat.zero_add _
  · cases hrun : assemble file (.ofByteArray bytes) failure with
    | error r => exact Or.inl ⟨r, rfl, length_of_refusal hrun⟩
    | ok memory =>
      obtain ⟨hl, items, hs, hw⟩ := splits_of_assemble hrun
      rw [assemble_of_splits hl hs hw, Except.ok.injEq] at hrun
      have hsize : memory.size = (slots items).length := by
        rw [← hrun]
        simp [Memory.size, Memory.ofList, encode]
      refine Or.inr ⟨memory, items, rfl, ?_, hs, hsize.trans (length_slots hs), ?_⟩
      · rw [hsize]
        exact List.length_pos_iff.2 hw.nonempty
      · -- the address fits a cell, since there are no more cells than bytes in the file
        intro i name hi
        have hle : addressOf items name ≤ (slots items).length := addressOf_le items name
        refine ⟨_, ?_, rfl, by rw [hsize]; exact hle, ?_⟩
        · rw [← hrun]
          simp [Memory.ofList, encode, hi, Value.cell]
        · intro hfits
          have hwords := (length_slots_le hs).trans (length_wordsOf_le bytes)
          exact Int64.toInt_ofNat_of_lt (by omega)

end CellMachine.Assembly
