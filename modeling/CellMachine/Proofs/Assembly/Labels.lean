import CellMachine.Proofs.Assembly.Language

/-!
# The table of labels

The assembler meets a label in the order of the text, used or defined first as it
happens, and keeps for each the address if it is known and the cells that wait for it.
`Table` says what the entries have to do with the items read so far: every label that
occurs has one entry, which holds the address of its definition and exactly the cells
that refer to it. Uses and definitions keep this (`Builder.table_useLabel`,
`Builder.table_define`), and filling in the labels of such a table in any order gives
every cell its address (`Builder.resolveAll_of_table`).
-/

set_option autoImplicit false

namespace CellMachine.Assembly

/-- The label that a value refers to. -/
def Value.name? : Value → Option String
  | .literal _ => none
  | .label name => some name

/-- The address of a label that is defined. -/
def address? (items : List Item) (name : String) : Option Nat :=
  if .label name ∈ items then some (addressOf items name) else none

/-- The address of a label depends only on what stands before its definition. -/
theorem addressOf_append {front : List Item} {name : String} (h : Item.label name ∉ front)
    (rest : List Item) : addressOf (front ++ .label name :: rest) name = (slots front).length := by
  have htake : (front ++ Item.label name :: rest).takeWhile (fun item => item ≠ .label name) =
      front := by
    rw [List.takeWhile_append_of_pos]
    · simp
    · intro item hitem
      simp only [decide_eq_true_eq]
      rintro rfl
      exact h hitem
  rw [addressOf, htake]

/-- Items behind a definition do not move its address. -/
theorem address?_append {items : List Item} {item : Item} {name : String}
    (h : item ≠ .label name) : address? (items ++ [item]) name = address? items name := by
  by_cases hmem : .label name ∈ items
  · obtain ⟨front, back, hsplit, hfront⟩ := List.eq_append_cons_of_mem hmem
    rw [address?, address?, if_pos hmem, if_pos (List.mem_append_left _ hmem), hsplit,
      List.append_assoc, List.cons_append, addressOf_append hfront, addressOf_append hfront]
  · have hmem' : .label name ∉ items ++ [item] := by
      rw [List.mem_append, List.mem_singleton]
      rintro (hi | hi)
      · exact hmem hi
      · exact h hi.symm
    rw [address?, address?, if_neg hmem, if_neg hmem']

/-- A label that is defined now stands before the next cell. -/
theorem address?_append_self {items : List Item} {name : String} (h : .label name ∉ items) :
    address? (items ++ [.label name]) name = some (slots items).length := by
  rw [address?, if_pos (List.mem_append_right _ List.mem_cons_self), addressOf_append h]

/-- An entry says where its label is defined and which cells refer to it. -/
structure Entry (l : Label) (refs : List (Option String)) (items : List Item) : Prop where
  address : l.address = address? items l.name
  uses : ∀ i, i ∈ l.uses ↔ refs[i]? = some (some l.name)

/-- The labels of a program under way, of which `refs` are the references, cell by cell. -/
structure Table (labels : List Label) (refs : List (Option String)) (items : List Item) : Prop where
  names : (labels.map Label.name).Nodup
  entries : ∀ l ∈ labels, Entry l refs items
  occurs : ∀ name, (∃ l ∈ labels, l.name = name) ↔ some name ∈ refs ∨ .label name ∈ items

theorem table_nil : Table [] [] [] :=
  ⟨.nil, nofun, by simp⟩

theorem getElem?_concat_iff {refs : List (Option String)} {x : Option String} {name : String}
    {i : Nat} : (refs ++ [x])[i]? = some (some name) ↔
      refs[i]? = some (some name) ∨ i = refs.length ∧ x = some name := by
  rcases Nat.lt_trichotomy i refs.length with hlt | rfl | hgt
  · rw [List.getElem?_append_left hlt]
    constructor
    · exact Or.inl
    · rintro (h | ⟨rfl, -⟩)
      · exact h
      · exact absurd hlt (Nat.lt_irrefl _)
  · simp
  · rw [List.getElem?_eq_none (by simp; omega), List.getElem?_eq_none (by omega)]
    simp
    omega

section Table

variable {labels : List Label} {refs refs' : List (Option String)} {items items' : List Item}
  {name : String} {l : Label}

/-! ## Entries -/

/-- A cell that refers to something else leaves an entry right. -/
theorem Entry.cell (h : Entry l refs items) {x : Option String} (hx : x ≠ some l.name) :
    Entry l (refs ++ [x]) items := by
  refine ⟨h.address, ?_⟩
  intro i
  rw [h.uses i, getElem?_concat_iff]
  constructor
  · exact Or.inl
  · rintro (hi | ⟨-, hi⟩)
    · exact hi
    · exact absurd hi hx

/-- An item other than a definition of the label leaves an entry right. -/
theorem Entry.item (h : Entry l refs items) {item : Item} (hitem : item ≠ .label l.name) :
    Entry l refs (items ++ [item]) :=
  ⟨by rw [address?_append hitem]; exact h.address, h.uses⟩

theorem Entry.use (h : Entry l refs items) :
    Entry { l with uses := refs.length :: l.uses } (refs ++ [some l.name]) items := by
  refine ⟨h.address, ?_⟩
  intro i
  show i ∈ refs.length :: l.uses ↔ _
  rw [List.mem_cons, h.uses i, getElem?_concat_iff]
  simp [or_comm]

theorem Entry.define (h : Entry l refs items) (hnew : .label l.name ∉ items)
    (position : Position) :
    Entry { l with position, address := some (slots items).length } refs
      (items ++ [.label l.name]) :=
  ⟨(address?_append_self hnew).symm, h.uses⟩

/-! ## Tables -/

/-- A table in which the entry of one label is changed. -/
theorem Table.update {f : Label → Label} (h : Table labels refs items)
    (hname : ∀ l, (f l).name = l.name)
    (hother : ∀ l ∈ labels, l.name ≠ name → Entry l refs' items')
    (hself : ∀ l ∈ labels, l.name = name → Entry (f l) refs' items')
    (hoccurs : ∀ n, (∃ l ∈ labels, l.name = n) ↔ some n ∈ refs' ∨ .label n ∈ items') :
    Table (labels.map fun l => if l.name == name then f l else l) refs' items' := by
  have hnames : ∀ l : Label, (if l.name == name then f l else l).name = l.name := by
    intro l
    split
    · exact hname l
    · rfl
  refine ⟨?_, ?_, ?_⟩
  · rw [List.map_map]
    have hcomp : (Label.name ∘ fun l : Label => if l.name == name then f l else l) = Label.name :=
      funext hnames
    rw [hcomp]
    exact h.names
  · intro l' hl'
    obtain ⟨l, hl, rfl⟩ := List.mem_map.1 hl'
    by_cases hn : l.name = name
    · simp only [hn, beq_self_eq_true, if_true]
      exact hself l hl hn
    · simp only [beq_iff_eq, hn, if_false]
      exact hother l hl hn
  · intro n
    rw [← hoccurs n]
    constructor
    · rintro ⟨l', hl', rfl⟩
      obtain ⟨l, hl, rfl⟩ := List.mem_map.1 hl'
      exact ⟨l, hl, (hnames l).symm⟩
    · rintro ⟨l, hl, rfl⟩
      exact ⟨_, List.mem_map_of_mem hl, hnames l⟩

/-- A table with an entry for one more label. -/
theorem Table.extend (h : Table labels refs items) (hnew : ∀ l' ∈ labels, l'.name ≠ l.name)
    (hother : ∀ l' ∈ labels, Entry l' refs' items') (hself : Entry l refs' items')
    (hoccurs : ∀ n, (n = l.name ∨ ∃ l' ∈ labels, l'.name = n) ↔
      some n ∈ refs' ∨ .label n ∈ items') : Table (l :: labels) refs' items' := by
  refine ⟨?_, ?_, ?_⟩
  · rw [List.map_cons, List.nodup_cons]
    refine ⟨?_, h.names⟩
    intro hmem
    obtain ⟨l', hl', hn⟩ := List.mem_map.1 hmem
    exact hnew l' hl' hn
  · intro l' hl'
    rcases List.mem_cons.1 hl' with rfl | hl'
    · exact hself
    · exact hother l' hl'
  · intro n
    rw [← hoccurs n]
    constructor
    · rintro ⟨l', hl', rfl⟩
      rcases List.mem_cons.1 hl' with rfl | hl'
      · exact Or.inl rfl
      · exact Or.inr ⟨l', hl', rfl⟩
    · rintro (rfl | ⟨l', hl', rfl⟩)
      · exact ⟨l, List.mem_cons_self, rfl⟩
      · exact ⟨l', List.mem_cons_of_mem l hl', rfl⟩

/-- A label without an entry has not occurred. -/
theorem Table.fresh (h : Table labels refs items) (hnew : ∀ l ∈ labels, l.name ≠ name) :
    some name ∉ refs ∧ .label name ∉ items := by
  constructor
  · intro hmem
    obtain ⟨l, hl, hn⟩ := (h.occurs name).2 (Or.inl hmem)
    exact hnew l hl hn
  · intro hmem
    obtain ⟨l, hl, hn⟩ := (h.occurs name).2 (Or.inr hmem)
    exact hnew l hl hn

/-- The entry of a label that occurs now for the first time. -/
theorem Table.entry_new (h : Table labels refs items) (hnew : ∀ l ∈ labels, l.name ≠ name)
    (position : Position) : Entry ⟨name, position, none, []⟩ refs items := by
  obtain ⟨hrefs, hitems⟩ := h.fresh hnew
  refine ⟨(if_neg hitems).symm, ?_⟩
  intro i
  constructor
  · exact nofun
  · intro hi
    exact absurd (List.mem_of_getElem? hi) hrefs

/-- A cell that refers to no label keeps the table. -/
theorem Table.literal (h : Table labels refs items) : Table labels (refs ++ [none]) items := by
  refine ⟨h.names, fun l hl => (h.entries l hl).cell nofun, ?_⟩
  intro name
  rw [h.occurs name]
  simp

/-- An item that defines no label keeps the table. -/
theorem Table.item (h : Table labels refs items) {item : Item} (hitem : ∀ n, item ≠ .label n) :
    Table labels refs (items ++ [item]) := by
  refine ⟨h.names, fun l hl => (h.entries l hl).item (hitem l.name), ?_⟩
  intro n
  rw [h.occurs n]
  simp [Ne.symm (hitem n)]

end Table

namespace Builder

/-- Something has been reported. -/
def Broken (a : Builder) : Prop :=
  a.diagnostics ≠ #[]

/-- A report leaves a diagnostic, even if there are too many to add it. -/
theorem broken_report (a : Builder) (position : Position) (problem : Problem) :
    (a.report position problem).Broken := by
  unfold report Broken
  split
  · exact Array.push_ne_empty
  · next h =>
    intro hempty
    rw [hempty] at h
    exact h (by decide)

@[simp] theorem cells_report (a : Builder) (position : Position) (problem : Problem) :
    (a.report position problem).cells = a.cells := by
  unfold report
  split <;> rfl

@[simp] theorem labels_report (a : Builder) (position : Position) (problem : Problem) :
    (a.report position problem).labels = a.labels := by
  unfold report
  split <;> rfl

@[simp] theorem expected_report (a : Builder) (position : Position) (problem : Problem) :
    (a.report position problem).expected = a.expected := by
  unfold report
  split <;> rfl

@[simp] theorem diagnostics_useLabel (a : Builder) (position : Position) (name : String) :
    (a.useLabel position name).diagnostics = a.diagnostics := by
  unfold useLabel
  split <;> rfl

@[simp] theorem cells_useLabel (a : Builder) (position : Position) (name : String) :
    (a.useLabel position name).cells = a.cells := by
  unfold useLabel
  split <;> rfl

/-- There are never more diagnostics than the limit allows. -/
theorem size_report_le {a : Builder} (h : a.diagnostics.size ≤ Diagnostic.limit)
    (position : Position) (problem : Problem) :
    (a.report position problem).diagnostics.size ≤ Diagnostic.limit := by
  unfold report
  split
  · next hroom =>
    rw [Array.size_push]
    exact hroom
  · exact h

variable {a : Builder} {refs : List (Option String)} {items : List Item} {name : String}

theorem label?_eq_none_iff : a.label? name = none ↔ ∀ l ∈ a.labels, l.name ≠ name := by
  simp [label?]

theorem mem_of_label? {l : Label} (h : a.label? name = some l) : l ∈ a.labels ∧ l.name = name :=
  ⟨List.mem_of_find?_eq_some h, by simpa using List.find?_some h⟩

/-- A use in the next cell keeps the table. -/
theorem table_useLabel (h : Table a.labels refs items) (hsize : a.cells.size = refs.length)
    (position : Position) :
    Table (a.useLabel position name).labels (refs ++ [some name]) items := by
  have hoccurs : ∀ n, (n = name ∨ ∃ l ∈ a.labels, l.name = n) ↔
      some n ∈ refs ++ [some name] ∨ .label n ∈ items := by
    intro n
    rw [h.occurs n]
    simp
    tauto
  unfold useLabel
  cases hl : a.label? name with
  | none =>
    -- the first occurrence makes an entry
    have hnew := label?_eq_none_iff.1 hl
    refine h.extend hnew ?_ ?_ hoccurs
    · intro l' hl'
      exact (h.entries l' hl').cell fun heq => hnew l' hl' (Option.some.inj heq).symm
    · rw [hsize]
      exact (h.entry_new hnew position).use
  | some l =>
    obtain ⟨hmem, rfl⟩ := mem_of_label? hl
    refine h.update (fun _ => rfl) ?_ ?_ ?_
    · intro l' hl' hne
      exact (h.entries l' hl').cell fun heq => hne (Option.some.inj heq).symm
    · intro l' hl' hn
      rw [hsize, ← hn]
      exact (h.entries l' hl').use
    · intro n
      rw [← hoccurs n]
      exact ⟨Or.inr, fun hn => hn.elim (fun heq => ⟨l, hmem, heq.symm⟩) id⟩

/-- A definition at the next cell keeps the table. -/
theorem table_define (h : Table a.labels refs items) (hsize : a.cells.size = (slots items).length)
    (hnew : .label name ∉ items) (position : Position) :
    Table (a.define position name).labels refs (items ++ [.label name]) ∧
      (a.define position name).diagnostics = a.diagnostics := by
  have hoccurs : ∀ n, (n = name ∨ ∃ l ∈ a.labels, l.name = n) ↔
      some n ∈ refs ∨ .label n ∈ items ++ [.label name] := by
    intro n
    rw [h.occurs n]
    simp
    tauto
  unfold define
  cases hl : a.label? name with
  | none =>
    -- defined before any use
    have hfresh := label?_eq_none_iff.1 hl
    refine ⟨h.extend hfresh ?_ ?_ hoccurs, rfl⟩
    · intro l' hl'
      exact (h.entries l' hl').item fun heq => hfresh l' hl' (Item.label.inj heq).symm
    · rw [hsize]
      exact (h.entry_new hfresh position).define hnew position
  | some l =>
    obtain ⟨hmem, rfl⟩ := mem_of_label? hl
    -- used before, so the entry has no address yet
    have hnone : l.address = none := by
      rw [(h.entries l hmem).address]
      exact if_neg hnew
    simp only [hnone]
    refine ⟨h.update (fun _ => rfl) ?_ ?_ ?_, rfl⟩
    · intro l' hl' hne
      exact (h.entries l' hl').item fun heq => hne (Item.label.inj heq).symm
    · intro l' hl' hn
      rw [hsize, ← hn]
      exact (h.entries l' hl').define (by rw [hn]; exact hnew) position
    · intro n
      rw [← hoccurs n]
      exact ⟨Or.inr, fun hn => hn.elim (fun heq => ⟨l, hmem, heq.symm⟩) id⟩

theorem broken_define (h : Table a.labels refs items) (hold : .label name ∈ items)
    (position : Position) : (a.define position name).Broken := by
  obtain ⟨l, hl, hn⟩ := (h.occurs name).2 (Or.inr hold)
  unfold define
  cases hfind : a.label? name with
  | none => exact absurd hn (label?_eq_none_iff.1 hfind l hl)
  | some l' =>
    obtain ⟨hmem, rfl⟩ := mem_of_label? hfind
    have hsome : l'.address = some (addressOf items l'.name) := by
      rw [(h.entries l' hmem).address]
      exact if_pos hold
    simp only [hsome]
    exact broken_report a position _

/-! ## Filling in the addresses -/

/-- The cells with `v` in the given places. -/
def fill (v : Cell) (uses : List Nat) (cells : Array Cell) : Array Cell :=
  uses.foldl (fun cells i => cells.setIfInBounds i v) cells

@[simp] theorem size_fill (v : Cell) (uses : List Nat) (cells : Array Cell) :
    (fill v uses cells).size = cells.size := by
  induction uses generalizing cells with
  | nil => rfl
  | cons i rest ih => exact (ih _).trans Array.size_setIfInBounds

theorem getElem?_fill (v : Cell) (uses : List Nat) {cells : Array Cell} {j : Nat}
    (hj : j < cells.size) :
    (fill v uses cells)[j]? = if j ∈ uses then some v else cells[j]? := by
  induction uses generalizing cells with
  | nil => rfl
  | cons i rest ih =>
    show (fill v rest (cells.setIfInBounds i v))[j]? = _
    rw [ih (by rwa [Array.size_setIfInBounds]), Array.getElem?_setIfInBounds]
    by_cases hij : i = j
    · simp [hij, hj]
    · simp [hij, Ne.symm hij]

theorem resolve_undefined (a : Builder) {l : Label} (hl : l.address = none) :
    a.resolve l = a.report l.position (.undefinedLabel l.name) := by
  rw [resolve, hl]

/-- A label with an address changes cells only. -/
theorem resolve_defined (a : Builder) {l : Label} {address : Nat} (hl : l.address = some address) :
    a.resolve l = { a with cells := fill (Int64.ofNat address) l.uses a.cells } := by
  rw [resolve, hl]
  rfl

/-- Filling in labels gives the cells that refer to them their addresses. -/
theorem cells_resolve (target : Nat → Cell) {L : List Label} (haddress : ∀ l ∈ L, ∃ address,
    l.address = some address ∧ ∀ i ∈ l.uses, target i = Int64.ofNat address) (a : Builder) :
    (L.foldl resolve a).diagnostics = a.diagnostics ∧
      (L.foldl resolve a).cells.size = a.cells.size ∧
      ∀ j, j < a.cells.size → (L.foldl resolve a).cells[j]? =
        if j ∈ L.flatMap Label.uses then some (target j) else a.cells[j]? := by
  induction L generalizing a with
  | nil => exact ⟨rfl, rfl, fun _ _ => rfl⟩
  | cons l rest ih =>
    obtain ⟨address, hl, htarget⟩ := haddress l List.mem_cons_self
    have hone := a.resolve_defined hl
    have hsize : (a.resolve l).cells.size = a.cells.size := by
      rw [hone]
      exact size_fill _ _ _
    obtain ⟨hdiag, hsize', hcells⟩ :=
      ih (fun l' hl' => haddress l' (List.mem_cons_of_mem l hl')) (a.resolve l)
    rw [List.foldl_cons]
    refine ⟨by rw [hdiag, hone], hsize'.trans hsize, ?_⟩
    intro j hj
    rw [hcells j (by rwa [hsize]), hone, getElem?_fill _ _ hj, List.flatMap_cons]
    -- a later label may write the cell again, with the same target
    by_cases hrest : j ∈ rest.flatMap Label.uses
    · rw [if_pos hrest, if_pos (List.mem_append_right _ hrest)]
    · rw [if_neg hrest]
      by_cases huse : j ∈ l.uses
      · rw [if_pos huse, if_pos (List.mem_append_left _ huse), htarget j huse]
      · rw [if_neg huse, if_neg (by simp [huse, hrest])]

theorem Broken.resolve (h : a.Broken) (l : Label) : (a.resolve l).Broken := by
  unfold Builder.resolve
  split
  · exact broken_report a _ _
  · exact h

theorem Broken.resolveList (h : a.Broken) (L : List Label) :
    (L.foldl Builder.resolve a).Broken := by
  induction L generalizing a with
  | nil => exact h
  | cons l rest ih => exact ih (h.resolve l)

/-- A label that is used and not defined is reported. -/
theorem broken_resolveAll (h : Table a.labels refs items) (huse : some name ∈ refs)
    (hmissing : .label name ∉ items) : a.resolveAll.Broken := by
  obtain ⟨l, hl, rfl⟩ := (h.occurs name).2 (Or.inl huse)
  have hnone : l.address = none := by
    rw [(h.entries l hl).address]
    exact if_neg hmissing
  have hsorted : l ∈ a.labels.mergeSort fun l l' => decide (l.name ≤ l'.name) :=
    List.mem_mergeSort.2 hl
  -- the report is made in the turn of this label and stays in those behind it
  obtain ⟨front, back, hsplit⟩ := List.append_of_mem hsorted
  rw [resolveAll, hsplit, List.foldl_append, List.foldl_cons]
  apply Broken.resolveList
  rw [resolve, hnone]
  exact broken_report _ _ _

/-- The address that a cell waits for, if it refers to a label. -/
def awaited (refs : List (Option String)) (items : List Item) (j : Nat) : Option Cell :=
  refs[j]?.join.map fun name => Int64.ofNat (addressOf items name)

/-- If all labels are defined, every cell that refers to one gets its address, in
whatever order the labels are taken, and the other cells stay. -/
theorem resolveAll_of_table (h : Table a.labels refs items)
    (hdefined : ∀ name, some name ∈ refs → .label name ∈ items) :
    a.resolveAll.diagnostics = a.diagnostics ∧ a.resolveAll.cells.size = a.cells.size ∧
      ∀ j, j < a.cells.size →
        a.resolveAll.cells[j]? = (awaited refs items j).or a.cells[j]? := by
  have hmem : ∀ l, l ∈ a.labels.mergeSort (fun l l' => decide (l.name ≤ l'.name)) ↔ l ∈ a.labels :=
    fun l => List.mem_mergeSort
  have hawaited : ∀ l ∈ a.labels, ∀ i ∈ l.uses,
      awaited refs items i = some (Int64.ofNat (addressOf items l.name)) := by
    intro l hl i hi
    simp only [awaited, ((h.entries l hl).uses i).1 hi, Option.join_some, Option.map_some]
  obtain ⟨hdiag, hsize', hcells⟩ :=
    cells_resolve (fun j => (awaited refs items j).getD 0) (fun l hl => by
      have hl' := (hmem l).1 hl
      have hin : .label l.name ∈ items :=
        ((h.occurs l.name).1 ⟨l, hl', rfl⟩).elim (hdefined l.name) id
      refine ⟨addressOf items l.name, by rw [(h.entries l hl').address]; exact if_pos hin, ?_⟩
      intro i hi
      rw [hawaited l hl' i hi, Option.getD_some]) a
  refine ⟨hdiag, hsize', ?_⟩
  intro j hj
  refine (hcells j hj).trans ?_
  -- a cell is among the uses of some entry exactly if it refers to a label
  cases hr : refs[j]?.join with
  | none =>
    have hnone : awaited refs items j = none := by rw [awaited, hr, Option.map_none]
    rw [hnone, Option.none_or, if_neg]
    intro hin
    obtain ⟨l, hl, hi⟩ := List.mem_flatMap.1 hin
    rw [hawaited l ((hmem l).1 hl) j hi] at hnone
    cases hnone
  | some name =>
    have hname : refs[j]? = some (some name) := Option.join_eq_some_iff.1 hr
    obtain ⟨l, hl, rfl⟩ := (h.occurs name).2 (Or.inl (List.mem_of_getElem? hname))
    have hi : j ∈ l.uses := ((h.entries l hl).uses j).2 hname
    rw [if_pos (List.mem_flatMap.2 ⟨l, (hmem l).2 hl, hi⟩), hawaited l hl j hi]
    rfl

end Builder

end CellMachine.Assembly
