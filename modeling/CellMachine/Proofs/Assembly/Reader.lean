import CellMachine.Proofs.Assembly.Language

/-!
# Reading words in order

A reader takes the words one by one and keeps the items that are complete and what it
has of the next one. It is the assembler without cells, labels and messages: `step`
fails where the assembler reports something. It gets through exactly the words that
can be split into items without a redefinition or an immediate destination
(`read_eq_some_iff`). What has been read splits into items at any time, with the
words of the unfinished item left over (`Reader.Explains`); this is what a single step
keeps.
-/

set_option autoImplicit false

namespace CellMachine.Assembly

/-- What a reader has of the next item. -/
inductive Pending where
  | statement
  | data
  | operands (op : Opcode) (done : List Operand)
deriving DecidableEq, Inhabited

/-- The items read so far and what there is of the next one. -/
structure Reader where
  items : List Item
  pending : Pending
deriving DecidableEq, Inhabited

/-- The value that a word spells. -/
def Value.read? (w : Text) : Option Value :=
  match Numeral.int64 w with
  | .ok v => some (.literal v)
  | .error _ => if isLabelName w then some (.label w.toString) else none

/-- The operand that a word spells in place `k` of an instruction. -/
def Operand.read? (op : Opcode) (k : Nat) (w : Text) : Option Operand :=
  match w with
  | .char '#' :: rest =>
    if op.isDestination k then none else (Value.read? rest).map fun v => ⟨true, v⟩
  | w => (Value.read? w).map fun v => ⟨false, v⟩

namespace Reader

/-- The reader with some operands of an instruction, all of them or not. -/
def hold (r : Reader) (op : Opcode) (done : List Operand) : Reader :=
  if done.length = op.arity then ⟨r.items ++ [.instruction op done], .statement⟩
  else ⟨r.items, .operands op done⟩

/-- Takes a word as the start of an item. -/
def statement (r : Reader) (w : Text) : Option Reader :=
  match w with
  | .char ':' :: name =>
    if isLabelName name = true ∧ .label (Text.toString name) ∉ r.items then
      some ⟨r.items ++ [.label (Text.toString name)], .statement⟩
    else none
  | w =>
    if w = Text.ofString ".dat" then some ⟨r.items, .data⟩
    else (operation? w).map fun op => r.hold op []

/-- Takes a word. -/
def step (r : Reader) (w : Text) : Option Reader :=
  match r.pending with
  | .statement => r.statement w
  | .data => (Value.read? w).map fun v => ⟨r.items ++ [.data v], .statement⟩
  | .operands op done => (Operand.read? op done.length w).map fun o => r.hold op (done ++ [o])

end Reader

/-! ## Single words -/

theorem startsLabel_digit {d : Nat} (h : d < 10) : startsLabel (Numeral.digit d) = false := by
  have key : ∀ d : Fin 10, startsLabel (Numeral.digit d) = false := by decide
  exact key ⟨d, h⟩

/-- A decimal literal is not the name of a label. -/
theorem isLabelName_decimal {w : Text} {n : Int} (h : Numeral.Decimal w n) :
    isLabelName w = false := by
  have hplus : startsLabel (.char '+') = false := by decide
  have hminus : startsLabel (.char '-') = false := by decide
  cases h with
  | bare hd =>
    obtain ⟨ds, hne, hds, rfl, -⟩ := hd
    cases ds with
    | nil => exact absurd rfl hne
    | cons d rest => simp [isLabelName, startsLabel_digit (hds d List.mem_cons_self)]
  | plus => simp [isLabelName, hplus]
  | minus => simp [isLabelName, hminus]

theorem Value.read?_eq_some_iff {w : Text} {v : Value} : Value.read? w = some v ↔ v.Spelled w := by
  constructor
  · intro h
    unfold Value.read? at h
    split at h
    · next n hn =>
      cases h
      obtain ⟨n, hd, hmin, hmax, rfl⟩ := Numeral.int64_eq_ok_iff.1 hn
      exact .literal hd hmin hmax
    · split at h
      · next hl =>
        cases h
        exact .label hl
      · cases h
  · intro h
    cases h with
    | literal hd hmin hmax =>
      rw [Value.read?, Numeral.int64_eq_ok_iff.2 ⟨_, hd, hmin, hmax, rfl⟩]
    | label hl =>
      cases hn : Numeral.int64 w with
      | ok n =>
        obtain ⟨n, hd, -⟩ := Numeral.int64_eq_ok_iff.1 hn
        rw [isLabelName_decimal hd] at hl
        cases hl
      | error fault => simp only [Value.read?, hn, hl, if_true]

theorem startsLabel_hash : startsLabel (.char '#') = false := by
  decide

/-- Neither literals nor names start with `#`. -/
theorem Value.not_spelled_hash {w : Text} {v : Value} : ¬ v.Spelled (.char '#' :: w) := by
  intro h
  cases h with
  | literal hd =>
    cases hd with
    | bare hd => exact hd.head_ne (by decide : '#'.isDigit = false) rfl
  | label hl => simp [isLabelName, startsLabel_hash] at hl

theorem Operand.read?_hash (op : Opcode) (k : Nat) (rest : Text) :
    Operand.read? op k (.char '#' :: rest) =
      if op.isDestination k then none else (Value.read? rest).map fun v => ⟨true, v⟩ :=
  rfl

theorem Operand.read?_plain (op : Opcode) (k : Nat) {w : Text}
    (hw : ∀ rest, w ≠ .char '#' :: rest) :
    Operand.read? op k w = (Value.read? w).map fun v => ⟨false, v⟩ := by
  unfold Operand.read?
  split
  · exact absurd rfl (hw _)
  · rfl

theorem Operand.read?_eq_some_iff {op : Opcode} {k : Nat} {w : Text} {o : Operand} :
    Operand.read? op k w = some o ↔
      o.Spelled w ∧ (o.immediate = true → op.isDestination k = false) := by
  unfold Operand.read?
  split
  · next rest =>
    constructor
    · intro h
      split at h
      · cases h
      · next hdest =>
        obtain ⟨v, hv, rfl⟩ := Option.map_eq_some_iff.1 h
        exact ⟨.immediate (Value.read?_eq_some_iff.1 hv), fun _ => by simpa using hdest⟩
    · rintro ⟨hs, hdest⟩
      cases hs with
      | position hv => exact absurd hv Value.not_spelled_hash
      | immediate hv =>
        rw [if_neg (by simp [hdest rfl]), Value.read?_eq_some_iff.2 hv]
        rfl
  · next hne =>
    constructor
    · intro h
      obtain ⟨v, hv, rfl⟩ := Option.map_eq_some_iff.1 h
      exact ⟨.position (Value.read?_eq_some_iff.1 hv), nofun⟩
    · rintro ⟨hs, -⟩
      cases hs with
      | position hv =>
        rw [Value.read?_eq_some_iff.2 hv]
        rfl
      | immediate hv => exact absurd rfl (hne _)

theorem toString_ofString (s : String) : (Text.ofString s).toString = s := by
  simp [Text.toString, Text.ofString, Glyph.shown, Function.comp_def]

theorem toString_append (t u : Text) : Text.toString (t ++ u) = t.toString ++ u.toString := by
  rw [Text.toString, List.map_append, String.ofList_append]
  rfl

/-- A text that shows no replacement character is made of characters. -/
theorem eq_ofString {w : Text} (h : Glyph.replacement ∉ w.toString.toList) :
    w = Text.ofString w.toString := by
  simp only [Text.toString, Text.ofString, String.toList_ofList] at h ⊢
  induction w with
  | nil => rfl
  | cons g rest ih =>
    rw [List.map_cons, List.mem_cons, not_or] at h
    rw [List.map_cons, List.map_cons, ← ih h.2]
    cases g with
    | char c => rfl
    | stray b => exact absurd rfl h.1

theorem operation?_eq_some_iff {w : Text} {op : Opcode} :
    operation? w = some op ↔ ∃ name, w = Text.ofString name ∧ (name, op) ∈ mnemonics := by
  have hshown : ∀ p ∈ mnemonics, Glyph.replacement ∉ p.1.toList := by decide
  have hlookup : ∀ p ∈ mnemonics, mnemonics.lookup p.1 = some p.2 := by decide
  constructor
  · intro h
    obtain ⟨front, back, hfound, -⟩ := List.lookup_eq_some_iff.1 h
    have hmem : (w.toString, op) ∈ mnemonics := by
      rw [hfound]
      exact List.mem_append_right _ List.mem_cons_self
    exact ⟨w.toString, eq_ofString (hshown _ hmem), hmem⟩
  · rintro ⟨name, rfl, hmem⟩
    rw [operation?, toString_ofString]
    exact hlookup _ hmem

/-! ## Lawful items -/

theorem Lawful.nil : Lawful [] :=
  ⟨fun _ => Nat.zero_le 1, nofun⟩

/-- The front of lawful items is lawful. -/
theorem Lawful.front {items items' : List Item} (h : Lawful (items ++ items')) : Lawful items := by
  refine ⟨?_, fun op operands hmem => h.allowed op operands (List.mem_append_left _ hmem)⟩
  intro name
  have hcount := h.unique name
  rw [List.count_append] at hcount
  omega

/-- One more item is lawful if it defines no label again and has no immediate
destination. -/
theorem lawful_append_iff {items : List Item} {item : Item} :
    Lawful (items ++ [item]) ↔
      Lawful items ∧ (∀ name, item = .label name → .label name ∉ items) ∧
        ∀ op operands, item = .instruction op operands → Allows op operands := by
  constructor
  · intro h
    refine ⟨h.front, ?_, ?_⟩
    · rintro name rfl hmem
      have hcount := h.unique name
      rw [List.count_append, List.count_singleton_self] at hcount
      have hpos := List.count_pos_iff.2 hmem
      omega
    · rintro op operands rfl
      exact h.allowed op operands (List.mem_append_right _ List.mem_cons_self)
  · rintro ⟨h, hlabel, hallowed⟩
    refine ⟨?_, ?_⟩
    · intro name
      rw [List.count_append]
      by_cases hname : item = .label name
      · have hzero : items.count (.label name) = 0 :=
          List.count_eq_zero_of_not_mem (hlabel name hname)
        have hone : [item].count (.label name) = 1 := by rw [hname, List.count_singleton_self]
        omega
      · have hzero : [item].count (.label name) = 0 := by
          rw [List.count_eq_zero]
          simpa using Ne.symm hname
        rw [hzero]
        exact h.unique name
    · intro op operands hmem
      rcases List.mem_append.1 hmem with hmem | hmem
      · exact h.allowed op operands hmem
      · exact hallowed op operands (List.mem_singleton.1 hmem).symm

/-! ## What has been read -/

/-- The words of an item that is not complete. -/
inductive Pending.Spelled : List Text → Pending → Prop where
  | statement : Spelled [] .statement
  | data : Spelled [Text.ofString ".dat"] .data
  | operands {name : String} {op : Opcode} {ws : List Text} {done : List Operand} :
      (name, op) ∈ mnemonics → List.Forall₂ Operand.Spelled ws done → done.length < op.arity →
      Allows op done → Spelled (Text.ofString name :: ws) (.operands op done)

namespace Reader

/-- The words split into those of the items read and those of the next one. -/
def Explains (r : Reader) (words : List Text) : Prop :=
  ∃ parts tail, words = List.flatten parts ++ tail ∧ List.Forall₂ Item.Spelled parts r.items ∧
    r.pending.Spelled tail ∧ Lawful r.items

/-- An item that is complete is added to the items. -/
theorem explains_item {items : List Item} {item : Item} {parts : List (List Text)}
    {ws : List Text} (hparts : List.Forall₂ Item.Spelled parts items) (hitem : item.Spelled ws)
    (hlaw : Lawful (items ++ [item])) :
    Explains ⟨items ++ [item], .statement⟩ (parts.flatten ++ ws) := by
  refine ⟨parts ++ [ws], [], ?_, ?_, .statement, hlaw⟩
  · simp
  · exact List.rel_append hparts (.cons hitem .nil)

/-- Some operands of an instruction are an item or are kept for the next word. -/
theorem explains_hold {r : Reader} {parts : List (List Text)} {name : String} {op : Opcode}
    {ws : List Text} {done : List Operand} (hparts : List.Forall₂ Item.Spelled parts r.items)
    (hlaw : Lawful r.items) (hname : (name, op) ∈ mnemonics)
    (hdone : List.Forall₂ Operand.Spelled ws done) (hle : done.length ≤ op.arity)
    (hallowed : Allows op done) :
    (r.hold op done).Explains (parts.flatten ++ Text.ofString name :: ws) := by
  unfold hold
  split
  · next hlen =>
    refine explains_item hparts (.instruction hname hdone hlen) ?_
    refine lawful_append_iff.2 ⟨hlaw, nofun, ?_⟩
    intro op' operands' heq
    cases heq
    exact hallowed
  · next hlen =>
    exact ⟨parts, _, rfl, hparts, .operands hname hdone (by omega) hallowed, hlaw⟩

theorem allows_append {op : Opcode} {done : List Operand} {o : Operand} (h : Allows op done)
    (ho : o.immediate = true → op.isDestination done.length = false) : Allows op (done ++ [o]) := by
  intro k o' hk himm
  by_cases hlt : k < done.length
  · rw [List.getElem?_append_left hlt] at hk
    exact h k o' hk himm
  · rw [List.getElem?_append_right (by omega)] at hk
    obtain ⟨hzero, rfl⟩ : k - done.length = 0 ∧ o = o' := by
      cases hsub : k - done.length with
      | zero =>
        rw [hsub] at hk
        exact ⟨rfl, Option.some.inj hk⟩
      | succ j =>
        rw [hsub] at hk
        cases hk
    rw [show k = done.length by omega]
    exact ho himm

/-- A word that is taken is explained like the words before it. -/
theorem Explains.step {r r' : Reader} {words : List Text} {w : Text} (h : r.Explains words)
    (hs : r.step w = some r') : r'.Explains (words ++ [w]) := by
  obtain ⟨parts, tail, rfl, hparts, hpending, hlaw⟩ := h
  obtain ⟨items, pending⟩ := r
  rw [List.append_assoc]
  cases hpending with
  | statement =>
    simp only [Reader.step, Reader.statement] at hs
    split at hs
    · next name =>
      -- a definition
      split at hs
      · next hc =>
        cases hs
        refine explains_item hparts (.label hc.1) (lawful_append_iff.2 ⟨hlaw, ?_, nofun⟩)
        intro name' heq
        cases heq
        exact hc.2
      · cases hs
    · split at hs
      · next hdat =>
        -- the value is still to come
        cases hs
        subst hdat
        exact ⟨parts, _, rfl, hparts, .data, hlaw⟩
      · -- a mnemonic, complete if it takes no operands
        obtain ⟨op, hop, rfl⟩ := Option.map_eq_some_iff.1 hs
        obtain ⟨name, rfl, hname⟩ := operation?_eq_some_iff.1 hop
        exact explains_hold hparts hlaw hname .nil (Nat.zero_le _) nofun
  | data =>
    obtain ⟨v, hv, rfl⟩ := Option.map_eq_some_iff.1 hs
    exact explains_item hparts (.data (Value.read?_eq_some_iff.1 hv))
      (lawful_append_iff.2 ⟨hlaw, nofun, nofun⟩)
  | @operands name op ws done hname hdone hlt hallowed =>
    obtain ⟨o, ho, rfl⟩ := Option.map_eq_some_iff.1 hs
    obtain ⟨hspelled, hdest⟩ := Operand.read?_eq_some_iff.1 ho
    refine explains_hold hparts hlaw hname (List.rel_append hdone (.cons hspelled .nil)) ?_
      (allows_append hallowed hdest)
    rw [List.length_append]
    exact hlt

theorem Explains.read {r r' : Reader} {seen words : List Text} (h : r.Explains seen)
    (hr : words.foldlM Reader.step r = some r') : r'.Explains (seen ++ words) := by
  induction words generalizing r seen with
  | nil =>
    cases hr
    rwa [List.append_nil]
  | cons w rest ih =>
    rw [List.foldlM_cons] at hr
    obtain ⟨r₁, hs, hrest⟩ := Option.bind_eq_some_iff.1 hr
    have := ih (h.step hs) hrest
    rwa [List.append_assoc] at this

/-! ## Reading what is spelled -/

theorem read_operands {r : Reader} {op : Opcode} {done : List Operand} {ws : List Text}
    {operands : List Operand} (hws : List.Forall₂ Operand.Spelled ws operands)
    (hlen : (done ++ operands).length = op.arity) (hallowed : Allows op (done ++ operands)) :
    ws.foldlM Reader.step (r.hold op done) = some (r.hold op (done ++ operands)) := by
  induction hws generalizing done with
  | nil => rw [List.append_nil]; rfl
  | @cons w o ws operands ho _ ih =>
    have hlt : done.length < op.arity := by
      rw [List.length_append, List.length_cons] at hlen
      omega
    have hdest : o.immediate = true → op.isDestination done.length = false :=
      hallowed done.length o (by simp)
    have hstep : (r.hold op done).step w = some (r.hold op (done ++ [o])) := by
      have hheld : r.hold op done = ⟨r.items, .operands op done⟩ := by
        rw [hold, if_neg (by omega)]
      rw [hheld]
      simp only [Reader.step, Operand.read?_eq_some_iff.2 ⟨ho, hdest⟩, Option.map_some]
      rfl
    have happ : done ++ o :: operands = done ++ [o] ++ operands := by simp
    rw [happ] at hlen hallowed ⊢
    rw [List.foldlM_cons, hstep]
    exact ih hlen hallowed

theorem statement_colon (r : Reader) (name : Text) :
    r.statement (.char ':' :: name) =
      if isLabelName name = true ∧ .label (Text.toString name) ∉ r.items then
        some ⟨r.items ++ [.label (Text.toString name)], .statement⟩
      else none :=
  rfl

theorem statement_other (r : Reader) {w : Text} (hw : ∀ name, w ≠ .char ':' :: name) :
    r.statement w =
      if w = Text.ofString ".dat" then some ⟨r.items, .data⟩
      else (operation? w).map fun op => r.hold op [] := by
  unfold statement
  split
  · exact absurd rfl (hw _)
  · rfl

theorem statement_mnemonic {name : String} {op : Opcode} (h : (name, op) ∈ mnemonics) (r : Reader) :
    r.statement (Text.ofString name) = some (r.hold op []) := by
  have hcolon : ∀ p ∈ mnemonics, (Text.ofString p.1).head? ≠ some (.char ':') := by decide
  have hdat : ∀ p ∈ mnemonics, Text.ofString p.1 ≠ Text.ofString ".dat" := by decide
  have hother : ∀ label, Text.ofString name ≠ .char ':' :: label := by
    intro label heq
    exact hcolon _ h (by rw [heq]; rfl)
  rw [statement_other r hother, if_neg (hdat _ h), operation?_eq_some_iff.2 ⟨name, rfl, h⟩]
  rfl

theorem read_item {items : List Item} {item : Item} {ws : List Text} (hitem : item.Spelled ws)
    (hlaw : Lawful (items ++ [item])) :
    ws.foldlM Reader.step ⟨items, .statement⟩ = some ⟨items ++ [item], .statement⟩ := by
  obtain ⟨-, hlabel, hallowed⟩ := lawful_append_iff.1 hlaw
  cases hitem with
  | label hname =>
    simp [List.foldlM, Reader.step, Reader.statement, hname, hlabel _ rfl]
  | data hv =>
    have hdat : Reader.statement ⟨items, .statement⟩ (Text.ofString ".dat") =
        some ⟨items, .data⟩ := by
      rfl
    simp [List.foldlM, Reader.step, hdat, Value.read?_eq_some_iff.2 hv]
  | @instruction name op ws operands hname hws hlen =>
    rw [List.foldlM_cons]
    simp only [Reader.step, statement_mnemonic hname]
    have hread : ws.foldlM Reader.step (Reader.hold ⟨items, .statement⟩ op []) =
        some (Reader.hold ⟨items, .statement⟩ op ([] ++ operands)) :=
      read_operands hws hlen (hallowed _ _ rfl)
    have hheld : Reader.hold ⟨items, .statement⟩ op operands =
        ⟨items ++ [.instruction op operands], .statement⟩ := by
      rw [hold, if_pos hlen]
    rw [List.nil_append, hheld] at hread
    exact hread

theorem read_items {items items' : List Item} {parts : List (List Text)}
    (hparts : List.Forall₂ Item.Spelled parts items') (hlaw : Lawful (items ++ items')) :
    parts.flatten.foldlM Reader.step ⟨items, .statement⟩ = some ⟨items ++ items', .statement⟩ := by
  induction hparts generalizing items with
  | nil => rw [List.append_nil]; rfl
  | @cons ws item parts items' hitem _ ih =>
    have happ : items ++ item :: items' = items ++ [item] ++ items' := by simp
    rw [happ] at hlaw ⊢
    rw [List.flatten_cons, List.foldlM_append, read_item hitem hlaw.front]
    exact ih hlaw

end Reader

/-- A reader gets to the end of exactly the words that split into lawful items. -/
theorem read_eq_some_iff {words : List Text} {items : List Item} :
    words.foldlM Reader.step ⟨[], .statement⟩ = some ⟨items, .statement⟩ ↔
      Splits words items ∧ Lawful items := by
  constructor
  · intro h
    have hstart : Reader.Explains ⟨[], .statement⟩ [] :=
      ⟨[], [], rfl, .nil, .statement, .nil⟩
    obtain ⟨parts, tail, hwords, hparts, hpending, hlaw⟩ := hstart.read h
    cases hpending
    rw [List.nil_append, List.append_nil] at hwords
    exact ⟨⟨parts, hwords.symm, hparts⟩, hlaw⟩
  · -- the first word of an item tells its kind, so the reader cannot split otherwise
    rintro ⟨⟨parts, rfl, hparts⟩, hlaw⟩
    exact Reader.read_items hparts hlaw

end CellMachine.Assembly
