import CellMachine.Proofs.Assembly.Order
import CellMachine.Proofs.Assembly.Tokens

/-!
# Diagnostics at their words

A diagnostic that quotes a word is at the place where that word stands in the source text, in
bytes, lines and columns (`Stands`). For what is reported while the text is read this follows from
what a token is blamed for.

A label without a definition is reported only at the end, at a place that has been kept in the
table of labels meanwhile. `Role` says what the words are read as, also behind words that make no
sense, and `referencesOf` which of them refer to labels. An entry without an address keeps the place
of the first reference to its label (`Builder.FirstUses`): a use makes the entry or leaves its
place alone, and only a definition moves it. So the first reference is what the diagnostic points
at (`diagnostics_stand`).
-/

set_option autoImplicit false

namespace CellMachine.Assembly

/-! ## References to labels -/

/-- What a word outside comments is read as. -/
inductive Role where
  | statement
  | value
  | operand (left : Nat)
deriving DecidableEq, Inhabited

/-- The label that a value refers to. -/
def Value.named? (w : Text) : Option String :=
  (Value.read? w).bind Value.name?

/-- An operand without the mark of its mode. -/
def unmarked : Text → Text
  | .char '#' :: rest => rest
  | w => w

namespace Role

/-- What comes next if `count` operands are still to come. -/
def operands : Nat → Role
  | 0 => statement
  | left + 1 => operand left

/-- What is expected behind a word. A word that starts no statement is passed over, and the next
one is tried. -/
def next (w : Text) : Role → Role
  | statement =>
    if w = Text.ofString ".dat" then value
    else (operation? w).elim statement fun op => operands op.arity
  | value => statement
  | operand left => operands left

/-- The label that a word refers to. -/
def name? (w : Text) : Role → Option String
  | statement => none
  | value => Value.named? w
  | operand _ => Value.named? (unmarked w)

end Role

/-- The references to labels in a sequence of words. -/
def references : Role → List Token → List (String × Token)
  | _, [] => []
  | r, t :: rest =>
    (r.name? t.text).toList.map (fun name => (name, t)) ++ references (r.next t.text) rest

/-- The references to labels in a source text, in order. -/
def referencesOf (text : Text) : List (String × Token) :=
  references .statement ((uncommented (Source.ofText text).tokens.toList).filter Token.isWord)

theorem unmarked_plain {w : Text} (hw : ∀ rest, w ≠ .char '#' :: rest) : unmarked w = w := by
  unfold unmarked
  split
  · exact absurd rfl (hw _)
  · rfl

theorem Value.named?_eq_some_iff {w : Text} {name : String} :
    Value.named? w = some name ↔ Value.read? w = some (.label name) := by
  rw [Value.named?, Option.bind_eq_some_iff]
  constructor
  · rintro ⟨v, hv, hname⟩
    cases v with
    | literal => cases hname
    | label n =>
      cases hname
      exact hv
  · intro h
    exact ⟨_, h, rfl⟩

/-- The word is the name, or the name with a mark. -/
theorem Role.toString_of_name? {r : Role} {w : Text} {name : String} (h : r.name? w = some name) :
    w.toString = name ∨ w.toString = "#" ++ name := by
  have hvalue : ∀ {u : Text}, Value.named? u = some name → u.toString = name := by
    intro u hu
    cases Value.read?_eq_some_iff.1 (Value.named?_eq_some_iff.1 hu)
    rfl
  cases r with
  | statement => cases h
  | value => exact Or.inl (hvalue h)
  | operand left =>
    by_cases hw : ∃ rest, w = .char '#' :: rest
    · obtain ⟨rest, rfl⟩ := hw
      rw [← hvalue (u := rest) h]
      exact Or.inr (toString_append [.char '#'] rest)
    · rw [name?, unmarked_plain (not_exists.1 hw)] at h
      exact Or.inl (hvalue h)

theorem mem_references {r : Role} {tokens : List Token} {name : String} {t : Token}
    (h : (name, t) ∈ references r tokens) :
    t ∈ tokens ∧ (t.text.toString = name ∨ t.text.toString = "#" ++ name) := by
  induction tokens generalizing r with
  | nil => cases h
  | cons t' rest ih =>
    rcases List.mem_append.1 h with h | h
    · obtain ⟨name', hname', heq⟩ := List.mem_map.1 h
      cases heq
      exact ⟨List.mem_cons_self, Role.toString_of_name? (Option.mem_toList.1 hname')⟩
    · obtain ⟨hmem, htext⟩ := ih h
      exact ⟨List.mem_cons_of_mem t' hmem, htext⟩

/-! ## First uses -/

/-- What the next word is read as. -/
def Role.of : Expected → Role
  | .statement => statement
  | .value => value
  | .operand _ _ left => operand left

theorem operation?_colon (name : Text) : operation? (.char ':' :: name) = none := by
  have hcolon : ∀ p ∈ mnemonics, (Text.ofString p.1).head? ≠ some (.char ':') := by decide
  cases hop : operation? (.char ':' :: name) with
  | none => rfl
  | some op =>
    obtain ⟨mnemonic, hw, hmem⟩ := operation?_eq_some_iff.1 hop
    exact absurd (by rw [← hw]; rfl) (hcolon _ hmem)

namespace Builder

theorem role_expect (op : Opcode) (start count : Nat) :
    Role.of (expect op start count) = Role.operands count := by
  cases count <;> rfl

theorem role_statement {a : Builder} (ha : a.expected = .statement) (position : Position)
    (w : Text) : Role.of (a.statement position w).expected = Role.statement.next w := by
  unfold Builder.statement
  split
  · next name =>
    -- a definition is neither the directive nor a mnemonic
    have hnext : Role.statement.next (.char ':' :: name) = .statement := by
      have hdat : (.char ':' :: name : Text) ≠ Text.ofString ".dat" := by
        have hhead : (Text.ofString ".dat").head? ≠ some (.char ':') := by decide
        exact fun heq => hhead (by rw [← heq]; rfl)
      rw [Role.next, if_neg hdat, operation?_colon]
      rfl
    rw [hnext]
    split
    · rw [expected_define, ha]
      rfl
    · rw [expected_report, ha]
      rfl
  · rw [Role.next]
    split
    · rfl
    · cases operation? w with
      | none =>
        simp only [expected_report, ha]
        rfl
      | some op => exact role_expect op a.cells.size op.arity

/-- A word is taken for what is expected. -/
theorem role_word (a : Builder) (position : Position) (w : Text) :
    Role.of (a.word position w).expected = (Role.of a.expected).next w := by
  rw [Builder.word]
  cases he : a.expected with
  | statement => exact role_statement he position w
  | value => rfl
  | operand op start left => exact role_expect op start left

/-- Every label referred to has an entry, and one without an address is at the place of the first
reference. -/
structure FirstUses (labels : List Label) (seen : List (String × Token)) : Prop where
  known : ∀ r ∈ seen, ∃ l ∈ labels, l.name = r.1
  first : ∀ l ∈ labels, l.address = none → ∃ t : Token,
    seen.find? (fun r => r.1 = l.name) = some (l.name, t) ∧ t.position = l.position

section FirstUses

variable {a : Builder} {seen : List (String × Token)}

/-- A change of an entry that leaves its place alone, or gives it an address. -/
theorem FirstUses.updateLabel (h : FirstUses a.labels seen) (name : String) {f : Label → Label}
    (hname : ∀ l, (f l).name = l.name)
    (hf : ∀ l, (f l).address = none → l.address = none ∧ (f l).position = l.position) :
    FirstUses (a.updateLabel name f).labels seen := by
  constructor
  · intro r hr
    obtain ⟨l, hl, hlname⟩ := h.known r hr
    refine ⟨_, List.mem_map_of_mem hl, ?_⟩
    split
    · rw [hname, hlname]
    · exact hlname
  · intro l' hl'
    obtain ⟨l, hl, rfl⟩ := List.mem_map.1 hl'
    split
    · intro hnone
      obtain ⟨haddress, hplace⟩ := hf l hnone
      rw [hname, hplace]
      exact h.first l hl haddress
    · exact h.first l hl

/-- A later reference is not the first one. -/
theorem FirstUses.append (h : FirstUses a.labels seen) {r : String × Token}
    (hr : ∃ l ∈ a.labels, l.name = r.1) : FirstUses a.labels (seen ++ [r]) := by
  constructor
  · intro r' hr'
    rcases List.mem_append.1 hr' with hr' | hr'
    · exact h.known r' hr'
    · rw [List.mem_singleton.1 hr']
      exact hr
  · intro l hl hnone
    obtain ⟨t, hfind, hplace⟩ := h.first l hl hnone
    refine ⟨t, ?_, hplace⟩
    rw [List.find?_append, hfind]
    rfl

theorem FirstUses.useLabel (h : FirstUses a.labels seen) (t : Token) (name : String) :
    FirstUses (a.useLabel t.position name).labels (seen ++ [(name, t)]) := by
  unfold Builder.useLabel
  cases hl : a.label? name with
  | some l =>
    obtain ⟨hmem, hname⟩ := mem_of_label? hl
    exact (h.append ⟨l, hmem, hname⟩).updateLabel name (fun _ => rfl) fun _ hnone => ⟨hnone, rfl⟩
  | none =>
    -- no entry means no reference so far
    have hnew := label?_eq_none_iff.1 hl
    have hunseen : seen.find? (fun r => r.1 = name) = none := by
      rw [List.find?_eq_none]
      intro r hr hrname
      obtain ⟨l, hmem, hlname⟩ := h.known r hr
      exact hnew l hmem (hlname.trans (of_decide_eq_true hrname))
    constructor
    · intro r hr
      rcases List.mem_append.1 hr with hr | hr
      · obtain ⟨l, hmem, hlname⟩ := h.known r hr
        exact ⟨l, List.mem_cons_of_mem _ hmem, hlname⟩
      · rw [List.mem_singleton.1 hr]
        exact ⟨_, List.mem_cons_self, rfl⟩
    · intro l hmem hnone
      rcases List.mem_cons.1 hmem with rfl | hmem
      · refine ⟨t, ?_, rfl⟩
        rw [List.find?_append, hunseen]
        simp
      · obtain ⟨t', hfind, hplace⟩ := h.first l hmem hnone
        refine ⟨t', ?_, hplace⟩
        rw [List.find?_append, hfind]
        rfl

theorem FirstUses.define (h : FirstUses a.labels seen) (position : Position) (name : String) :
    FirstUses (a.define position name).labels seen := by
  unfold Builder.define
  split
  · constructor
    · intro r hr
      obtain ⟨l, hmem, hlname⟩ := h.known r hr
      exact ⟨l, List.mem_cons_of_mem _ hmem, hlname⟩
    · intro l hmem hnone
      rcases List.mem_cons.1 hmem with rfl | hmem
      · cases hnone
      · exact h.first l hmem hnone
  · split
    · rw [labels_report]
      exact h
    · exact h.updateLabel name (fun _ => rfl) fun _ hnone =>
        absurd hnone (Option.some_ne_none _)

theorem FirstUses.value (h : FirstUses a.labels seen) (t : Token) (w : Text) :
    FirstUses (a.value t.position w).labels
      (seen ++ (Value.named? w).toList.map fun name => (name, t)) := by
  rcases hv : Value.read? w with _ | (v | name)
  · rw [value_unread hv, Value.named?, hv]
    show FirstUses (a.report t.position _).labels (seen ++ [])
    rw [labels_report, List.append_nil]
    exact h
  · rw [value_literal hv, Value.named?, hv]
    show FirstUses a.labels (seen ++ [])
    rw [List.append_nil]
    exact h
  · rw [value_label hv, Value.named?_eq_some_iff.2 hv]
    exact h.useLabel t name

theorem FirstUses.operand (h : FirstUses a.labels seen) (t : Token) (op : Opcode) (start k : Nat)
    (w : Text) :
    FirstUses (a.operand t.position op start k w).labels
      (seen ++ (Value.named? (unmarked w)).toList.map fun name => (name, t)) := by
  by_cases hw : ∃ rest, w = .char '#' :: rest
  · obtain ⟨rest, rfl⟩ := hw
    rw [operand_hash]
    refine FirstUses.value ?_ t rest
    -- neither the report nor the mode digit touches the labels
    show FirstUses (Builder.labels (ite _ _ _)) seen
    split
    · rw [labels_report]
      exact h
    · exact h
  · rw [operand_plain a t.position op start k (not_exists.1 hw), unmarked_plain (not_exists.1 hw)]
    exact h.value t w

theorem FirstUses.statement (h : FirstUses a.labels seen) (position : Position) (w : Text) :
    FirstUses (a.statement position w).labels seen := by
  unfold Builder.statement
  split
  · split
    · exact h.define position _
    · rw [labels_report]
      exact h
  · split
    · exact h
    · split
      · rw [labels_report]
        exact h
      · exact h

/-- A word is noted as a reference if it is one. -/
theorem FirstUses.word (h : FirstUses a.labels seen) (t : Token) :
    FirstUses (a.word t.position t.text).labels
      (seen ++ ((Role.of a.expected).name? t.text).toList.map fun name => (name, t)) := by
  rw [Builder.word]
  cases a.expected with
  | statement =>
    -- the start of a statement refers to nothing
    show FirstUses (a.statement t.position t.text).labels (seen ++ [])
    rw [List.append_nil]
    exact h.statement t.position t.text
  | value => exact h.value t t.text
  | operand op start left => exact h.operand t op start _ t.text

theorem FirstUses.take_all (h : FirstUses a.labels seen) (tokens : List Token) :
    FirstUses (tokens.foldl take a).labels
      (seen ++ references (Role.of a.expected) (tokens.filter Token.isWord)) := by
  induction tokens generalizing a seen with
  | nil =>
    rw [List.filter_nil, references, List.append_nil]
    exact h
  | cons t rest ih =>
    rw [List.foldl_cons, take]
    by_cases hword : t.isWord = true
    · rw [if_pos hword, List.filter_cons_of_pos hword, references, ← List.append_assoc,
        ← role_word a t.position t.text]
      exact ih (h.word t)
    · -- what is not a word is reported and changes nothing else
      rw [if_neg hword, List.filter_cons_of_neg hword,
        ← expected_report a t.position (.unexpected t.text)]
      apply ih
      rw [labels_report]
      exact h

end FirstUses

@[simp]
theorem labels_close (a : Builder) (position : Position) : (a.close position).labels = a.labels := by
  unfold Builder.close
  split
  · rfl
  · exact labels_report a position _
  · exact labels_report a position _

end Builder

/-- A label without a definition has the place of the first reference to it. -/
theorem first_reference {text : Text} (hsilent : ∀ g ∈ text, complaint? g = none) {l : Label}
    (hl : l ∈ (closed text none).labels) (hnone : l.address = none) :
    ∃ t : Token, (referencesOf text).find? (fun r => r.1 = l.name) = some (l.name, t) ∧
      t.position = l.position := by
  obtain ⟨c, hc⟩ := Builder.feed_uncommented (a := .start)
    ((Source.cuts_ofText text).silent hsilent) rfl
  have hempty : Builder.FirstUses Builder.start.labels [] :=
    ⟨fun _ hr => absurd hr List.not_mem_nil, fun _ hl' => absurd hl' List.not_mem_nil⟩
  have hall := hempty.take_all (uncommented (Source.ofText text).tokens.toList)
  have hlabels : (closed text none).labels =
      ((uncommented (Source.ofText text).tokens.toList).foldl Builder.take .start).labels := by
    rw [closed_none, hc, Builder.labels_close]
  rw [hlabels] at hl
  exact hall.first l hl hnone

/-! ## Words in the source -/

/-- The word stands in the source at a place: the offset is the number of bytes before the word,
the line counts the line breaks there and the column the characters behind the last of them. -/
def Stands (s : String) (p : Position) (word : String) : Prop :=
  ∃ front back : String, s = front ++ word ++ back ∧ p.offset = front.utf8ByteSize ∧
    p.line = 1 + front.toList.count '\n' ∧
    p.column = 1 + (front.toList.rtakeWhile (· != '\n')).length

theorem afterText_ofString (s : String) :
    Position.start.afterText (Text.ofString s) =
      ⟨1 + s.toList.count '\n', 1 + (s.toList.rtakeWhile (· != '\n')).length, s.utf8ByteSize⟩ := by
  have hbreak : ∀ c, (Glyph.char c == .char '\n') = (c == '\n') := by
    simp [beq_eq_decide]
  have hline : (Text.ofString s).count (.char '\n') = s.toList.count '\n' := by
    rw [List.count, Text.ofString, List.countP_map, List.count]
    exact congrArg (List.countP · s.toList) (funext hbreak)
  have hcolumn : ((Text.ofString s).rtakeWhile fun g => !g.is '\n').length =
      (s.toList.rtakeWhile (· != '\n')).length := by
    have hother : ((fun g : Glyph => !g.is '\n') ∘ Glyph.char) = (· != '\n') :=
      funext fun c => congrArg Bool.not (hbreak c)
    rw [List.rtakeWhile, Text.ofString, ← List.map_reverse, List.takeWhile_map, hother,
      List.length_reverse, List.length_map, List.rtakeWhile, List.length_reverse]
  have hoffset : (Position.start.afterText (Text.ofString s)).offset = s.utf8ByteSize := by
    rw [Position.offset_afterText, Text.toBytes_ofString]
    exact Nat.zero_add _
  rw [← hline, ← hcolumn, ← Position.line_afterText, ← Position.column_afterText, ← hoffset]

/-- A token stands where it says. -/
theorem stands_token {s : String} {t : Token}
    (ht : t ∈ (Source.ofText (Text.ofString s)).tokens.toList) :
    Stands s t.position t.text.toString := by
  obtain ⟨-, front, back, htext, hplace⟩ := (Source.cuts_ofText _).stands ht
  have hs : s = front.toString ++ t.text.toString ++ back.toString := by
    rw [← toString_append, ← toString_append, ← htext, toString_ofString]
  -- the front of a text made of characters is made of characters
  have hfront : front = Text.ofString front.toString := by
    rw [List.append_assoc] at htext
    obtain ⟨cs, _, -, rfl, -⟩ := List.map_eq_append_iff.1 htext
    simp [Text.toString, Text.ofString, Glyph.shown, Function.comp_def]
  refine ⟨front.toString, back.toString, hs, ?_⟩
  rw [hplace, hfront, afterText_ofString, ← hfront]
  exact ⟨rfl, rfl, rfl⟩

/-- A word that is quoted without its mark. -/
theorem Stands.marked {s : String} {p : Position} {word quoted : String} (h : Stands s p word)
    (hquoted : word = quoted ∨ word = "#" ++ quoted) :
    Stands s p quoted ∨ Stands s p ("#" ++ quoted) := by
  rcases hquoted with rfl | rfl
  · exact Or.inl h
  · exact Or.inr h

theorem complaint?_ofString {s : String} (hnul : Char.ofNat 0 ∉ s.toList) :
    ∀ g ∈ Text.ofString s, complaint? g = none := by
  intro g hg
  obtain ⟨c, hc, rfl⟩ := List.mem_map.1 hg
  rw [complaint?, if_neg]
  intro hzero
  exact hnul (by rwa [← hzero, Char.ofNat_toNat])

/-! ## Diagnostics of a refusal -/

theorem Builder.adds_close (a : Builder) (position : Position) :
    Adds (fun d => d.problem.heading ∈ endHeadings) a (a.close position) := by
  rw [Builder.close]
  cases a.expected with
  | statement => exact .of_eq rfl
  | value => exact adds_report a (List.mem_cons_of_mem _ List.mem_cons_self)
  | operand op start left => exact adds_report a List.mem_cons_self

/-- A diagnostic is blamed on a token, or it is about a label without a definition, or about the
end of the text. -/
theorem diagnostic_cases {file : String} {text : Text} {r : Refusal}
    (h : assemble file text none = .error r) {d : Diagnostic} (hd : d ∈ r.diagnostics) :
    (∃ t ∈ (Source.ofText text).tokens.toList, d.position = t.position ∧ d.problem.About t.text) ∨
      (∃ l ∈ (closed text none).labels, l.address = none ∧ d = l.undefined) ∨
      d.problem.heading ∈ endHeadings := by
  rw [assemble_eq, Builder.result] at h
  split at h
  · cases h
    rw [Builder.resolveAll, Builder.diagnostics_resolveList] at hd
    rcases List.mem_append.1 hd with hd | hd
    · -- reported before the labels were filled in
      rw [closed_none] at hd
      rcases (Builder.adds_close _ _).mem hd with hd | hend
      · exact Or.inl ((Builder.blame_of_feedAll hd).resolve_left List.not_mem_nil)
      · exact Or.inr (Or.inr hend)
    · obtain ⟨l, hl, rfl⟩ := List.mem_map.1 hd
      obtain ⟨hmem, hnone⟩ := List.mem_filter.1 (List.mem_of_mem_take hl)
      exact Or.inr (Or.inl ⟨l, List.mem_mergeSort.1 hmem, Option.isNone_iff_eq_none.1 hnone, rfl⟩)
  · split at h
    · cases h
      rw [List.mem_singleton.1 hd]
      exact Or.inr (Or.inr (by simp [Problem.heading, endHeadings]))
    · cases h

/-- In a source text without the character NUL, a message that quotes a word is at the place
where the word stands. A message about an operand that is neither a number nor a label, or about
an undefined label, may leave out the mark before it. An undefined label is reported where it is
referred to first. -/
theorem diagnostics_stand {file s : String} {r : Refusal} (hnul : Char.ofNat 0 ∉ s.toList)
    (h : assemble file (Text.ofByteArray s.toUTF8) none = .error r) {d : Diagnostic}
    (hd : d ∈ r.diagnostics) (t : String) :
    (∀ heading ∈ wordHeadings, d.problem.message file = heading ++ t → Stands s d.position t) ∧
    (d.problem.message file = "Invalid operand " ++ t →
      Stands s d.position t ∨ Stands s d.position ("#" ++ t)) ∧
    (d.problem.message file = "Undefined label " ++ t →
      (∃ token, (referencesOf (Text.ofByteArray s.toUTF8)).find? (fun r => r.1 = t) =
        some (t, token) ∧ token.position = d.position) ∧
      (Stands s d.position t ∨ Stands s d.position ("#" ++ t))) := by
  rw [Text.ofByteArray_toUTF8] at h ⊢
  rcases diagnostic_cases h hd with ⟨token, htoken, hplace, habout⟩ | ⟨l, hl, hnone, rfl⟩ | hend
  · -- reported while the text was read: the word is that of the token
    have hstands := stands_token htoken
    rw [← hplace] at hstands
    obtain ⟨hwords, hoperand, hlabel⟩ := habout.quotes file t
    refine ⟨?_, fun hm => hstands.marked (hoperand hm), fun hm => absurd hm hlabel⟩
    intro heading hheading hm
    rw [← hwords heading hheading hm]
    exact hstands
  · -- reported at the end: the place is that of the first reference
    obtain ⟨hwords, hoperand, hlabel⟩ := Problem.undefinedLabel_quotes l.name file t
    refine ⟨fun heading hword hm => absurd hm (hwords heading hword),
      fun hm => absurd hm hoperand, ?_⟩
    intro hm
    obtain rfl := hlabel hm
    obtain ⟨token, hfind, hplace⟩ := first_reference (complaint?_ofString hnul) hl hnone
    obtain ⟨hmem, htext⟩ := mem_references (List.mem_of_find?_eq_some hfind)
    have hstands := stands_token ((uncommented_sublist _).mem (List.mem_of_mem_filter hmem))
    rw [hplace] at hstands
    exact ⟨⟨token, hfind, hplace⟩, hstands.marked htext⟩
  · -- about the end of the text: nothing is quoted
    refine ⟨?_, ?_, ?_⟩
    · intro heading hword hm
      exact absurd hm (Problem.message_ne_of_end hend (List.mem_append_left _ hword))
    · intro hm
      exact absurd hm (Problem.message_ne_of_end hend (by decide +kernel))
    · intro hm
      exact absurd hm (Problem.message_ne_of_end hend (by decide +kernel))

/-- A word that starts no statement, and an operand with the same word as a label, which is not
defined. The first of them does not refer to the label. -/
def undefinedJump : Refusal :=
  ⟨"x", [⟨⟨1, 1, 0⟩, .mnemonic (.ofString "é")⟩, ⟨⟨2, 6, 9⟩, .missingOperands 1 .jumpIfTrue⟩,
    ⟨⟨2, 4, 6⟩, .undefinedLabel "é"⟩]⟩

theorem assemble_undefinedJump :
    assemble "x" (.ofByteArray "é\njt #é".toUTF8) none = .error undefinedJump := by
  rw [Text.ofByteArray_toUTF8]
  decide +kernel

theorem undefinedJump_stands :
    assemble "x" (.ofByteArray "é\njt #é".toUTF8) none = .error undefinedJump ∧
      Stands "é\njt #é" ⟨1, 1, 0⟩ "é" ∧
      (∃ token, (referencesOf (.ofByteArray "é\njt #é".toUTF8)).find? (fun r => r.1 = "é") =
        some ("é", token) ∧ token.position = ⟨2, 4, 6⟩) ∧
      (Stands "é\njt #é" ⟨2, 4, 6⟩ "é" ∨ Stands "é\njt #é" ⟨2, 4, 6⟩ ("#" ++ "é")) := by
  have hnul : Char.ofNat 0 ∉ "é\njt #é".toList := by decide
  refine ⟨assemble_undefinedJump, ?_, ?_⟩
  · have hd : ⟨⟨1, 1, 0⟩, .mnemonic (.ofString "é")⟩ ∈ undefinedJump.diagnostics := by decide
    exact (diagnostics_stand hnul assemble_undefinedJump hd "é").1 "Unknown mnemonic: " (by decide)
      (by decide +kernel)
  · have hd : ⟨⟨2, 4, 6⟩, .undefinedLabel "é"⟩ ∈ undefinedJump.diagnostics := by decide
    exact (diagnostics_stand hnul assemble_undefinedJump hd "é").2.2 rfl

end CellMachine.Assembly
