import CellMachine.Proofs.Assembly.Labels
import CellMachine.Proofs.Assembly.Reader

/-!
# What a token is blamed for

No step of the assembler takes a diagnostic back (`Builder.Adds`). One that is made while the text
is read is at the place of the token just taken, and it is about that token: `Problem.About` says
what of a token a problem may quote. This holds for each step (`Builder.blames_feed`), and so for
all diagnostics that the tokens of a text have led to (`Builder.blame_of_feedAll`).

The messages tell the problems apart. They start with different headings, none of which is the
beginning of another one that quotes something (`Problem.heading_eq`), so what a message quotes is
known from its wording alone (`Problem.About.quotes`).
-/

set_option autoImplicit false

namespace CellMachine.Assembly

/-- The problem is one that a word can have, and what it quotes is the word, or the word without
the `#` before an operand. -/
def Problem.About (w : Text) : Problem → Prop
  | .mnemonic u | .labelName u | .immediateDestination u | .unexpected u => w = u
  | .operand u => w = u ∨ w = .char '#' :: u
  | .glyph _ | .redefinition _ _ => True
  | .unreadable _ | .missingOperands _ _ | .missingValue | .undefinedLabel _ | .emptyProgram => False

namespace Builder

/-! ## What is done with a word -/

/-- What is done with a value depends on what the word can be read as. -/
theorem value_literal {w : Text} {v : Cell} (h : Value.read? w = some (.literal v)) (a : Builder)
    (position : Position) : a.value position w = a.emit v := by
  unfold Value.read? at h
  unfold Builder.value
  cases hn : Numeral.int64 w with
  | ok n =>
    rw [hn] at h
    cases h
    rfl
  | error fault =>
    rw [hn] at h
    by_cases hl : isLabelName w = true <;> simp [hl] at h

theorem value_label {w : Text} {name : String} (h : Value.read? w = some (.label name))
    (a : Builder) (position : Position) :
    a.value position w = (a.useLabel position name).emit 0 := by
  unfold Value.read? at h
  unfold Builder.value
  cases hn : Numeral.int64 w with
  | ok n =>
    rw [hn] at h
    cases h
  | error fault =>
    by_cases hl : isLabelName w = true
    · simp only [hn, hl, if_true, Option.some.injEq, Value.label.injEq] at h ⊢
      rw [h]
    · simp [hn, hl] at h

theorem value_unread {w : Text} (h : Value.read? w = none) (a : Builder) (position : Position) :
    a.value position w = (a.report position (.operand w)).emit 0 := by
  unfold Value.read? at h
  unfold Builder.value
  cases hn : Numeral.int64 w with
  | ok n =>
    rw [hn] at h
    cases h
  | error fault =>
    by_cases hl : isLabelName w = true
    · simp [hn, hl] at h
    · simp [hl]

theorem operand_hash (a : Builder) (position : Position) (op : Opcode) (start k : Nat)
    (rest : Text) :
    a.operand position op start k (.char '#' :: rest) =
      ((if op.isDestination k then a.report position (.immediateDestination (.char '#' :: rest))
        else a).addTo start (modeWeight k)).value position rest :=
  rfl

theorem operand_plain (a : Builder) (position : Position) (op : Opcode) (start k : Nat) {w : Text}
    (hw : ∀ rest, w ≠ .char '#' :: rest) :
    a.operand position op start k w = a.value position w := by
  unfold Builder.operand
  split
  · exact absurd rfl (hw _)
  · rfl

/-! ## Reports on a word -/

/-- From `a` to `b` nothing is taken back, and only reports of a kind are added. -/
def Adds (P : Diagnostic → Prop) (a b : Builder) : Prop :=
  ∃ ds, b.diagnostics.toList = a.diagnostics.toList ++ ds ∧ ∀ d ∈ ds, P d

/-- From `a` to `b` all reports are at one place and about one word. -/
def Blames (position : Position) (w : Text) (a b : Builder) : Prop :=
  Adds (fun d => d.position = position ∧ d.problem.About w) a b

section Adds

variable {P Q : Diagnostic → Prop} {a b c : Builder}

theorem Adds.of_eq (h : b.diagnostics = a.diagnostics) : Adds P a b := by
  refine ⟨[], by rw [h, List.append_nil], ?_⟩
  intro d hd
  cases hd

theorem Adds.trans (h : Adds P a b) (h' : Adds P b c) : Adds P a c := by
  obtain ⟨ds, hds, hall⟩ := h
  obtain ⟨ds', hds', hall'⟩ := h'
  refine ⟨ds ++ ds', by rw [hds', hds, List.append_assoc], ?_⟩
  intro d hd
  rcases List.mem_append.1 hd with hd | hd
  · exact hall d hd
  · exact hall' d hd

theorem Adds.mono (h : Adds P a b) (hP : ∀ d, P d → Q d) : Adds Q a b := by
  obtain ⟨ds, hds, hall⟩ := h
  exact ⟨ds, hds, fun d hd => hP d (hall d hd)⟩

theorem Adds.mem (h : Adds P a b) {d : Diagnostic} (hd : d ∈ b.diagnostics.toList) :
    d ∈ a.diagnostics.toList ∨ P d := by
  obtain ⟨ds, hds, hall⟩ := h
  rw [hds] at hd
  exact (List.mem_append.1 hd).imp_right (hall d)

theorem Adds.broken (h : Adds P a b) (ha : a.Broken) : b.Broken := by
  obtain ⟨ds, hds, -⟩ := h
  intro hempty
  rw [hempty, Array.toList_empty] at hds
  exact ha (Array.toList_eq_nil_iff.1 (List.append_eq_nil_iff.1 hds.symm).1)

theorem adds_report (a : Builder) {position : Position} {problem : Problem}
    (h : P ⟨position, problem⟩) : Adds P a (a.report position problem) := by
  rw [report]
  split
  · refine ⟨[⟨position, problem⟩], Array.toList_push, ?_⟩
    intro d hd
    rw [List.mem_singleton.1 hd]
    exact h
  · exact .of_eq rfl

end Adds

section Blames

variable {w : Text}

theorem blames_report (a : Builder) (position : Position) {problem : Problem}
    (h : problem.About w) : Blames position w a (a.report position problem) :=
  adds_report a ⟨rfl, h⟩

/-- A value is blamed on its word, which may have a mark before the value. -/
theorem blames_value {u : Text} (hu : w = u ∨ w = .char '#' :: u) (a : Builder)
    (position : Position) : Blames position w a (a.value position u) := by
  rcases hv : Value.read? u with _ | (v | name)
  · rw [value_unread hv]
    have hreport : Blames position w a (a.report position (.operand u)) :=
      blames_report a position hu
    exact hreport.trans (.of_eq rfl)
  · rw [value_literal hv]
    exact .of_eq rfl
  · rw [value_label hv]
    exact .of_eq (diagnostics_useLabel a position name)

theorem blames_operand (a : Builder) (position : Position) (op : Opcode) (start k : Nat)
    (w : Text) : Blames position w a (a.operand position op start k w) := by
  by_cases hw : ∃ rest, w = .char '#' :: rest
  · obtain ⟨rest, rfl⟩ := hw
    rw [operand_hash]
    -- a mark that is not allowed is reported first, and then the value is read all the same
    refine Adds.trans ?_ (blames_value (Or.inr rfl) _ position)
    split
    · have hreport : Blames position (.char '#' :: rest) a
          (a.report position (.immediateDestination (.char '#' :: rest))) :=
        blames_report a position rfl
      exact hreport.trans (.of_eq rfl)
    · exact .of_eq rfl
  · rw [operand_plain a position op start k (not_exists.1 hw)]
    exact blames_value (Or.inl rfl) a position

theorem blames_define (a : Builder) (position : Position) (w : Text) (name : String) :
    Blames position w a (a.define position name) := by
  rw [Builder.define]
  split
  · exact .of_eq rfl
  · split
    · exact blames_report a position trivial
    · exact .of_eq rfl

theorem blames_statement (a : Builder) (position : Position) (w : Text) :
    Blames position w a (a.statement position w) := by
  unfold Builder.statement
  split
  · split
    · exact blames_define a position _ _
    · exact blames_report a position rfl
  · split
    · exact .of_eq rfl
    · split
      · exact blames_report a position rfl
      · exact .of_eq rfl

theorem blames_word (a : Builder) (position : Position) (w : Text) :
    Blames position w a (a.word position w) := by
  rw [Builder.word]
  cases a.expected with
  | statement => exact blames_statement a position w
  | value => exact (blames_value (Or.inl rfl) a position).trans (.of_eq rfl)
  | operand op start left => exact (blames_operand a position _ _ _ w).trans (.of_eq rfl)

theorem blames_complaints (a : Builder) (position : Position) (w : Text)
    (complaints : List Complaint) :
    Blames position w a (complaints.foldl (fun a c => a.report position (.glyph c)) a) := by
  induction complaints generalizing a with
  | nil => exact .of_eq rfl
  | cons c rest ih =>
    have habout : (Problem.glyph c).About w := trivial
    exact (blames_report a position habout).trans (ih _)

/-- A token is blamed at its place and for what it says. -/
theorem blames_feed (a : Builder) (t : Token) : Blames t.position t.text a (a.feed t) := by
  refine (blames_complaints a t.position t.text t.complaints).trans ?_
  simp only [Builder.feed]
  split
  · exact .of_eq rfl
  · split
    · exact blames_report _ t.position rfl
    · split
      · exact .of_eq rfl
      · exact blames_word _ t.position t.text

end Blames

/-- Every diagnostic that tokens lead to is blamed on one of them. -/
theorem blame_of_feedAll {tokens : List Token} {a : Builder} {d : Diagnostic}
    (hd : d ∈ (tokens.foldl feed a).diagnostics.toList) :
    d ∈ a.diagnostics.toList ∨ ∃ t ∈ tokens, d.position = t.position ∧ d.problem.About t.text := by
  induction tokens generalizing a with
  | nil => exact Or.inl hd
  | cons t rest ih =>
    rcases ih hd with hd | ⟨t', ht', hblame⟩
    · rcases (blames_feed a t).mem hd with hd | hblame
      · exact Or.inl hd
      · exact Or.inr ⟨t, List.mem_cons_self, hblame⟩
    · exact Or.inr ⟨t', List.mem_cons_of_mem t ht', hblame⟩

end Builder

/-! ## Messages -/

/-- The words with which the message of a problem starts. -/
def Problem.heading : Problem → String
  | glyph complaint => complaint.message
  | unreadable reason => reason
  | unexpected _ => "Unexpected character "
  | operand _ => "Invalid operand "
  | immediateDestination _ => "Immediate mode destination: "
  | labelName _ => "Invalid label name: "
  | redefinition _ _ => "Label redefinition: "
  | mnemonic _ => "Unknown mnemonic: "
  | missingOperands _ _ => "Missing "
  | missingValue => "Missing .dat value"
  | undefinedLabel _ => "Undefined label "
  | emptyProgram => "Empty program"

/-- The headings of messages that quote a whole word. -/
def wordHeadings : List String :=
  ["Unknown mnemonic: ", "Invalid label name: ", "Immediate mode destination: "]

/-- The headings of messages that quote an operand or a label. -/
def valueHeadings : List String :=
  ["Invalid operand ", "Undefined label "]

/-- The headings of messages about the end of the text. -/
def endHeadings : List String :=
  ["Missing ", "Missing .dat value", "Empty program"]

/-- The headings of the messages that do not come from outside. -/
def headings : List String :=
  wordHeadings ++ valueHeadings ++ endHeadings ++
    ["invalid UTF-8 encoding", "invalid character NUL", "Unexpected character ",
      "Label redefinition: "]

namespace Problem

variable {file : String} {p : Problem} {w : Text} {t : String}

theorem message_heading (file : String) (p : Problem) :
    ∃ rest, p.message file = p.heading ++ rest := by
  have hwhole : ∀ s : String, ∃ rest, s = s ++ rest := fun s => ⟨"", String.append_empty.symm⟩
  cases p with
  | glyph complaint => exact hwhole complaint.message
  | unreadable reason => exact hwhole reason
  | missingValue => exact hwhole "Missing .dat value"
  | emptyProgram => exact hwhole "Empty program"
  | redefinition name previous =>
    refine ⟨name ++ ", previous definition here: " ++ previous.text file, ?_⟩
    rw [message.eq_def, heading, ← String.append_assoc, ← String.append_assoc]
  | missingOperands count op =>
    refine ⟨Numeral.write count ++ " operand(s) for " ++ op.name, ?_⟩
    rw [message.eq_def, heading, ← String.append_assoc, ← String.append_assoc]
  | unexpected text => exact ⟨quoteToken text, rfl⟩
  | operand text => exact ⟨text.toString, rfl⟩
  | immediateDestination text => exact ⟨text.toString, rfl⟩
  | labelName text => exact ⟨text.toString, rfl⟩
  | mnemonic text => exact ⟨text.toString, rfl⟩
  | undefinedLabel name => exact ⟨name, rfl⟩

/-- No heading of a message that quotes something is the beginning of another heading. -/
theorem heading_eq {h : String} (hquote : h ∈ wordHeadings ++ valueHeadings)
    (hp : p.heading ∈ headings) (hm : p.message file = h ++ t) : p.heading = h := by
  have hfree : ∀ x ∈ wordHeadings ++ valueHeadings, ∀ y ∈ headings,
      x.toList <+: y.toList ∨ y.toList <+: x.toList → y = x := by
    decide +kernel
  obtain ⟨rest, hrest⟩ := message_heading file p
  have hlist : p.heading.toList ++ rest.toList = h.toList ++ t.toList := by
    rw [← String.toList_append, ← String.toList_append, ← hrest, hm]
  -- both headings begin the message, so one of them begins the other
  have hle : h.toList <+: p.heading.toList ++ rest.toList := by
    rw [hlist]
    exact List.prefix_append _ _
  exact hfree h hquote _ hp (List.prefix_or_prefix_of_prefix hle (List.prefix_append _ _))

theorem About.heading_mem (h : p.About w) : p.heading ∈ headings := by
  cases p with
  | glyph complaint => cases complaint <;> decide +kernel
  | unexpected | operand | immediateDestination | labelName | mnemonic | redefinition =>
    simp [heading, headings, wordHeadings, valueHeadings]
  | unreadable | missingOperands | missingValue | undefinedLabel | emptyProgram => exact h.elim

theorem About.message_word (file : String) (h : p.About w) (hp : p.heading ∈ wordHeadings) :
    p.message file = p.heading ++ w.toString := by
  cases p with
  | mnemonic u | labelName u | immediateDestination u =>
    rw [show w = u from h]
    rfl
  | glyph complaint => cases complaint <;> exact absurd hp (by decide +kernel)
  | unexpected | operand | redefinition => simp [heading, wordHeadings] at hp
  | unreadable | missingOperands | missingValue | undefinedLabel | emptyProgram => exact h.elim

theorem About.message_operand (file : String) (h : p.About w) (hp : p.heading = "Invalid operand ") :
    ∃ u : Text, (w = u ∨ w = .char '#' :: u) ∧ p.message file = p.heading ++ u.toString := by
  cases p with
  | operand u => exact ⟨u, h, rfl⟩
  | glyph complaint => cases complaint <;> exact absurd hp (by decide +kernel)
  | unexpected | immediateDestination | labelName | mnemonic | redefinition =>
    simp [heading] at hp
  | unreadable | missingOperands | missingValue | undefinedLabel | emptyProgram => exact h.elim

theorem About.heading_ne (h : p.About w) : p.heading ≠ "Undefined label " := by
  cases p with
  | glyph complaint => cases complaint <;> decide +kernel
  | unexpected | operand | immediateDestination | labelName | mnemonic | redefinition =>
    simp [heading]
  | unreadable | missingOperands | missingValue | undefinedLabel | emptyProgram => exact h.elim

/-- What a message quotes is the word that the problem is about. -/
theorem About.quotes (h : p.About w) (file t : String) :
    (∀ heading ∈ wordHeadings, p.message file = heading ++ t → w.toString = t) ∧
      (p.message file = "Invalid operand " ++ t → w.toString = t ∨ w.toString = "#" ++ t) ∧
      p.message file ≠ "Undefined label " ++ t := by
  refine ⟨?_, ?_, ?_⟩
  · intro heading hword hm
    obtain rfl := heading_eq (List.mem_append_left _ hword) h.heading_mem hm
    rw [h.message_word file hword] at hm
    exact (String.append_right_inj _).1 hm
  · intro hm
    have hp := heading_eq (by decide +kernel) h.heading_mem hm
    obtain ⟨u, hu, hmu⟩ := h.message_operand file hp
    rw [hmu, hp] at hm
    rw [← (String.append_right_inj _).1 hm]
    rcases hu with rfl | rfl
    · exact Or.inl rfl
    · exact Or.inr (toString_append [.char '#'] u)
  · intro hm
    exact h.heading_ne (heading_eq (by decide +kernel) h.heading_mem hm)

/-- A message about an undefined label quotes the label, and is no other message. -/
theorem undefinedLabel_quotes (name file t : String) :
    (∀ heading ∈ wordHeadings, (undefinedLabel name).message file ≠ heading ++ t) ∧
      (undefinedLabel name).message file ≠ "Invalid operand " ++ t ∧
      ((undefinedLabel name).message file = "Undefined label " ++ t → name = t) := by
  have hheading : ∀ x ∈ wordHeadings ++ valueHeadings,
      (undefinedLabel name).message file = x ++ t → "Undefined label " = x := by
    intro x hx hm
    exact heading_eq hx (by simp [heading, headings, valueHeadings]) hm
  refine ⟨?_, ?_, (String.append_right_inj _).1⟩
  · intro heading hword hm
    rw [← hheading heading (List.mem_append_left _ hword) hm] at hword
    exact absurd hword (by decide +kernel)
  · intro hm
    exact absurd (hheading _ (by decide +kernel) hm) (by decide +kernel)

/-- A message about the end of the text quotes nothing. -/
theorem message_ne_of_end (hend : p.heading ∈ endHeadings) {h : String}
    (hquote : h ∈ wordHeadings ++ valueHeadings) : p.message file ≠ h ++ t := by
  have hfree : ∀ x ∈ endHeadings, x ∉ wordHeadings ++ valueHeadings := by decide +kernel
  have hknown : p.heading ∈ headings := List.mem_append_left _ (List.mem_append_right _ hend)
  intro hm
  rw [← heading_eq hquote hknown hm] at hquote
  exact hfree _ hend hquote

end Problem

end CellMachine.Assembly
