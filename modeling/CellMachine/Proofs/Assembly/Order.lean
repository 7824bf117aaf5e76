import CellMachine.Proofs.Assembly.Acceptance
import CellMachine.Proofs.Assembly.Tokens

/-!
# The order of diagnostics

While the text is read, each token is reported at its own place, and what is still missing
at the end of the text. The tokens follow one another in the text (`Source.Follow`), so the
diagnostics made until then are in the order of the text (`Builder.sequential_closed`).

Labels without a definition are known only after that. They are reported in the order of
their names (`Builder.diagnostics_resolveList`), at the place of their first use, behind all
other diagnostics; so the whole list need not be in the order of the text
(`diagnostics_order`).
-/

set_option autoImplicit false

namespace CellMachine.Assembly

/-- The diagnostics are in the order of the text. -/
def InOrder (ds : List Diagnostic) : Prop :=
  ds.Pairwise fun d d' => d.position.offset ≤ d'.position.offset

instance (ds : List Diagnostic) : Decidable (InOrder ds) :=
  inferInstanceAs (Decidable (List.Pairwise _ ds))

/-! ## Tokens -/

theorem Position.offset_le_afterText (p : Position) (t : Text) :
    p.offset ≤ (p.afterText t).offset := by
  rw [offset_afterText]
  exact Nat.le_add_right _ _

namespace Source

/-- The tokens follow one another in the text, and none begins behind a place. -/
structure Follow (tokens : List Token) (finish : Position) : Prop where
  order : tokens.Pairwise fun t t' => t.position.offset ≤ t'.position.offset
  finish : ∀ t ∈ tokens, t.position.offset ≤ finish.offset

/-- The tokens of a text are behind the place where it begins, in the order of the text. -/
theorem Cuts.follow {p q : Position} {text : Text} {tokens : List Token}
    (h : Cuts p text tokens q) :
    p.offset ≤ q.offset ∧ (∀ t ∈ tokens, p.offset ≤ t.position.offset) ∧ Follow tokens q := by
  induction h with
  | finish p =>
    exact ⟨Nat.le_refl _, fun t ht => absurd ht List.not_mem_nil, List.Pairwise.nil,
      fun t ht => absurd ht List.not_mem_nil⟩
  | @space p q g rest tokens _ _ ih =>
    obtain ⟨hend, hbehind, hfollow⟩ := ih
    have hle : p.offset ≤ (p.after g).offset := p.offset_le_afterText [g]
    exact ⟨Nat.le_trans hle hend, fun t ht => Nat.le_trans hle (hbehind t ht), hfollow⟩
  | @token t q rest tokens _ _ _ ih =>
    obtain ⟨hend, hbehind, hfollow⟩ := ih
    have hle := t.position.offset_le_afterText t.text
    have hrest : ∀ t' ∈ tokens, t.position.offset ≤ t'.position.offset :=
      fun t' ht' => Nat.le_trans hle (hbehind t' ht')
    refine ⟨Nat.le_trans hle hend, ?_, hfollow.order.cons hrest, ?_⟩
    · intro t' ht'
      rcases List.mem_cons.1 ht' with rfl | ht'
      · exact Nat.le_refl _
      · exact hrest t' ht'
    · intro t' ht'
      rcases List.mem_cons.1 ht' with rfl | ht'
      · exact Nat.le_trans hle hend
      · exact hfollow.finish t' ht'

end Source

/-! ## Reports at one place -/

/-- Whether the problem is a label without a definition. -/
def Problem.isUndefined : Problem → Bool
  | undefinedLabel _ => true
  | _ => false

/-- A word is never to blame for a label without a definition. -/
theorem Problem.About.isUndefined_eq {p : Problem} {w : Text} (h : p.About w) :
    p.isUndefined = false := by
  cases p with
  | undefinedLabel => exact h.elim
  | _ => rfl

namespace Builder

/-- From `a` to `b` all reports are at one place, and none is about an undefined label. -/
def Reports (position : Position) (a b : Builder) : Prop :=
  ∃ ds, b.diagnostics.toList = a.diagnostics.toList ++ ds ∧
    ∀ d ∈ ds, d.position = position ∧ d.problem.isUndefined = false

section Reports

variable {a b : Builder} {position : Position}

theorem Reports.of_eq (h : b.diagnostics = a.diagnostics) : Reports position a b :=
  Adds.of_eq h

theorem reports_report (a : Builder) (position : Position) {problem : Problem}
    (h : problem.isUndefined = false) : Reports position a (a.report position problem) :=
  adds_report a ⟨rfl, h⟩

/-- A token is reported at its place. -/
theorem reports_feed (a : Builder) (t : Token) : Reports t.position a (a.feed t) :=
  (blames_feed a t).mono fun _ h => ⟨h.1, h.2.isUndefined_eq⟩

theorem reports_close (a : Builder) (position : Position) :
    Reports position a (a.close position) := by
  unfold Builder.close
  split
  · exact .of_eq rfl
  · exact reports_report a position rfl
  · exact reports_report a position rfl

end Reports

/-! ## The whole text -/

/-- The diagnostics so far are in the order of the text, none is behind a place, and none
is about an undefined label. -/
structure Sequential (a : Builder) (bound : Nat) : Prop where
  order : InOrder a.diagnostics.toList
  bound : ∀ d ∈ a.diagnostics.toList, d.position.offset ≤ bound
  defined : ∀ d ∈ a.diagnostics.toList, d.problem.isUndefined = false

theorem sequential_start (bound : Nat) : start.Sequential bound :=
  ⟨List.Pairwise.nil, by simp [start], by simp [start]⟩

/-- Reports at a place that is not before the bound. -/
theorem Sequential.reports {a b : Builder} {bound : Nat} {position : Position}
    (h : a.Sequential bound) (hle : bound ≤ position.offset) (hr : Reports position a b) :
    b.Sequential position.offset := by
  obtain ⟨ds, hds, hall⟩ := hr
  have hold : ∀ d ∈ a.diagnostics.toList, d.position.offset ≤ position.offset :=
    fun d hd => Nat.le_trans (h.bound d hd) hle
  have hnew : ∀ d ∈ ds, d.position.offset = position.offset := by
    intro d hd
    rw [(hall d hd).1]
  constructor
  · rw [hds, InOrder, List.pairwise_append]
    refine ⟨h.order, ?_, ?_⟩
    · apply List.pairwise_of_forall_mem_list
      intro d hd d' hd'
      exact Nat.le_of_eq ((hnew d hd).trans (hnew d' hd').symm)
    · intro d hd d' hd'
      rw [hnew d' hd']
      exact hold d hd
  · intro d hd
    rw [hds] at hd
    rcases List.mem_append.1 hd with hd | hd
    · exact hold d hd
    · exact Nat.le_of_eq (hnew d hd)
  · intro d hd
    rw [hds] at hd
    rcases List.mem_append.1 hd with hd | hd
    · exact h.defined d hd
    · exact (hall d hd).2

theorem Sequential.feedAll {a : Builder} {bound : Nat} {tokens : List Token} {finish : Position}
    (h : a.Sequential bound) (hbound : bound ≤ finish.offset)
    (hle : ∀ t ∈ tokens, bound ≤ t.position.offset) (hf : Source.Follow tokens finish) :
    (tokens.foldl feed a).Sequential finish.offset := by
  induction tokens generalizing a bound with
  | nil => exact h.reports hbound (.of_eq rfl)
  | cons t rest ih =>
    -- the bound moves on to the token just taken, and the others are not before it
    obtain ⟨hfirst, hrest⟩ := List.pairwise_cons.1 hf.order
    have hnext : (a.feed t).Sequential t.position.offset :=
      h.reports (hle t List.mem_cons_self) (reports_feed a t)
    exact ih hnext (hf.finish t List.mem_cons_self) hfirst
      ⟨hrest, fun t' ht' => hf.finish t' (List.mem_cons_of_mem t ht')⟩

/-- What is reported before the labels are filled in is in the order of the text. -/
theorem sequential_closed (text : Text) (failure : Option String) :
    (closed text failure).Sequential (sourceOf text failure).finish.offset := by
  have htokens := (sequential_start 0).feedAll (Nat.zero_le _) (fun _ _ => Nat.zero_le _)
    (Source.cuts_ofText (readable text failure)).follow.2.2
  rw [Array.foldl_toList] at htokens
  rw [closed]
  refine Sequential.reports ?_ (Nat.le_refl _) (reports_close _ _)
  cases failure with
  | none => exact htokens
  | some reason => exact htokens.reports (Nat.le_refl _) (reports_report _ _ rfl)

end Builder

/-! ## Labels -/

/-- The diagnostic for a label without a definition. -/
def Label.undefined (l : Label) : Diagnostic :=
  ⟨l.position, .undefinedLabel l.name⟩

namespace Builder

/-- Filling in labels adds a diagnostic for each without an address, up to the limit. -/
theorem diagnostics_resolveList (labels : List Label) (a : Builder) :
    (labels.foldl resolve a).diagnostics.toList =
      a.diagnostics.toList ++
        ((labels.filter (·.address.isNone)).take
          (Diagnostic.limit - a.diagnostics.size)).map Label.undefined := by
  induction labels generalizing a with
  | nil => simp
  | cons l rest ih =>
    rw [List.foldl_cons, ih]
    cases hl : l.address with
    | some address =>
      rw [resolve_defined a hl, List.filter_cons_of_neg (by simp [hl])]
    | none =>
      rw [resolve_undefined a hl, List.filter_cons_of_pos (by simp [hl]), report]
      by_cases hroom : a.diagnostics.size < Diagnostic.limit
      · -- the limit leaves one place less for the labels behind
        have hleft : Diagnostic.limit - a.diagnostics.size =
            Diagnostic.limit - (a.diagnostics.size + 1) + 1 := by omega
        rw [if_pos hroom, hleft, List.take_succ_cons, Array.size_push, Array.toList_push,
          List.append_assoc]
        rfl
      · have hfull : Diagnostic.limit - a.diagnostics.size = 0 := by omega
        rw [if_neg hroom, hfull, List.take_zero, List.take_zero]

/-- Undefined labels are reported in the order of their names. -/
theorem diagnostics_resolveAll (a : Builder) :
    ∃ labels : List Label, labels.Pairwise (fun l l' => l.name ≤ l'.name) ∧
      a.resolveAll.diagnostics.toList = a.diagnostics.toList ++ labels.map Label.undefined := by
  have hsorted : (a.labels.mergeSort fun l l' => decide (l.name ≤ l'.name)).Pairwise
      fun l l' => decide (l.name ≤ l'.name) = true := by
    apply List.pairwise_mergeSort
    · intro l₁ l₂ l₃ h h'
      rw [decide_eq_true_iff] at h h' ⊢
      exact String.le_trans h h'
    · intro l₁ l₂
      rw [Bool.or_eq_true, decide_eq_true_iff, decide_eq_true_iff]
      exact String.le_total l₁.name l₂.name
  simp only [decide_eq_true_eq] at hsorted
  refine ⟨_, ?_, diagnostics_resolveList _ a⟩
  exact hsorted.sublist ((List.take_sublist _ _).trans List.filter_sublist)

end Builder

/-- What is reported on a refused text is in two parts. The first is in the order of the
text. The second are the labels without a definition, in the order of their names. So the
whole is in the order of the text exactly if the second part is, and begins where the first
has ended. -/
theorem diagnostics_order {file : String} {text : Text} {failure : Option String} {r : Refusal}
    (h : assemble file text failure = .error r) :
    ∃ (front : List Diagnostic) (labels : List Label),
      r.diagnostics = front ++ labels.map Label.undefined ∧
      InOrder front ∧ (∀ d ∈ front, d.problem.isUndefined = false) ∧
      labels.Pairwise (fun l l' => l.name ≤ l'.name) ∧
      (InOrder r.diagnostics ↔
        InOrder (labels.map Label.undefined) ∧
          ∀ d ∈ front, ∀ l ∈ labels, d.position.offset ≤ l.position.offset) := by
  have hsequential := Builder.sequential_closed text failure
  obtain ⟨labels, hsorted, hlabels⟩ := (closed text failure).diagnostics_resolveAll
  have hwhole : ∀ (front : List Diagnostic) (labels : List Label), InOrder front →
      (InOrder (front ++ labels.map Label.undefined) ↔
        InOrder (labels.map Label.undefined) ∧
          ∀ d ∈ front, ∀ l ∈ labels, d.position.offset ≤ l.position.offset) := by
    intro front labels hfront
    simp only [InOrder] at hfront ⊢
    rw [List.pairwise_append]
    simp [hfront, Label.undefined]
  rw [assemble_eq, Builder.result] at h
  split at h
  · cases h
    exact ⟨_, labels, hlabels, hsequential.order, hsequential.defined, hsorted,
      hlabels ▸ hwhole _ labels hsequential.order⟩
  · split at h
    · cases h
      have hfront : InOrder [⟨(sourceOf text failure).finish, .emptyProgram⟩] :=
        List.pairwise_singleton _ _
      exact ⟨_, [], (List.append_nil _).symm, hfront, by simp [Problem.isUndefined],
        List.Pairwise.nil, by simp [InOrder]⟩
    · cases h

/-- The text ends where an operand is missing, and only then is the label before the end
found to be undefined. -/
def unfinishedJump : Refusal :=
  ⟨"x", [⟨⟨1, 5, 4⟩, .missingOperands 1 .jumpIfTrue⟩, ⟨⟨1, 4, 3⟩, .undefinedLabel "a"⟩]⟩

theorem assemble_unfinishedJump :
    assemble "x" (.ofString "jt a") none = .error unfinishedJump := by
  decide +kernel

theorem unfinishedJump_parts :
    assemble "x" (.ofString "jt a") none = .error unfinishedJump ∧
      ∃ (front : List Diagnostic) (labels : List Label),
        unfinishedJump.diagnostics = front ++ labels.map Label.undefined ∧
        InOrder front ∧ (∀ d ∈ front, d.problem.isUndefined = false) ∧
        labels.Pairwise (fun l l' => l.name ≤ l'.name) ∧
        (InOrder unfinishedJump.diagnostics ↔
          InOrder (labels.map Label.undefined) ∧
            ∀ d ∈ front, ∀ l ∈ labels, d.position.offset ≤ l.position.offset) :=
  ⟨assemble_unfinishedJump, diagnostics_order assemble_unfinishedJump⟩

/-- Diagnostics that are not in the order of the text. -/
theorem unfinishedJump_order :
    assemble "x" (.ofString "jt a") none = .error unfinishedJump ∧
      ¬ InOrder unfinishedJump.diagnostics :=
  ⟨assemble_unfinishedJump, by decide⟩

end CellMachine.Assembly
