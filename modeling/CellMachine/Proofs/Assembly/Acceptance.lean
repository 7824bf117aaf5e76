import CellMachine.Proofs.Assembly.Building

/-!
# What the assembler accepts

The assembler accepts a source text if the text can be read without a complaint, all
tokens outside comments are words, and these words split into the items of a
well-formed program; the memory is then the one the program is laid out in
(`assemble_eq_ok_iff`). Between the tokens and the reader of words there are only the
comments: a token is passed on as a word exactly if it stands outside of them
(`Builder.feed_all`).
-/

set_option autoImplicit false

namespace CellMachine.Assembly

/-- The token starts a comment. -/
def Token.opens (t : Token) : Bool :=
  t.isWord && t.text == [.char '(']

/-- The token ends a comment. -/
def Token.closes (t : Token) : Bool :=
  t.isWord && t.text == [.char ')']

/-- The tokens outside comments. A comment goes up to the next token that closes one, or
to the end of the text. -/
def uncommented : List Token → List Token
  | [] => []
  | t :: rest =>
    if t.opens then uncommented ((rest.dropWhile fun t => !t.closes).drop 1)
    else t :: uncommented rest
termination_by tokens => tokens.length
decreasing_by
  · have h := (List.dropWhile_sublist (l := rest) fun t : Token => !t.closes).length_le
    simp only [List.length_drop, List.length_cons]
    omega
  · simp

theorem uncommented_sublist (tokens : List Token) : (uncommented tokens).Sublist tokens := by
  induction tokens using uncommented.induct with
  | case1 => simp [uncommented]
  | case2 t rest hopens ih =>
    rw [uncommented, if_pos hopens]
    exact ((ih.trans (List.drop_sublist _ _)).trans (List.dropWhile_sublist _)).cons t
  | case3 t rest hopens ih =>
    rw [uncommented, if_neg hopens]
    exact ih.cons_cons t

namespace Builder

/-! ## Words leave comments alone -/

theorem comment_report (a : Builder) (position : Position) (problem : Problem) :
    (a.report position problem).comment = a.comment := by
  unfold report
  split <;> rfl

theorem comment_value (a : Builder) (position : Position) (w : Text) :
    (a.value position w).comment = a.comment := by
  unfold Builder.value
  split
  · rfl
  · split
    · show (a.useLabel position w.toString).comment = a.comment
      unfold useLabel
      split <;> rfl
    · exact comment_report a position _

theorem comment_operand (a : Builder) (position : Position) (op : Opcode) (start k : Nat)
    (w : Text) : (a.operand position op start k w).comment = a.comment := by
  unfold Builder.operand
  split
  · rw [comment_value, addTo]
    split
    · exact comment_report a position _
    · rfl
  · exact comment_value a position _

theorem comment_statement (a : Builder) (position : Position) (w : Text) :
    (a.statement position w).comment = a.comment := by
  unfold Builder.statement
  split
  · split
    · unfold Builder.define
      split
      · rfl
      · split
        · exact comment_report a position _
        · rfl
    · exact comment_report a position _
  · split
    · rfl
    · split
      · exact comment_report a position _
      · rfl

theorem comment_word (a : Builder) (position : Position) (w : Text) :
    (a.word position w).comment = a.comment := by
  unfold Builder.word
  split
  · exact comment_statement a position w
  · exact comment_value a position w
  · exact comment_operand a position _ _ _ w

/-! ## Tokens -/

theorem broken_complaints {a : Builder} {complaints : List Complaint}
    (h : a.Broken ∨ complaints ≠ []) (position : Position) :
    (complaints.foldl (fun a c => a.report position (.glyph c)) a).Broken := by
  induction complaints generalizing a with
  | nil => exact h.resolve_right fun hne => hne rfl
  | cons c rest ih => exact ih (Or.inl (broken_report a position _))

theorem broken_feed {a : Builder} {t : Token} (h : a.Broken ∨ t.complaints ≠ []) :
    (a.feed t).Broken := by
  have hc := broken_complaints h t.position
  simp only [Builder.feed]
  split
  · exact hc
  · split
    · exact broken_report _ t.position _
    · split
      · exact hc
      · exact hc.word t.position t.text

theorem Broken.feedAll {a : Builder} (h : a.Broken) (tokens : List Token) :
    (tokens.foldl Builder.feed a).Broken := by
  induction tokens generalizing a with
  | nil => exact h
  | cons t rest ih => exact ih (broken_feed (Or.inl h))

/-- A complaint about any token stays. -/
theorem broken_of_complaint {t : Token} {tokens : List Token} (ht : t ∈ tokens)
    (hc : t.complaints ≠ []) (a : Builder) : (tokens.foldl Builder.feed a).Broken := by
  obtain ⟨front, back, rfl⟩ := List.append_of_mem ht
  rw [List.foldl_append, List.foldl_cons]
  exact (broken_feed (Or.inr hc)).feedAll back

/-- A token without complaints is skipped, refused, or taken as a word. -/
theorem feed_of_silent {t : Token} (h : t.complaints = []) (a : Builder) :
    a.feed t =
      if a.comment then { a with comment := !t.closes }
      else if !t.isWord then a.report t.position (.unexpected t.text)
      else if t.opens then { a with comment := true }
      else a.word t.position t.text := by
  by_cases hw : t.isWord = true
  · simp [Builder.feed, h, Token.opens, Token.closes, hw]
  · simp [Builder.feed, h, Token.closes, hw]

/-- Inside a comment nothing happens up to the token that closes it. -/
theorem feed_comment {tokens : List Token} (hs : ∀ t ∈ tokens, t.complaints = []) {a : Builder}
    (ha : a.comment = true) :
    ∃ c, tokens.foldl Builder.feed a =
      { ((tokens.dropWhile fun t => !t.closes).drop 1).foldl Builder.feed
        { a with comment := false } with comment := c } := by
  induction tokens with
  | nil => exact ⟨true, by rw [← ha]; rfl⟩
  | cons t rest ih =>
    have hfeed : a.feed t = { a with comment := !t.closes } := by
      rw [feed_of_silent (hs t List.mem_cons_self), if_pos ha]
    rw [List.foldl_cons, hfeed]
    cases hc : t.closes with
    | true => exact ⟨_, by simp only [List.dropWhile_cons, hc, Bool.not_true]; rfl⟩
    | false =>
      have hsame : { a with comment := !false } = a := by rw [Bool.not_false, ← ha]
      rw [hsame, List.dropWhile_cons, if_pos (by rw [hc]; rfl)]
      exact ih fun t' ht' => hs t' (List.mem_cons_of_mem t ht')

/-- Takes a token outside comments: a word for what is expected, and nothing else at all. -/
def take (a : Builder) (t : Token) : Builder :=
  if t.isWord then a.word t.position t.text else a.report t.position (.unexpected t.text)

theorem comment_take (a : Builder) (t : Token) : (a.take t).comment = a.comment := by
  unfold take
  split
  · exact comment_word a t.position t.text
  · exact comment_report a t.position _

/-- The tokens outside comments are taken one after another. -/
theorem feed_uncommented {tokens : List Token} (hs : ∀ t ∈ tokens, t.complaints = [])
    {a : Builder} (ha : a.comment = false) :
    ∃ c, tokens.foldl Builder.feed a = { (uncommented tokens).foldl take a with comment := c } := by
  induction tokens using uncommented.induct generalizing a with
  | case1 =>
    rw [uncommented]
    exact ⟨a.comment, rfl⟩
  | case2 t rest hopens ih =>
    have hs' : ∀ t' ∈ rest, t'.complaints = [] := fun t' ht' => hs t' (List.mem_cons_of_mem t ht')
    -- go on behind the token that closes the comment
    have hword : t.isWord = true := (Bool.and_eq_true_iff.1 hopens).1
    have hfeed : a.feed t = { a with comment := true } := by
      simp [feed_of_silent (hs t List.mem_cons_self), ha, hword, hopens]
    have hback : { a with comment := false } = a := by rw [← ha]
    obtain ⟨c, hskip⟩ := feed_comment hs' (a := { a with comment := true }) rfl
    have hsub : ∀ t' ∈ (rest.dropWhile fun t => !t.closes).drop 1, t'.complaints = [] :=
      fun t' ht' => hs' t' ((List.dropWhile_sublist _).mem (List.mem_of_mem_drop ht'))
    obtain ⟨c', hrest⟩ := ih hsub ha
    rw [uncommented, if_pos hopens, List.foldl_cons, hfeed, hskip]
    simp only [hback]
    exact ⟨c, by rw [hrest]⟩
  | case3 t rest hopens ih =>
    have hfeed : a.feed t = a.take t := by
      simp only [feed_of_silent (hs t List.mem_cons_self), take, ha, hopens]
      cases t.isWord <;> rfl
    rw [uncommented, if_neg hopens, List.foldl_cons, hfeed, List.foldl_cons]
    exact ih (fun t' ht' => hs t' (List.mem_cons_of_mem t ht')) (by rw [comment_take, ha])

theorem take_words {tokens : List Token} (hw : ∀ t ∈ tokens, t.isWord = true) (a : Builder) :
    tokens.foldl take a = a.words tokens := by
  induction tokens generalizing a with
  | nil => rfl
  | cons t rest ih =>
    rw [List.foldl_cons, take, if_pos (hw t List.mem_cons_self)]
    exact ih (fun t' ht' => hw t' (List.mem_cons_of_mem t ht')) _

/-- One token that is no word is enough for a report, whatever follows. -/
theorem broken_take {a : Builder} {tokens : List Token}
    (h : a.Broken ∨ ∃ t ∈ tokens, t.isWord = false) : (tokens.foldl take a).Broken := by
  induction tokens generalizing a with
  | nil => exact h.resolve_right fun ⟨_, ht, _⟩ => absurd ht List.not_mem_nil
  | cons t rest ih =>
    apply ih
    by_cases hword : t.isWord = true
    · rw [take, if_pos hword]
      rcases h with hb | ⟨t', ht', hw'⟩
      · exact Or.inl (hb.word t.position t.text)
      · rcases List.mem_cons.1 ht' with rfl | ht'
        · rw [hword] at hw'
          cases hw'
        · exact Or.inr ⟨t', ht', hw'⟩
    · rw [take, if_neg hword]
      exact Or.inl (broken_report a t.position _)

/-- The words outside comments are taken one after another, and a token there that is
no word is reported. -/
theorem feed_all {tokens : List Token} (hs : ∀ t ∈ tokens, t.complaints = []) {a : Builder}
    (ha : a.comment = false) :
    ((∀ t ∈ uncommented tokens, t.isWord = true) →
      ∃ c, tokens.foldl Builder.feed a = { a.words (uncommented tokens) with comment := c }) ∧
    ((∃ t ∈ uncommented tokens, t.isWord = false) → (tokens.foldl Builder.feed a).Broken) := by
  obtain ⟨c, hc⟩ := feed_uncommented hs ha
  rw [hc]
  constructor
  · intro hw
    exact ⟨c, by rw [take_words hw]⟩
  · intro hw
    exact broken_take (Or.inr hw)

/-! ## The end of the text -/

theorem Broken.close {a : Builder} (h : a.Broken) (position : Position) :
    (a.close position).Broken := by
  unfold Builder.close
  split
  · exact h
  · exact broken_report a position _
  · exact broken_report a position _

theorem broken_close {a : Builder} {r : Reader} (h : a.Holds r) (hp : r.pending ≠ .statement)
    (position : Position) : (a.close position).Broken := by
  obtain ⟨items, pending⟩ := r
  have he := h.expected
  unfold Builder.close
  rw [he]
  cases pending with
  | statement => exact absurd rfl hp
  | data => exact broken_report a position _
  | operands op done => exact broken_report a position _

theorem close_of_statement {a : Builder} (h : a.expected = .statement) (position : Position) :
    a.close position = a := by
  rw [Builder.close, h]

theorem result_eq_ok_iff {a : Builder} {file : String} {position : Position} {memory : Memory} :
    a.result file position = .ok memory ↔
      ¬ a.Broken ∧ a.cells.size ≠ 0 ∧ memory = ⟨a.cells⟩ := by
  simp only [result, Broken, Decidable.not_not]
  constructor
  · intro h
    split at h
    · cases h
    · next hclean =>
      split at h
      · cases h
      · next hsize =>
        cases h
        exact ⟨Array.eq_empty_of_size_eq_zero (by omega), hsize, rfl⟩
  · rintro ⟨hclean, hsize, rfl⟩
    simp [hclean, hsize]

theorem mem_refs {items : List Item} {name : String} :
    some name ∈ (slots items).map Value.name? ↔ .label name ∈ slots items := by
  rw [List.mem_map]
  constructor
  · rintro ⟨v, hv, hname⟩
    cases v with
    | literal => cases hname
    | label name' =>
      cases hname
      exact hv
  · intro h
    exact ⟨.label name, h, rfl⟩

/-- At the end of a program the labels get their addresses. -/
theorem Holds.resolveAll {a : Builder} {items : List Item} (h : a.Holds ⟨items, .statement⟩)
    (hdefined : ∀ name, .label name ∈ slots items → .label name ∈ items) :
    ¬ a.resolveAll.Broken ∧ a.resolveAll.cells.toList = encode items := by
  obtain ⟨hblank, htable, hlen⟩ := h.between rfl
  obtain ⟨hclean, hsize, hcells⟩ :=
    resolveAll_of_table htable fun name hname => hdefined name (mem_refs.1 hname)
  refine ⟨fun hb => hb (hclean.trans h.clean), ?_⟩
  -- the two passes agree cell by cell
  apply List.ext_getElem?
  intro j
  rw [encode, List.getElem?_map, Array.getElem?_toList]
  by_cases hj : j < a.cells.size
  · obtain ⟨v, hv⟩ : ∃ v, (slots items)[j]? = some v :=
      ⟨_, List.getElem?_eq_getElem (by rwa [← hlen])⟩
    have hold : a.cells[j]? = some v.blank := by
      rw [← Array.getElem?_toList, hblank, List.getElem?_map, hv, Option.map_some]
    rw [hcells j hj, hold, awaited, List.getElem?_map, hv]
    cases v <;> rfl
  · rw [Array.getElem?_eq_none (by omega), List.getElem?_eq_none (by omega)]
    rfl

end Builder

/-! ## Whole texts -/

section Text

variable {file : String} {text : Text} {failure : Option String}

/-- The words of a source text. -/
def wordsOf (text : Text) : List Text :=
  (uncommented (Source.ofText text).tokens.toList).map Token.text

/-- The source text is read to its end without complaints, and there are only words
outside comments. -/
structure Legible (text : Text) (failure : Option String) : Prop where
  complete : failure = none
  silent : ∀ t ∈ (Source.ofText text).tokens.toList, t.complaints = []
  words : ∀ t ∈ uncommented (Source.ofText text).tokens.toList, t.isWord = true

/-- The source that the assembler goes through. -/
def sourceOf (text : Text) (failure : Option String) : Source :=
  Source.ofText (readable text failure)

/-- What the assembler has when all tokens have been taken and the end is reported. -/
def closed (text : Text) (failure : Option String) : Builder :=
  (failure.elim ((sourceOf text failure).tokens.foldl Builder.feed .start) fun reason =>
    ((sourceOf text failure).tokens.foldl Builder.feed .start).report
      (sourceOf text failure).finish (.unreadable reason)).close (sourceOf text failure).finish

theorem assemble_eq (file : String) (text : Text) (failure : Option String) :
    assemble file text failure =
      (closed text failure).resolveAll.result file (sourceOf text failure).finish :=
  rfl

theorem closed_none (text : Text) :
    closed text none = ((Source.ofText text).tokens.toList.foldl Builder.feed .start).close
      (Source.ofText text).finish := by
  rw [Array.foldl_toList]
  rfl

/-- A text that is not legible is reported. -/
theorem legible_of_closed (h : ¬ (closed text failure).Broken) : Legible text failure := by
  cases failure with
  | some reason => exact absurd ((Builder.broken_report _ _ _).close _) h
  | none =>
    rw [closed_none] at h
    have hsilent : ∀ t ∈ (Source.ofText text).tokens.toList, t.complaints = [] := by
      intro t ht
      by_contra hc
      exact h ((Builder.broken_of_complaint ht hc _).close _)
    refine ⟨rfl, hsilent, ?_⟩
    intro t ht
    by_contra hw
    have hw' : t.isWord = false := by simpa using hw
    exact h (((Builder.feed_all hsilent rfl).2 ⟨t, ht, hw'⟩).close _)

/-- A legible text is read word by word, and then closed. -/
theorem closed_of_legible (h : Legible text failure) :
    ∃ a : Builder, closed text failure = a.close (Source.ofText text).finish ∧
      a.Follows ((wordsOf text).foldlM Reader.step ⟨[], .statement⟩) := by
  obtain ⟨c, hc⟩ := (Builder.feed_all h.silent (a := .start) rfl).1 h.words
  refine ⟨_, by rw [h.complete, closed_none, hc], ?_⟩
  have hfollows := Builder.holds_start.words (uncommented (Source.ofText text).tokens.toList)
  rw [wordsOf]
  -- what the builder holds does not depend on whether a comment is open at the end
  cases hr : ((uncommented (Source.ofText text).tokens.toList).map Token.text).foldlM Reader.step
      ⟨[], .statement⟩ with
  | none =>
    rw [hr] at hfollows
    exact hfollows
  | some r =>
    rw [hr] at hfollows
    exact ⟨hfollows.clean, hfollows.cells, hfollows.table, hfollows.expected, hfollows.room⟩

/-- What is not reported at the end of the text splits into lawful items. -/
theorem splits_of_closed (h : ¬ (closed text failure).Broken) :
    ∃ items, Splits (wordsOf text) items ∧ Lawful items ∧
      (closed text failure).Holds ⟨items, .statement⟩ := by
  obtain ⟨a, hclosed, hfollows⟩ := closed_of_legible (legible_of_closed h)
  rw [hclosed] at h ⊢
  cases hr : (wordsOf text).foldlM Reader.step ⟨[], .statement⟩ with
  | none =>
    rw [hr] at hfollows
    exact absurd (Builder.Broken.close hfollows _) h
  | some r =>
    rw [hr] at hfollows
    have hholds : a.Holds r := hfollows
    obtain ⟨items, pending⟩ := r
    cases pending with
    | statement =>
      obtain ⟨hsplits, hlaw⟩ := read_eq_some_iff.1 hr
      rw [Builder.close_of_statement hholds.expected]
      exact ⟨items, hsplits, hlaw, hholds⟩
    | data => exact absurd (Builder.broken_close hholds nofun _) h
    | operands op done => exact absurd (Builder.broken_close hholds nofun _) h

/-- A text that splits into lawful items is built to its end. -/
theorem holds_of_splits {items : List Item} (hl : Legible text failure)
    (hs : Splits (wordsOf text) items) (hlaw : Lawful items) :
    (closed text failure).Holds ⟨items, .statement⟩ := by
  obtain ⟨a, hclosed, hfollows⟩ := closed_of_legible hl
  rw [read_eq_some_iff.2 ⟨hs, hlaw⟩] at hfollows
  have hholds : a.Holds ⟨items, .statement⟩ := hfollows
  rw [hclosed, Builder.close_of_statement hholds.expected]
  exact hholds

/-- Every program is accepted. -/
theorem assemble_of_splits {items : List Item} (hl : Legible text failure)
    (hs : Splits (wordsOf text) items) (hw : WellFormed items) :
    assemble file text failure = .ok (.ofList (encode items)) := by
  obtain ⟨hclean, hcells⟩ := (holds_of_splits hl hs hw.toLawful).resolveAll hw.defined
  rw [assemble_eq, Builder.result_eq_ok_iff]
  refine ⟨hclean, ?_, ?_⟩
  · intro hsize
    have hlen : (encode items).length = 0 := by rw [← hcells, Array.length_toList, hsize]
    rw [encode, List.length_map] at hlen
    exact hw.nonempty (List.length_eq_zero_iff.1 hlen)
  · rw [Memory.ofList, ← hcells]

/-- Nothing but programs is accepted. -/
theorem splits_of_assemble {memory : Memory} (h : assemble file text failure = .ok memory) :
    Legible text failure ∧ ∃ items, Splits (wordsOf text) items ∧ WellFormed items := by
  rw [assemble_eq, Builder.result_eq_ok_iff] at h
  obtain ⟨hclean, hsize, -⟩ := h
  have hclosed : ¬ (closed text failure).Broken := fun hb => hclean (hb.resolveList _)
  obtain ⟨items, hsplits, hlaw, hholds⟩ := splits_of_closed hclosed
  have hdefined : ∀ name, .label name ∈ slots items → .label name ∈ items := by
    intro name huse
    by_contra hmissing
    obtain ⟨-, htable, -⟩ := hholds.between rfl
    exact hclean (Builder.broken_resolveAll htable (Builder.mem_refs.2 huse) hmissing)
  refine ⟨legible_of_closed hclosed, items, hsplits, hlaw, hdefined, ?_⟩
  intro hnil
  have hcells := (hholds.resolveAll hdefined).2
  rw [encode, hnil] at hcells
  exact hsize (by rw [← Array.length_toList, hcells]; rfl)

end Text

/-- Each item is spelled by some of the words. -/
theorem spelled_of_mem {words : List Text} {items : List Item} {item : Item}
    (h : Splits words items) (hmem : item ∈ items) :
    ∃ ws, item.Spelled ws ∧ ∀ w ∈ ws, w ∈ words := by
  obtain ⟨parts, rfl, hparts⟩ := h
  induction hparts with
  | nil => cases hmem
  | @cons part item' parts items hpart _ ih =>
    rcases List.mem_cons.1 hmem with rfl | hmem
    · exact ⟨part, hpart, fun w hw => List.mem_append_left _ hw⟩
    · obtain ⟨ws, hspelled, hwords⟩ := ih hmem
      exact ⟨ws, hspelled, fun w hw => List.mem_append_right _ (hwords w hw)⟩

/-- The operands of an instruction are as many as its operation takes. -/
theorem length_of_splits {words : List Text} {items : List Item} {op : Opcode}
    {operands : List Operand} (h : Splits words items) (hmem : .instruction op operands ∈ items) :
    operands.length = op.arity := by
  obtain ⟨ws, hspelled, -⟩ := spelled_of_mem h hmem
  cases hspelled with
  | instruction _ _ hlen => exact hlen

/-- The assembler accepts exactly its language and encodes it: a source text gives a
memory if and only if it is legible, its words split into the items of a well-formed
program, and the memory holds the cells of the program. In these cells a machine finds
every instruction at its place, with the modes of its operands. -/
theorem assemble_eq_ok_iff (file : String) (text : Text) (failure : Option String)
    (memory : Memory) :
    (assemble file text failure = .ok memory ↔
      Legible text failure ∧ ∃ items, Splits (wordsOf text) items ∧ WellFormed items ∧
        memory = .ofList (encode items)) ∧
    ∀ before op operands after,
      Splits (wordsOf text) (before ++ .instruction op operands :: after) →
      Instruction.decode (.ofList (encode (before ++ .instruction op operands :: after)))
        (slots before).length = .ok ⟨op, operands.map Operand.mode⟩ := by
  refine ⟨⟨?_, ?_⟩, ?_⟩
  · intro h
    obtain ⟨hl, items, hs, hw⟩ := splits_of_assemble h
    rw [assemble_of_splits hl hs hw] at h
    exact ⟨hl, items, hs, hw, (Except.ok.inj h).symm⟩
  · rintro ⟨hl, items, hs, hw, rfl⟩
    exact assemble_of_splits hl hs hw
  · intro before op operands after hs
    exact decode_encode (length_of_splits hs (List.mem_append_right _ List.mem_cons_self))

/-- A comment inside an instruction, and a label that is used before it is defined. -/
theorem assemble_forward_label :
    ∃ items, Splits (wordsOf (.ofString "out ( a ) x hlt :x .dat 7")) items ∧
      WellFormed items ∧ encode items = [4, 3, 99, 7] := by
  have hrun : assemble "" (.ofString "out ( a ) x hlt :x .dat 7") none =
      .ok ⟨#[4, 3, 99, 7]⟩ := by
    decide +kernel
  obtain ⟨-, items, hs, hw, hmem⟩ := (assemble_eq_ok_iff _ _ _ _).1.1 hrun
  exact ⟨items, hs, hw, (congrArg (fun m : Memory => m.cells.toList) hmem).symm⟩

end CellMachine.Assembly
