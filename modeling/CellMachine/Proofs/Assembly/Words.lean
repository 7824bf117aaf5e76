import CellMachine.Proofs.Assembly.Acceptance

/-!
# Texts of plain words

A text that consists of words between white space, where every word is made of glyphs
that words are made of and draws no complaint, is cut into exactly these words
(`Spaced.wordsOf_eq`), and nothing in it is illegible (`Spaced.legible`). How much white
space there is, and of which kind, does not matter.

The reader of tokens is followed glyph by glyph only in `Source.cut_space` and
`Source.cut_word`; the induction is on the way the text is put together.
-/

set_option autoImplicit false

namespace CellMachine.Assembly

/-- A word that stands for itself: it has glyphs, they belong together and draw no
complaint, and it does not start a comment. -/
structure PlainWord (w : Text) : Prop where
  nonempty : w ≠ []
  glyphs : ∀ g ∈ w, isWordGlyph g = true ∧ complaint? g = none
  content : w ≠ [.char '(']

/-- A text of plain words between white space, with the words in order. -/
inductive Spaced : Text → List Text → Prop where
  | nil : Spaced [] []
  | space {g : Glyph} {t : Text} {ws : List Text} : isSpace g = true → Spaced t ws →
      Spaced (g :: t) ws
  | word {w t : Text} {ws : List Text} : PlainWord w → (∀ g ∈ t.head?, isSpace g = true) →
      Spaced t ws → Spaced (w ++ t) (w :: ws)

/-! ## White space -/

theorem eq_of_isSpace {g : Glyph} (h : isSpace g = true) :
    g = .char '\t' ∨ g = .char '\n' ∨ g = .char '\r' ∨ g = .char ' ' := by
  simpa [isSpace, Glyph.is, or_assoc] using h

/-- The classes of a glyph, with the tables as lists, which is how they are evaluated. -/
theorem isWordGlyph_eq (g : Glyph) :
    isWordGlyph g =
      ((if g.shown.toNat < 0x80 then g.shown.isAlpha
          else Unicode.letters.toList.any fun r => r.1 ≤ g.shown.toNat && g.shown.toNat ≤ r.2) ||
        (if g.shown.toNat < 0x80 then g.shown.isDigit
          else Unicode.digits.toList.any fun r => r.1 ≤ g.shown.toNat && g.shown.toNat ≤ r.2) ||
        (Unicode.punctuation.toList.any fun r => r.1 ≤ g.shown.toNat && g.shown.toNat ≤ r.2) ||
        Unicode.symbols.toList.any fun r => r.1 ≤ g.shown.toNat && g.shown.toNat ≤ r.2) := by
  simp only [isWordGlyph, Unicode.isLetter, Unicode.isDigit, Unicode.isPunctuation,
    Unicode.isSymbol, Unicode.inTable, Array.any_toList]

/-- White space separates words and draws no complaint. -/
theorem space_separates {g : Glyph} (h : isSpace g = true) :
    isWordGlyph g = false ∧ complaint? g = none ∧ Source.isMark g = false := by
  rw [isWordGlyph_eq]
  rcases eq_of_isSpace h with rfl | rfl | rfl | rfl <;> decide +kernel

theorem not_isSpace_of_isWordGlyph {g : Glyph} (h : isWordGlyph g = true) : isSpace g = false := by
  cases hs : isSpace g with
  | false => rfl
  | true =>
    rw [(space_separates hs).1] at h
    cases h

/-- No word starts with the byte order mark. -/
theorem not_isMark_of_isWordGlyph {g : Glyph} (h : isWordGlyph g = true) :
    Source.isMark g = false := by
  have hmark : isWordGlyph (.char (Char.ofNat 0xfeff)) = false := by
    rw [isWordGlyph_eq]
    decide +kernel
  cases hm : Source.isMark g with
  | false => rfl
  | true =>
    have hg : g = .char (Char.ofNat 0xfeff) := by simpa [Source.isMark, Glyph.is] using hm
    rw [hg, hmark] at h
    cases h

/-! ## Cutting a text -/

namespace Source

theorem cut_space {g : Glyph} (hg : isSpace g = true) (fuel : Nat) (p : Position) (adjacent : Bool)
    (t : Text) (tokens : Array Token) :
    cut (fuel + 1) p adjacent (g :: t) tokens = cut fuel (p.after g) false t tokens := by
  simp only [cut, hg, if_true]

/-- A word is taken up to the white space behind it. -/
theorem tokenText_append {g : Glyph} {w t : Text} (hw : ∀ g' ∈ g :: w, isWordGlyph g' = true)
    (ht : ∀ g' ∈ t.head?, isSpace g' = true) : tokenText g (w ++ t) = g :: w := by
  have htail : t.takeWhile isWordGlyph = [] := by
    cases t with
    | nil => rfl
    | cons s rest =>
      have hs : isWordGlyph s = false := (space_separates (ht s rfl)).1
      simp [hs]
  have hrest : ∀ g' ∈ w, isWordGlyph g' = true := fun g' hg' => hw g' (List.mem_cons_of_mem g hg')
  rw [tokenText, if_pos (hw g List.mem_cons_self), List.takeWhile_append_of_pos hrest, htail,
    List.append_nil]

theorem complaintsOf_eq_nil {text rest : Text} (htext : ∀ g ∈ text, complaint? g = none)
    (hrest : ∀ g ∈ rest.head?, complaint? g = none) (adjacent : Bool) :
    complaintsOf adjacent text rest = [] := by
  rw [complaintsOf, List.filterMap_eq_nil_iff]
  intro g hg
  rcases List.mem_append.1 hg with hg | hg
  · cases adjacent with
    | false => exact htext g hg
    | true => exact htext g (List.mem_of_mem_tail hg)
  · cases rest with
    | nil => cases hg
    | cons s rest =>
      rw [List.take_succ_cons, List.take_zero, List.mem_singleton] at hg
      exact hrest g (by rw [hg]; rfl)

/-- A plain word is one token without complaints. -/
theorem cut_word {w t : Text} (hw : PlainWord w) (ht : ∀ g ∈ t.head?, isSpace g = true)
    (fuel : Nat) (p : Position) (adjacent : Bool) (tokens : Array Token) :
    cut (fuel + 1) p adjacent (w ++ t) tokens =
      cut fuel (p.afterText w) true t (tokens.push ⟨p, w, true, []⟩) := by
  obtain ⟨g, rest, rfl⟩ := List.exists_cons_of_ne_nil hw.nonempty
  have hglyph : isWordGlyph g = true := (hw.glyphs g List.mem_cons_self).1
  have htext : tokenText g (rest ++ t) = g :: rest :=
    tokenText_append (fun g' hg' => (hw.glyphs g' hg').1) ht
  have hsilent : complaintsOf adjacent (g :: rest) t = [] := by
    apply complaintsOf_eq_nil
    · exact fun g' hg' => (hw.glyphs g' hg').2
    · exact fun g' hg' => (space_separates (ht g' hg')).2.1
  have hdrop : (rest ++ t).drop rest.length = t := List.drop_left
  simp only [List.cons_append, cut, not_isSpace_of_isWordGlyph hglyph, htext, List.length_cons,
    Nat.add_sub_cancel, hdrop, hsilent, hglyph, Bool.false_eq_true, if_false]

/-- The tokens of a spaced text are its words. -/
theorem cut_spaced {t : Text} {ws : List Text} (h : Spaced t ws) {fuel : Nat}
    (hfuel : t.length ≤ fuel) (p : Position) (adjacent : Bool) (tokens : Array Token) :
    ∃ more : List Token, (cut fuel p adjacent t tokens).tokens.toList = tokens.toList ++ more ∧
      more.map Token.text = ws ∧ ∀ token ∈ more, token.isWord = true ∧ token.complaints = [] := by
  -- every constructor of `Spaced` is one turn of `cut`
  induction h generalizing fuel p adjacent tokens with
  | nil =>
    refine ⟨[], ?_, rfl, nofun⟩
    cases fuel <;> simp [cut]
  | @space g t ws hg _ ih =>
    obtain ⟨fuel, rfl⟩ : ∃ n, fuel = n + 1 := ⟨fuel - 1, by simp at hfuel; omega⟩
    rw [cut_space hg]
    exact ih (by simpa using hfuel) _ _ _
  | @word w t ws hw ht _ ih =>
    have hpos : 0 < w.length := List.length_pos_iff.2 hw.nonempty
    rw [List.length_append] at hfuel
    obtain ⟨fuel, rfl⟩ : ∃ n, fuel = n + 1 := ⟨fuel - 1, by omega⟩
    have hle : t.length ≤ fuel := by omega
    rw [cut_word hw ht]
    obtain ⟨more, hmore, htexts, hplain⟩ :=
      ih hle (p.afterText w) true (tokens.push ⟨p, w, true, []⟩)
    refine ⟨⟨p, w, true, []⟩ :: more, ?_, ?_, ?_⟩
    · rw [hmore, Array.toList_push, List.append_assoc]
      rfl
    · rw [List.map_cons, htexts]
    · intro token htoken
      rcases List.mem_cons.1 htoken with rfl | htoken
      · exact ⟨rfl, rfl⟩
      · exact hplain token htoken

end Source

/-! ## Whole texts -/

theorem Spaced.plain {t : Text} {ws : List Text} (h : Spaced t ws) : ∀ w ∈ ws, PlainWord w := by
  induction h with
  | nil => exact nofun
  | space _ _ ih => exact ih
  | word hw _ _ ih =>
    intro w' hw'
    rcases List.mem_cons.1 hw' with rfl | hw'
    · exact hw
    · exact ih w' hw'

theorem Spaced.not_isMark {g : Glyph} {t : Text} {ws : List Text} (h : Spaced (g :: t) ws) :
    Source.isMark g = false := by
  generalize ht : g :: t = text at h
  cases h with
  | nil => cases ht
  | space hg =>
    cases ht
    exact (space_separates hg).2.2
  | word hw =>
    obtain ⟨g', rest, rfl⟩ := List.exists_cons_of_ne_nil hw.nonempty
    cases ht
    exact not_isMark_of_isWordGlyph (hw.glyphs _ List.mem_cons_self).1

/-- The tokens of a source text that is spaced. -/
theorem Spaced.tokens {t : Text} {ws : List Text} (h : Spaced t ws) :
    (Source.ofText t).tokens.toList.map Token.text = ws ∧
      ∀ token ∈ (Source.ofText t).tokens.toList, token.isWord = true ∧ token.complaints = [] := by
  have hof : Source.ofText t = Source.cut t.length .start false t #[] := by
    cases t with
    | nil => rfl
    | cons g rest => simp [Source.ofText, h.not_isMark]
  obtain ⟨more, hmore, htexts, hplain⟩ :=
    Source.cut_spaced h (Nat.le_refl _) .start false #[]
  rw [hof, hmore]
  exact ⟨htexts, hplain⟩

/-- Tokens none of which starts a comment all count. -/
theorem uncommented_eq_self {tokens : List Token} (h : ∀ t ∈ tokens, t.opens = false) :
    uncommented tokens = tokens := by
  induction tokens with
  | nil => rw [uncommented]
  | cons t rest ih =>
    have ht : ¬ t.opens = true := by simp [h t List.mem_cons_self]
    rw [uncommented, if_neg ht, ih fun t' ht' => h t' (List.mem_cons_of_mem t ht')]

theorem Spaced.uncommented_eq {t : Text} {ws : List Text} (h : Spaced t ws) :
    uncommented (Source.ofText t).tokens.toList = (Source.ofText t).tokens.toList := by
  apply uncommented_eq_self
  intro token htoken
  have hword : token.text ∈ ws := by
    rw [← h.tokens.1]
    exact List.mem_map_of_mem htoken
  have hne : token.text ≠ [.char '('] := (h.plain _ hword).content
  simp [Token.opens, hne]

/-- The words of a spaced text are the words it was put together from. -/
theorem Spaced.wordsOf_eq {t : Text} {ws : List Text} (h : Spaced t ws) : wordsOf t = ws := by
  rw [wordsOf, h.uncommented_eq, h.tokens.1]

/-- A spaced text can be read. -/
theorem Spaced.legible {t : Text} {ws : List Text} (h : Spaced t ws) : Legible t none where
  complete := rfl
  silent := fun token htoken => (h.tokens.2 token htoken).2
  words := by
    rw [h.uncommented_eq]
    exact fun token htoken => (h.tokens.2 token htoken).1

end CellMachine.Assembly
