import CellMachine.Text.Blank
import Mathlib.Data.List.TakeWhile

/-!
# Texts of strings, splitting and trimming

The text of a string is that of its bytes (`Text.ofByteArray_toUTF8`).

A text is split at every occurrence of a separator, so joining the parts with the
separator gives the text back; this is the library's `List.splitOn`
(`Text.split_eq_splitOn`). Trimming takes away the white space at both ends
(`Text.exists_trim`). The two meet where a text is trimmed before it is split and its
parts are trimmed again: the first trimming is then not needed
(`Text.map_trim_splitOn_trim`).
-/

set_option autoImplicit false

namespace CellMachine.Text

/-! ## Strings -/

theorem ofString_append (s s' : String) : ofString (s ++ s') = ofString s ++ ofString s' := by
  simp [ofString]

theorem ofString_join (ss : List String) : ofString (String.join ss) = ss.flatMap ofString := by
  rw [ofString, String.toList_join, List.map_flatMap]
  rfl

/-- The bytes of a string are read as its characters. -/
theorem ofByteArray_toUTF8 (s : String) : ofByteArray s.toUTF8 = ofString s := by
  have hvalid : s.toUTF8.IsValidUTF8 := s.isValidUTF8
  rw [ofByteArray, String.fromUTF8?, dif_pos hvalid]
  rfl

/-! ## Splitting -/

theorem splitFrom_eq (p : Glyph → Bool) (t part : Text) (parts : List Text) :
    splitFrom p t part parts = parts.reverse ++ t.splitOnPPrepend p part := by
  induction t generalizing part parts with
  | nil => simp [splitFrom]
  | cons g rest ih =>
    by_cases hg : p g = true
    · rw [splitFrom, if_pos hg, ih, List.splitOnPPrepend_cons_pos hg,
        List.splitOnPPrepend_nil_right, List.reverse_cons, List.append_assoc]
      rfl
    · rw [splitFrom, if_neg hg, ih, List.splitOnPPrepend_cons_neg (by simpa using hg)]

theorem split_eq_splitOn (c : Char) (t : Text) : t.split (·.is c) = t.splitOn (.char c) := by
  rw [split, splitFrom_eq, List.splitOnPPrepend_nil_right, List.splitOn_eq_splitOnP]
  rfl

/-- The glyphs of joined parts are those of the parts and the separator. -/
theorem mem_intercalate_iff {sep g : Glyph} {part : Text} {parts : List Text} :
    g ∈ [sep].intercalate (part :: parts) ↔
      g ∈ part ∨ (∃ u ∈ parts, g = sep ∨ g ∈ u) := by
  induction parts generalizing part with
  | nil => simp [List.intercalate_singleton]
  | cons next rest ih =>
    rw [List.intercalate_cons_cons, List.append_assoc, List.mem_append, List.mem_append, ih,
      List.mem_singleton]
    simp only [List.mem_cons, exists_eq_or_imp]
    constructor
    · rintro (h | h | h | h)
      · exact Or.inl h
      · exact Or.inr (Or.inl (Or.inl h))
      · exact Or.inr (Or.inl (Or.inr h))
      · exact Or.inr (Or.inr h)
    · rintro (h | (h | h) | h)
      · exact Or.inl h
      · exact Or.inr (Or.inl h)
      · exact Or.inr (Or.inr (Or.inl h))
      · exact Or.inr (Or.inr (Or.inr h))

/-- What is in a part of a text is in the text. -/
theorem mem_of_mem_splitOn {sep g : Glyph} {t part : Text} (h : part ∈ t.splitOn sep)
    (hg : g ∈ part) : g ∈ t := by
  have hjoin : [sep].intercalate (t.splitOn sep) = t := List.intercalate_splitOn sep
  rw [← hjoin]
  obtain ⟨first, rest, hparts⟩ := List.exists_cons_of_ne_nil (List.splitOn_ne_nil sep t)
  rw [hparts] at h ⊢
  rw [mem_intercalate_iff]
  rcases List.mem_cons.1 h with rfl | h
  · exact Or.inl hg
  · exact Or.inr ⟨part, h, Or.inr hg⟩

/-- What is in a text is in one of its parts, but for the separators. -/
theorem mem_splitOn_of_mem {g : Glyph} {t : Text} (sep : Glyph) (hg : g ∈ t) :
    g = sep ∨ ∃ part ∈ t.splitOn sep, g ∈ part := by
  have hjoin : [sep].intercalate (t.splitOn sep) = t := List.intercalate_splitOn sep
  rw [← hjoin] at hg
  obtain ⟨first, rest, hparts⟩ := List.exists_cons_of_ne_nil (List.splitOn_ne_nil sep t)
  rw [hparts] at hg ⊢
  rcases mem_intercalate_iff.1 hg with hg | ⟨u, hu, rfl | hg⟩
  · exact Or.inr ⟨first, List.mem_cons_self, hg⟩
  · exact Or.inl rfl
  · exact Or.inr ⟨u, List.mem_cons_of_mem first hu, hg⟩

/-! ## White space -/

/-- The text is nothing but white space. -/
def Blank (t : Text) : Prop :=
  ∀ g ∈ t, g.isBlank = true

instance (t : Text) : Decidable (Blank t) :=
  inferInstanceAs (Decidable (∀ g ∈ t, g.isBlank = true))

variable {a b t : Text}

theorem blank_nil : Blank [] :=
  fun _ hg => absurd hg List.not_mem_nil

theorem Blank.reverse (h : Blank t) : Blank t.reverse :=
  fun g hg => h g (List.mem_reverse.1 hg)

theorem Blank.dropWhile_eq (h : Blank t) : t.dropWhile Glyph.isBlank = [] :=
  List.dropWhile_eq_nil_iff.2 h

theorem blank_takeWhile (t : Text) : Blank (t.takeWhile Glyph.isBlank) :=
  fun _ hg => List.mem_takeWhile_imp hg

/-- White space in front is dropped. -/
theorem dropWhile_blank_append (ha : Blank a) (t : Text) :
    (a ++ t).dropWhile Glyph.isBlank = t.dropWhile Glyph.isBlank := by
  rw [List.dropWhile_append, ha.dropWhile_eq]
  rfl

theorem trim_blank_append (ha : Blank a) (t : Text) : (a ++ t).trim = t.trim := by
  rw [trim, trim, dropWhile_blank_append ha]

theorem trim_append_blank (hb : Blank b) (t : Text) : (t ++ b).trim = t.trim := by
  rw [trim, trim, List.dropWhile_append]
  by_cases ht : (t.dropWhile Glyph.isBlank).isEmpty = true
  · rw [if_pos ht, hb.dropWhile_eq, List.isEmpty_iff.1 ht]
  · rw [if_neg ht, List.reverse_append, dropWhile_blank_append hb.reverse]

/-- A text without white space is left alone. -/
theorem trim_eq_self (h : ∀ g ∈ t, g.isBlank = false) : t.trim = t := by
  have key : ∀ u : Text, (∀ g ∈ u, g.isBlank = false) → u.dropWhile Glyph.isBlank = u := by
    intro u hu
    cases u with
    | nil => rfl
    | cons g rest => exact List.dropWhile_cons_of_neg (by simp [hu g List.mem_cons_self])
  rw [trim, key t h, key t.reverse fun g hg => h g (List.mem_reverse.1 hg), List.reverse_reverse]

/-- Trimming takes away white space and nothing else. -/
theorem exists_trim (t : Text) : ∃ a b, Blank a ∧ Blank b ∧ t = a ++ t.trim ++ b := by
  let u := t.dropWhile Glyph.isBlank
  refine ⟨t.takeWhile Glyph.isBlank, (u.reverse.takeWhile Glyph.isBlank).reverse,
    blank_takeWhile t, (blank_takeWhile u.reverse).reverse, ?_⟩
  have hu : u = t.trim ++ (u.reverse.takeWhile Glyph.isBlank).reverse := by
    rw [trim, ← List.reverse_append, List.takeWhile_append_dropWhile, List.reverse_reverse]
  rw [List.append_assoc, ← hu, List.takeWhile_append_dropWhile]

theorem trim_padded (ha : Blank a) (hb : Blank b) (h : ∀ g ∈ t, g.isBlank = false) :
    (a ++ t ++ b).trim = t := by
  rw [trim_append_blank hb, trim_blank_append ha, trim_eq_self h]

/-! ## Trimming around a glyph

The two sides of a glyph that is not white space are trimmed at their outer ends only, and
trimming them by themselves later makes up for the inner ends. -/

variable {sep : Glyph}

theorem dropWhile_append_cons (hs : sep.isBlank = false) (t u : Text) :
    (t ++ sep :: u).dropWhile Glyph.isBlank = t.dropWhile Glyph.isBlank ++ sep :: u := by
  have hsep : (sep :: u).dropWhile Glyph.isBlank = sep :: u :=
    List.dropWhile_cons_of_neg (by simp [hs])
  rw [List.dropWhile_append, hsep]
  by_cases ht : (t.dropWhile Glyph.isBlank).isEmpty = true
  · rw [if_pos ht, List.isEmpty_iff.1 ht, List.nil_append]
  · rw [if_neg ht]

theorem trim_append_cons (hs : sep.isBlank = false) (t u : Text) :
    (t ++ sep :: u).trim =
      t.dropWhile Glyph.isBlank ++ sep :: (u.reverse.dropWhile Glyph.isBlank).reverse := by
  have hreverse : (t.dropWhile Glyph.isBlank ++ sep :: u).reverse =
      u.reverse ++ sep :: (t.dropWhile Glyph.isBlank).reverse := by
    simp
  rw [trim, dropWhile_append_cons hs, hreverse, dropWhile_append_cons hs]
  simp

theorem trim_dropWhile (t : Text) : Text.trim (t.dropWhile Glyph.isBlank) = t.trim := by
  have ht : t = t.takeWhile Glyph.isBlank ++ t.dropWhile Glyph.isBlank :=
    List.takeWhile_append_dropWhile.symm
  conv => rhs; rw [ht, trim_blank_append (blank_takeWhile t)]

theorem trim_dropWhile_reverse (t : Text) :
    Text.trim (t.reverse.dropWhile Glyph.isBlank).reverse = t.trim := by
  have ht : t = (t.reverse.dropWhile Glyph.isBlank).reverse ++
      (t.reverse.takeWhile Glyph.isBlank).reverse := by
    rw [← List.reverse_append, List.takeWhile_append_dropWhile, List.reverse_reverse]
  conv => rhs; rw [ht, trim_append_blank (blank_takeWhile t.reverse).reverse]

/-! ## Trimming what is split -/

/-- White space in front of a text is in front of its first part. -/
theorem map_trim_blank_append (hs : sep.isBlank = false) (ha : Blank a) (t : Text) :
    ((a ++ t).splitOn sep).map trim = (t.splitOn sep).map trim := by
  induction a with
  | nil => rfl
  | cons g a ih =>
    have hg : g.isBlank = true := ha g List.mem_cons_self
    have hne : ¬ (g == sep) = true := by
      intro heq
      rw [eq_of_beq heq, hs] at hg
      cases hg
    have hrest := ih fun g' hg' => ha g' (List.mem_cons_of_mem g hg')
    rw [List.cons_append, List.splitOn_cons_eq_if_modifyHead, if_neg hne, ← hrest]
    cases (a ++ t).splitOn sep with
    | nil => rfl
    | cons part parts =>
      have hblank : Blank [g] := by simpa [Blank] using hg
      rw [List.modifyHead_cons, List.map_cons, List.map_cons,
        show g :: part = [g] ++ part from rfl, trim_blank_append hblank]

/-- White space behind a text is behind its last part. -/
theorem splitOn_append_blank (hs : sep.isBlank = false) (hb : Blank b) (t : Text) :
    ∃ parts last, t.splitOn sep = parts ++ [last] ∧
      (t ++ b).splitOn sep = parts ++ [last ++ b] := by
  -- only the last part changes, and it is reached when the text is used up
  induction t with
  | nil =>
    have hsep : sep ∉ b := by
      intro hmem
      rw [hb sep hmem] at hs
      cases hs
    exact ⟨[], [], List.splitOn_nil sep, List.splitOn_eq_singleton hsep⟩
  | cons g rest ih =>
    obtain ⟨parts, last, hrest, hrest'⟩ := ih
    rw [List.cons_append, List.splitOn_cons_eq_if_modifyHead, List.splitOn_cons_eq_if_modifyHead,
      hrest, hrest']
    by_cases hg : (g == sep) = true
    · exact ⟨[] :: parts, last, by rw [if_pos hg]; rfl, by rw [if_pos hg]; rfl⟩
    · rw [if_neg hg, if_neg hg]
      cases parts with
      | nil => exact ⟨[], g :: last, rfl, rfl⟩
      | cons part parts => exact ⟨(g :: part) :: parts, last, rfl, rfl⟩

theorem map_trim_append_blank (hs : sep.isBlank = false) (hb : Blank b) (t : Text) :
    ((t ++ b).splitOn sep).map trim = (t.splitOn sep).map trim := by
  obtain ⟨parts, last, ht, htb⟩ := splitOn_append_blank hs hb t
  rw [ht, htb, List.map_append, List.map_append, List.map_singleton, List.map_singleton,
    trim_append_blank hb]

/-- If the parts of a text are trimmed, it need not be trimmed itself. -/
theorem map_trim_splitOn_trim (hs : sep.isBlank = false) (t : Text) :
    (t.trim.splitOn sep).map trim = (t.splitOn sep).map trim := by
  obtain ⟨a, b, ha, hb, ht⟩ := exists_trim t
  calc (t.trim.splitOn sep).map trim
      = ((a ++ t.trim).splitOn sep).map trim := (map_trim_blank_append hs ha _).symm
    _ = ((a ++ t.trim ++ b).splitOn sep).map trim := (map_trim_append_blank hs hb _).symm
    _ = (t.splitOn sep).map trim := by rw [← ht]

end CellMachine.Text
