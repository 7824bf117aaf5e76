import CellMachine.Assembly.Token
import CellMachine.Proofs.Decoding
import Mathlib.Data.List.DropRight

/-!
# Tokens in their text

A source text is its tokens with white space between them. `Source.Cuts` says so as a relation
between a text, the place where it begins, its tokens and the place where it ends, and every text
is cut in this way (`Source.cuts_ofText`). All that is said about tokens follows from it by
induction: where in the text a token stands (`Source.Cuts.stands`), that the text is used up
(`Source.Cuts.finish_eq`), and which glyphs a token can complain about (`Source.Cuts.silent`).

A place is counted glyph by glyph. The place behind a text is known from the text alone: its
offset is the number of bytes (`Position.offset_afterText`), its line the number of line breaks
and its column the number of glyphs behind the last of them (`Position.line_afterText`,
`Position.column_afterText`).
-/

set_option autoImplicit false

namespace CellMachine

/-! ## Bytes of a text -/

theorem Glyph.length_bytes (g : Glyph) : g.bytes.length = g.width := by
  cases g with
  | char c => exact String.length_utf8EncodeChar c
  | stray b => rfl

namespace Text

@[simp] theorem size_toBytes_append (t u : Text) :
    (toBytes (t ++ u)).size = (toBytes t).size + (toBytes u).size := by
  simp [toBytes, ByteArray.size]

@[simp] theorem size_toBytes_singleton (g : Glyph) : (toBytes [g]).size = g.width := by
  rw [← g.length_bytes]
  simp [toBytes, ByteArray.size]

/-- Every glyph takes at least one byte. -/
theorem length_le_size_toBytes (t : Text) : t.length ≤ (toBytes t).size := by
  induction t with
  | nil => exact Nat.le_refl 0
  | cons g rest ih =>
    have hpos : 0 < g.width := by
      cases g with
      | char c => exact c.utf8Size_pos
      | stray b => exact Nat.one_pos
    have hsize := size_toBytes_append [g] rest
    rw [size_toBytes_singleton, List.singleton_append] at hsize
    rw [List.length_cons]
    omega

/-- Nothing is lost in reading: a text has the bytes it was read from. -/
theorem toBytes_ofByteArray (b : ByteArray) : toBytes (ofByteArray b) = b := by
  have hreads : Glyph.Reads b.data.toList (ofByteArray b) := reads_ofByteArray_iff.2 rfl
  have hflat : ∀ {bs : List UInt8} {t : Text}, Glyph.Reads bs t → t.flatMap Glyph.bytes = bs := by
    intro bs t h
    induction h with
    | nil => rfl
    | char c _ ih => rw [List.flatMap_cons, ih]; rfl
    | stray _ _ ih => rw [List.flatMap_cons, ih]; rfl
  rw [toBytes, hflat hreads]

theorem toBytes_ofString (s : String) : toBytes (ofString s) = s.toUTF8 := by
  rw [← ofByteArray_toUTF8, toBytes_ofByteArray]

end Text

namespace Assembly

/-! ## Places -/

namespace Position

theorem afterText_append (p : Position) (t u : Text) :
    p.afterText (t ++ u) = (p.afterText t).afterText u :=
  List.foldl_append

theorem afterText_concat (p : Position) (t : Text) (g : Glyph) :
    p.afterText (t ++ [g]) = (p.afterText t).after g :=
  afterText_append p t [g]

/-- The offset counts bytes. -/
@[simp] theorem offset_afterText (p : Position) (t : Text) :
    (p.afterText t).offset = p.offset + (Text.toBytes t).size := by
  induction t using List.reverseRecOn with
  | nil => rfl
  | append_singleton t g ih =>
    have hafter : ((p.afterText t).after g).offset = (p.afterText t).offset + g.width := by
      rw [after]
      split <;> rfl
    rw [afterText_concat, hafter, ih, Text.size_toBytes_append, Text.size_toBytes_singleton,
      Nat.add_assoc]

/-- The line counts line breaks. -/
theorem line_afterText (t : Text) :
    (start.afterText t).line = 1 + t.count (.char '\n') := by
  induction t using List.reverseRecOn with
  | nil => rfl
  | append_singleton t g ih =>
    rw [afterText_concat, after, List.count_append, List.count_singleton]
    by_cases hg : g = .char '\n'
    · simp [Glyph.is, hg, ih, Nat.add_assoc]
    · simp [Glyph.is, hg, ih]

/-- The column counts the glyphs behind the last line break. -/
theorem column_afterText (t : Text) :
    (start.afterText t).column = 1 + (t.rtakeWhile fun g => !g.is '\n').length := by
  induction t using List.reverseRecOn with
  | nil => rfl
  | append_singleton t g ih =>
    rw [afterText_concat, after, List.rtakeWhile_concat]
    by_cases hg : g.is '\n' = true
    · simp [hg]
    · simp [hg, ih, Nat.add_assoc]

end Position

/-! ## Cutting -/

namespace Source

/-- A text from a place on, cut into tokens, and the place where it ends. Between the tokens there
is only white space and the mark that may stand before a text; a token stands where it says, and
complains only about glyphs of the text. -/
inductive Cuts : Position → Text → List Token → Position → Prop where
  | finish (p : Position) : Cuts p [] [] p
  | space {p q : Position} {g : Glyph} {rest : Text} {tokens : List Token} :
      isSpace g = true ∨ isMark g = true → Cuts (p.after g) rest tokens q →
      Cuts p (g :: rest) tokens q
  | token {t : Token} {q : Position} {rest : Text} {tokens : List Token} :
      t.text ≠ [] → (∀ c ∈ t.complaints, ∃ g ∈ t.text ++ rest, complaint? g = some c) →
      Cuts (t.position.afterText t.text) rest tokens q →
      Cuts t.position (t.text ++ rest) (t :: tokens) q

theorem tokenText_ne_nil (g : Glyph) (rest : Text) : tokenText g rest ≠ [] := by
  unfold tokenText
  split <;> exact List.cons_ne_nil _ _

/-- A token is the front of the text that it is taken from. -/
theorem tokenText_append_drop (g : Glyph) (rest : Text) :
    tokenText g rest ++ rest.drop ((tokenText g rest).length - 1) = g :: rest := by
  unfold tokenText
  split
  · rw [List.cons_append, List.length_cons, Nat.add_sub_cancel]
    have hfront : rest.takeWhile isWordGlyph ++ rest.dropWhile isWordGlyph = rest :=
      List.takeWhile_append_dropWhile
    conv => lhs; arg 2; arg 2; arg 2; rw [← hfront]
    rw [List.drop_left, hfront]
  · rfl

theorem mem_of_mem_complaintsOf {adjacent : Bool} {text rest : Text} {c : Complaint}
    (h : c ∈ complaintsOf adjacent text rest) : ∃ g ∈ text ++ rest, complaint? g = some c := by
  obtain ⟨g, hg, hc⟩ := List.mem_filterMap.1 h
  refine ⟨g, ?_, hc⟩
  rcases List.mem_append.1 hg with hg | hg
  · apply List.mem_append_left
    cases adjacent with
    | false => exact hg
    | true => exact List.mem_of_mem_tail hg
  · exact List.mem_append_right _ (List.mem_of_mem_take hg)

/-- As many turns as there are glyphs are enough to cut a text. -/
theorem cuts_cut {fuel : Nat} {text : Text} (hfuel : text.length ≤ fuel) (p : Position)
    (adjacent : Bool) (tokens : Array Token) :
    ∃ more, (cut fuel p adjacent text tokens).tokens.toList = tokens.toList ++ more ∧
      Cuts p text more (cut fuel p adjacent text tokens).finish := by
  induction fuel generalizing p adjacent text tokens with
  | zero =>
    obtain rfl := List.length_eq_zero_iff.1 (Nat.le_zero.1 hfuel)
    exact ⟨[], (List.append_nil _).symm, .finish p⟩
  | succ fuel ih =>
    cases text with
    | nil => exact ⟨[], (List.append_nil _).symm, .finish p⟩
    | cons g rest =>
      have hrest : rest.length ≤ fuel := Nat.le_of_succ_le_succ hfuel
      rw [cut]
      split
      · next hspace =>
        obtain ⟨more, hmore, hcuts⟩ := ih hrest (p.after g) false tokens
        exact ⟨more, hmore, .space (Or.inl hspace) hcuts⟩
      · -- a token takes at least the glyph it starts with
        have hdrop : (rest.drop ((tokenText g rest).length - 1)).length ≤ fuel := by
          rw [List.length_drop]
          omega
        let t : Token := ⟨p, tokenText g rest, isWordGlyph g,
          complaintsOf adjacent (tokenText g rest)
            (rest.drop ((tokenText g rest).length - 1))⟩
        obtain ⟨more, hmore, hcuts⟩ := ih hdrop (p.afterText (tokenText g rest)) true (tokens.push t)
        refine ⟨t :: more, ?_, ?_⟩
        · rw [hmore, Array.toList_push, List.append_assoc, List.singleton_append]
        · have htoken := Cuts.token (t := t) (tokenText_ne_nil g rest)
            (fun c hc => mem_of_mem_complaintsOf hc) hcuts
          rwa [tokenText_append_drop] at htoken

/-- Every source text is cut into its tokens. -/
theorem cuts_ofText (text : Text) :
    Cuts .start text (ofText text).tokens.toList (ofText text).finish := by
  cases text with
  | nil => exact .finish .start
  | cons g rest =>
    rw [ofText]
    split
    · next hmark =>
      obtain ⟨more, hmore, hcuts⟩ :=
        cuts_cut (Nat.le_refl rest.length) (Position.start.after g) false #[]
      rw [hmore]
      exact .space (Or.inr hmark) hcuts
    · obtain ⟨more, hmore, hcuts⟩ := cuts_cut (Nat.le_refl (g :: rest).length) .start false #[]
      rw [hmore]
      exact hcuts

section Cuts

variable {p q : Position} {text : Text} {tokens : List Token}

/-- The text is used up. -/
theorem Cuts.finish_eq (h : Cuts p text tokens q) : q = p.afterText text := by
  induction h with
  | finish p => rfl
  | space _ _ ih => exact ih
  | @token t q rest tokens _ _ _ ih => rw [ih, Position.afterText_append]

/-- There are not more tokens than glyphs. -/
theorem Cuts.length_le (h : Cuts p text tokens q) : tokens.length ≤ text.length := by
  induction h with
  | finish => exact Nat.le_refl 0
  | space _ _ ih => exact Nat.le_succ_of_le ih
  | token hne _ _ ih =>
    have hpos := List.length_pos_iff.2 hne
    rw [List.length_append, List.length_cons]
    omega

/-- A token stands in the text where it says. -/
theorem Cuts.stands (h : Cuts p text tokens q) {t : Token} (ht : t ∈ tokens) :
    t.text ≠ [] ∧ ∃ front back, text = front ++ t.text ++ back ∧ t.position = p.afterText front := by
  induction h with
  | finish => cases ht
  | @space p q g rest tokens _ _ ih =>
    obtain ⟨hne, front, back, htext, hplace⟩ := ih ht
    exact ⟨hne, g :: front, back, by rw [htext]; rfl, hplace⟩
  | @token t' q rest tokens hne _ _ ih =>
    rcases List.mem_cons.1 ht with rfl | ht
    · exact ⟨hne, [], rest, rfl, rfl⟩
    · obtain ⟨hne', front, back, htext, hplace⟩ := ih ht
      refine ⟨hne', t'.text ++ front, back, ?_, ?_⟩
      · simp only [htext, List.append_assoc]
      · rw [hplace, Position.afterText_append]

/-- In a text without glyphs to complain about there are no complaints. -/
theorem Cuts.silent (h : Cuts p text tokens q) (htext : ∀ g ∈ text, complaint? g = none) :
    ∀ t ∈ tokens, t.complaints = [] := by
  induction h with
  | finish => exact fun t ht => absurd ht List.not_mem_nil
  | space _ _ ih => exact ih fun g hg => htext g (List.mem_cons_of_mem _ hg)
  | @token t' q rest tokens _ hcomplaints _ ih =>
    intro t ht
    rcases List.mem_cons.1 ht with rfl | ht
    · rw [List.eq_nil_iff_forall_not_mem]
      intro c hc
      obtain ⟨g, hg, hcomplaint⟩ := hcomplaints c hc
      rw [htext g hg] at hcomplaint
      cases hcomplaint
    · exact ih (fun g hg => htext g (List.mem_append_right _ hg)) t ht

end Cuts

end Source

end Assembly

end CellMachine
