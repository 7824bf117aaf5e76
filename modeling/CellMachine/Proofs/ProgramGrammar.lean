import CellMachine.Proofs.Decoding
import CellMachine.Proofs.ProgramText
import Mathlib.Data.List.Forall2

/-!
# The grammar of program texts

A program text is a list of pieces between commas, each a decimal literal with white space
around it, with white space around the whole (`Image.Piece`, `Text.Trims`). The reader
accepts exactly these texts, and gives one cell for each piece; for any other text it
names the first piece that is no number of a cell (`Image.parse_iff_grammar`). All of this
is said of bytes, since bytes that are no characters may stand anywhere in a text.
-/

set_option autoImplicit false

namespace CellMachine

/-! ## Trimming -/

namespace Text

/-- `u` is what is left of `t` without the white space at its two ends. -/
structure Trims (t u : Text) : Prop where
  around : ∃ a b, Blank a ∧ Blank b ∧ t = a ++ u ++ b
  first : ∀ g ∈ u.head?, g.isBlank = false
  last : ∀ g ∈ u.getLast?, g.isBlank = false

variable {t u : Text}

theorem dropWhile_eq_self (h : ∀ g ∈ u.head?, g.isBlank = false) :
    u.dropWhile Glyph.isBlank = u := by
  cases u with
  | nil => rfl
  | cons g rest => exact List.dropWhile_cons_of_neg (by simp [h g rfl])

theorem head?_dropWhile (u : Text) : ∀ g ∈ (u.dropWhile Glyph.isBlank).head?, g.isBlank = false := by
  intro g hg
  have hneg := List.head?_dropWhile_not Glyph.isBlank u
  rw [Option.mem_def.1 hg] at hneg
  simpa using hneg

theorem trims_trim (t : Text) : Trims t t.trim := by
  refine ⟨exists_trim t, ?_, ?_⟩
  · -- nothing stands in front of what is left once the front is dropped
    let u := t.dropWhile Glyph.isBlank
    have hu : u = t.trim ++ (u.reverse.takeWhile Glyph.isBlank).reverse := by
      rw [trim, ← List.reverse_append, List.takeWhile_append_dropWhile, List.reverse_reverse]
    intro g hg
    apply head?_dropWhile t g
    show g ∈ u.head?
    rw [hu]
    exact List.mem_head?_append_of_mem_head? hg
  · intro g hg
    rw [trim, List.getLast?_reverse] at hg
    exact head?_dropWhile _ g hg

theorem trims_iff : Trims t u ↔ u = t.trim := by
  constructor
  · rintro ⟨⟨a, b, ha, hb, rfl⟩, hfirst, hlast⟩
    have hback : u.reverse.dropWhile Glyph.isBlank = u.reverse := by
      apply dropWhile_eq_self
      rwa [List.head?_reverse]
    rw [trim_append_blank hb, trim_blank_append ha, trim, dropWhile_eq_self hfirst, hback,
      List.reverse_reverse]
  · rintro rfl
    exact trims_trim t

/-- Nothing is left of a text that is white space. -/
theorem trim_eq_nil_iff : t.trim = [] ↔ Blank t := by
  constructor
  · intro h
    obtain ⟨a, b, ha, hb, ht⟩ := exists_trim t
    rw [h, List.append_nil] at ht
    intro g hg
    rw [ht] at hg
    rcases List.mem_append.1 hg with hg | hg
    · exact ha g hg
    · exact hb g hg
  · intro h
    rw [trim, h.dropWhile_eq]
    rfl

end Text

namespace Image

/-! ## Pieces -/

/-- The piece is a decimal literal with white space around it, of a number that fits a
cell. -/
def Piece (piece : Text) (n : Int) : Prop :=
  ∃ literal, Text.Trims piece literal ∧ Numeral.Decimal literal n ∧
    Numeral.least ≤ n ∧ n ≤ Numeral.greatest

theorem int64_eq_ok_iff_piece {piece : Text} {v : Cell} :
    Numeral.int64 piece.trim = .ok v ↔ Piece piece v.toInt := by
  rw [Numeral.int64_eq_ok_iff]
  constructor
  · rintro ⟨n, hn, hleast, hgreatest, rfl⟩
    have hback : (Int64.ofInt n).toInt = n := by
      refine Int64.toInt_ofInt_of_le hleast ?_
      simp only [Numeral.greatest] at hgreatest
      omega
    rw [hback]
    exact ⟨piece.trim, Text.trims_trim piece, hn, hleast, hgreatest⟩
  · rintro ⟨literal, htrim, hn, hleast, hgreatest⟩
    rw [Text.trims_iff] at htrim
    exact ⟨v.toInt, htrim ▸ hn, hleast, hgreatest, (Int64.ofInt_toInt v).symm⟩

theorem exists_piece_iff {piece : Text} :
    (∃ n, Piece piece n) ↔ ∃ v, Numeral.read .cell piece.trim = .ok v := by
  constructor
  · rintro ⟨n, literal, htrim, hn, hleast, hgreatest⟩
    rw [Text.trims_iff] at htrim
    refine ⟨Int64.ofInt n, Numeral.read_eq_ok_iff.2 ?_⟩
    exact Numeral.int64_eq_ok_iff.2 ⟨n, htrim ▸ hn, hleast, hgreatest, rfl⟩
  · rintro ⟨v, hv⟩
    exact ⟨v.toInt, int64_eq_ok_iff_piece.1 (Numeral.read_eq_ok_iff.1 hv)⟩

theorem not_piece_of_error {piece : Text} {cause : ReadingError}
    (h : Numeral.read .cell piece.trim = .error cause) : ¬ ∃ n, Piece piece n := by
  rw [exists_piece_iff]
  rintro ⟨v, hv⟩
  rw [h] at hv
  cases hv

/-- The reader stops at the first piece that is no number of a cell. -/
theorem readCells_eq_error_iff {k : Nat} {seen : Array Cell} {pieces : List Text}
    {e : ImageError} :
    readCells k seen pieces = .error e ↔
      ∃ (front : List Text) (piece : Text) (back : List Text) (cause : ReadingError),
        pieces = front ++ piece :: back ∧ (∀ p ∈ front, ∃ n, Piece p n) ∧
        Numeral.read .cell piece.trim = .error cause ∧ e = .cell (k + front.length) cause := by
  induction pieces generalizing k seen with
  | nil =>
    constructor
    · intro h
      cases h
    · rintro ⟨front, piece, back, cause, hpieces, -⟩
      exact absurd hpieces (by simp)
  | cons first rest ih =>
    rw [readCells]
    cases hread : Numeral.read .cell first.trim with
    | error cause =>
      constructor
      · intro h
        cases h
        exact ⟨[], first, rest, cause, rfl, by simp, hread, rfl⟩
      · -- the first piece is no number, so it is not one of those in front
        rintro ⟨front, piece, back, cause', hpieces, hfront, hcause, rfl⟩
        cases front with
        | nil =>
          cases hpieces
          rw [hread] at hcause
          cases hcause
          rfl
        | cons p front =>
          cases hpieces
          exact absurd (hfront first List.mem_cons_self) (not_piece_of_error hread)
    | ok v =>
      simp only [ih]
      constructor
      · rintro ⟨front, piece, back, cause, rfl, hfront, hcause, rfl⟩
        refine ⟨first :: front, piece, back, cause, rfl, ?_, hcause, ?_⟩
        · intro p hp
          rcases List.mem_cons.1 hp with rfl | hp
          · exact exists_piece_iff.2 ⟨v, hread⟩
          · exact hfront p hp
        · -- the piece read is counted by the reader, and is now one of those in front
          rw [List.length_cons, Nat.add_assoc, Nat.add_comm 1]
      · rintro ⟨front, piece, back, cause, hpieces, hfront, hcause, rfl⟩
        cases front with
        | nil =>
          cases hpieces
          rw [hread] at hcause
          cases hcause
        | cons p front =>
          cases hpieces
          refine ⟨front, piece, back, cause, rfl, ?_, hcause, ?_⟩
          · intro p hp
            exact hfront p (List.mem_cons_of_mem first hp)
          · rw [List.length_cons, Nat.add_assoc, Nat.add_comm 1]

/-! ## Texts -/

theorem parse_of_blank {t : Text} (h : Text.Blank t) : parse t = .error .empty := by
  rw [parse, Text.trim_eq_nil_iff.2 h]
  rfl

theorem parse_of_not_blank {t : Text} (h : ¬ Text.Blank t) :
    parse t = (readCells 0 #[] (t.trim.splitOn (.char ','))).map Memory.mk := by
  have hne : ¬ t.trim.isEmpty = true := by
    rw [List.isEmpty_iff, Text.trim_eq_nil_iff]
    exact h
  rw [parse, if_neg hne, commaFields_eq]

/-- A memory is read exactly from the pieces of its cells, in order. -/
theorem parse_eq_ok_iff_pieces {t : Text} {m : Memory} :
    parse t = .ok m ↔ ¬ Text.Blank t ∧
      List.Forall₂ (fun piece v => Piece piece v.toInt) (t.trim.splitOn (.char ',')) m.toList := by
  have hpieces : parse t = .ok m ↔
      List.Forall₂ (fun piece v => Piece piece v.toInt) (t.trim.splitOn (.char ',')) m.toList := by
    rw [parse_eq_ok_iff, ← Text.map_trim_splitOn_trim (by decide) t, ← List.forall₂_eq_eq_eq,
      List.forall₂_map_left_iff, List.forall₂_map_left_iff, List.forall₂_map_right_iff]
    simp only [int64_eq_ok_iff_piece]
  rw [← hpieces, iff_and_self]
  intro h hblank
  rw [parse_of_blank hblank] at h
  cases h

theorem parse_eq_error_iff {t : Text} (h : ¬ Text.Blank t) {e : ImageError} :
    parse t = .error e ↔
      ∃ (front : List Text) (piece : Text) (back : List Text) (cause : ReadingError),
        t.trim.splitOn (.char ',') = front ++ piece :: back ∧ (∀ p ∈ front, ∃ n, Piece p n) ∧
        Numeral.read .cell piece.trim = .error cause ∧ e = .cell front.length cause := by
  have hmap : ∀ cells : Except ImageError (Array Cell),
      cells.map Memory.mk = .error e ↔ cells = .error e := by
    intro cells
    cases cells with
    | error e' => simp [Except.map]
    | ok cells => simp [Except.map]
  rw [parse_of_not_blank h, hmap, readCells_eq_error_iff]
  simp only [Nat.zero_add]

theorem parse_eq_empty_iff {t : Text} : parse t = .error .empty ↔ Text.Blank t := by
  constructor
  · intro h
    by_contra hblank
    obtain ⟨front, piece, back, cause, -, -, -, he⟩ := (parse_eq_error_iff hblank).1 h
    cases he
  · exact parse_of_blank

/-- A text is read exactly if it is not white space and its pieces are numbers of cells. -/
theorem exists_parse_iff {t : Text} :
    (∃ m, parse t = .ok m) ↔
      ¬ Text.Blank t ∧ ∀ piece ∈ t.trim.splitOn (.char ','), ∃ n, Piece piece n := by
  constructor
  · rintro ⟨m, hm⟩
    obtain ⟨hblank, hcells⟩ := parse_eq_ok_iff_pieces.1 hm
    refine ⟨hblank, ?_⟩
    intro piece hpiece
    obtain ⟨i, rfl⟩ := List.get_of_mem hpiece
    exact ⟨_, hcells.get i.isLt (hcells.length_eq ▸ i.isLt)⟩
  · rintro ⟨hblank, hall⟩
    cases hparse : parse t with
    | ok m => exact ⟨m, rfl⟩
    | error e =>
      obtain ⟨front, piece, back, cause, hpieces, -, hcause, -⟩ :=
        (parse_eq_error_iff hblank).1 hparse
      exact absurd (hall piece (by simp [hpieces])) (not_piece_of_error hcause)

/-- For all bytes there is one text they are read as, and of it one part without the white
space at its ends. If the text is white space it is reported empty. Otherwise it is read
exactly if all pieces of that part are numbers of cells, as the memory with a cell for each
piece. If not, the report is on the first piece that is none, with the number of pieces
before it. -/
theorem parse_iff_grammar (b : ByteArray) :
    ∃ t core : Text, (∀ u, Glyph.Reads b.data.toList u ↔ u = t) ∧
      (∀ u, Text.Trims t u ↔ u = core) ∧ Text.ofByteArray b = t ∧
      (parse t = .error .empty ↔ Text.Blank t) ∧
      ((∃ m, parse t = .ok m) ↔
        ¬ Text.Blank t ∧ ∀ piece ∈ core.splitOn (.char ','), ∃ n, Piece piece n) ∧
      (∀ m, parse t = .ok m ↔
        ¬ Text.Blank t ∧
          List.Forall₂ (fun piece v => Piece piece v.toInt) (core.splitOn (.char ',')) m.toList) ∧
      (∀ k cause, parse t = .error (.cell k cause) ↔
        ¬ Text.Blank t ∧ ∃ (front : List Text) (piece : Text) (back : List Text),
          core.splitOn (.char ',') = front ++ piece :: back ∧ front.length = k ∧
          (∀ p ∈ front, ∃ n, Piece p n) ∧ (¬ ∃ n, Piece piece n) ∧
          Numeral.read .cell piece.trim = .error cause) := by
  refine ⟨Text.ofByteArray b, (Text.ofByteArray b).trim, ?_, fun u => Text.trims_iff, rfl,
    parse_eq_empty_iff, exists_parse_iff, fun m => parse_eq_ok_iff_pieces, ?_⟩
  · intro u
    rw [Text.reads_ofByteArray_iff, eq_comm]
  · intro k cause
    constructor
    · intro h
      have hblank : ¬ Text.Blank (Text.ofByteArray b) := by
        intro hblank
        rw [parse_of_blank hblank] at h
        cases h
      obtain ⟨front, piece, back, cause', hpieces, hfront, hcause, he⟩ :=
        (parse_eq_error_iff hblank).1 h
      cases he
      exact ⟨hblank, front, piece, back, hpieces, rfl, hfront, not_piece_of_error hcause, hcause⟩
    · rintro ⟨hblank, front, piece, back, hpieces, rfl, hfront, -, hcause⟩
      exact (parse_eq_error_iff hblank).2
        ⟨front, piece, back, cause, hpieces, hfront, hcause, rfl⟩

end Image

end CellMachine
