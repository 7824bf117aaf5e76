import CellMachine.Listing
import CellMachine.Proofs.Assembly.Words
import CellMachine.Proofs.Texts

/-!
# Listings as programs

The text of a memory is a program without labels. It has one item for each statement
(`listed`), and its words are these items spelled (`splits_source`).

There are two parts to this. What a statement says is an item, and the statement's
words spell it (`spelled_statement`). How it is written is a line of plain words, with
a blank between two of them and a line break behind the last (`spaced_source`).
-/

set_option autoImplicit false

namespace CellMachine.Assembly

open Listing

/-! ## Statements as items -/

/-- The word of parameter `k` of the instruction at `pc`. -/
def operandWord (m : Memory) (ins : Instruction) (pc k : Nat) : Text :=
  (if ins.mode k = .immediate then [.char '#'] else []) ++
    Text.ofString (Numeral.writeCell (m.cells.getD (pc + 1 + k) 0))

/-- The words of the statement at `pc`. -/
def statementWords (m : Memory) (pc : Nat) : List Text :=
  match shown? m pc with
  | some ins => Text.ofString ins.op.name :: (List.range ins.op.arity).map (operandWord m ins pc)
  | none => [Text.ofString ".dat", Text.ofString (Numeral.writeCell (m.cells.getD pc 0))]

/-- Parameter `k` of the instruction at `pc` as an operand. -/
def shownOperand (m : Memory) (ins : Instruction) (pc k : Nat) : Operand :=
  ⟨decide (ins.mode k = .immediate), .literal (m.cells.getD (pc + 1 + k) 0)⟩

/-- The item that the statement at `pc` spells. -/
def shownItem (m : Memory) (pc : Nat) : Item :=
  match shown? m pc with
  | some ins => .instruction ins.op ((List.range ins.op.arity).map (shownOperand m ins pc))
  | none => .data (.literal (m.cells.getD pc 0))

/-- The items of a listing. -/
def listed (m : Memory) : List Item :=
  (statements m).map (shownItem m)

theorem spelled_writeCell (v : Cell) :
    (Value.literal v).Spelled (Text.ofString (Numeral.writeCell v)) := by
  have hspelled := Value.Spelled.literal (Numeral.decimal_write v.toInt) (Int64.le_toInt v)
    (Int64.toInt_le v)
  rwa [Int64.ofInt_toInt] at hspelled

theorem spelled_operandWord (m : Memory) (ins : Instruction) (pc k : Nat) :
    (shownOperand m ins pc k).Spelled (operandWord m ins pc k) := by
  by_cases h : ins.mode k = .immediate
  · simp only [operandWord, shownOperand, h, if_true, decide_true]
    exact .immediate (spelled_writeCell _)
  · simp only [operandWord, shownOperand, h, if_false, decide_false, List.nil_append]
    exact .position (spelled_writeCell _)

theorem mem_mnemonics (op : Opcode) : (op.name, op) ∈ mnemonics := by
  cases op <;> decide

theorem spelled_statement (m : Memory) (pc : Nat) :
    (shownItem m pc).Spelled (statementWords m pc) := by
  unfold shownItem statementWords
  cases shown? m pc with
  | none => exact .data (spelled_writeCell _)
  | some ins =>
    refine .instruction (mem_mnemonics ins.op) ?_ (by simp)
    rw [List.forall₂_map_left_iff, List.forall₂_map_right_iff, List.forall₂_same]
    exact fun k _ => spelled_operandWord m ins pc k

/-! ## Statements as words -/

/-- The glyphs that a listing is made of. -/
theorem isWordGlyph_listing {g : Glyph}
    (h : g ∈ (Text.ofString ".#+-") ∨ ∃ d, d < 10 ∧ g = Numeral.digit d) :
    isWordGlyph g = true ∧ complaint? g = none := by
  have hmarks : ∀ g ∈ Text.ofString ".#+-", isWordGlyph g = true ∧ complaint? g = none := by
    simp only [isWordGlyph_eq]
    decide +kernel
  have hdigits : ∀ d : Fin 10, isWordGlyph (Numeral.digit d) = true ∧
      complaint? (Numeral.digit d) = none := by
    simp only [isWordGlyph_eq]
    decide +kernel
  rcases h with hg | ⟨d, hd, rfl⟩
  · exact hmarks g hg
  · exact hdigits ⟨d, hd⟩

theorem plainWord_name (op : Opcode) : PlainWord (Text.ofString op.name) := by
  have hglyphs : ∀ g ∈ Text.ofString op.name, isWordGlyph g = true ∧ complaint? g = none := by
    simp only [isWordGlyph_eq]
    cases op <;> decide +kernel
  refine ⟨?_, hglyphs, ?_⟩
  · cases op <;> decide
  · cases op <;> decide

theorem plainWord_dat : PlainWord (Text.ofString ".dat") := by
  refine ⟨by decide, ?_, by decide⟩
  simp only [isWordGlyph_eq]
  decide +kernel

/-- A numeral is a plain word, also behind a mark. -/
theorem plainWord_numeral (v : Cell) {mark : Text} (hmark : mark = [] ∨ mark = [.char '#']) :
    PlainWord (mark ++ Text.ofString (Numeral.writeCell v)) := by
  obtain ⟨hne, hglyphs⟩ := (Numeral.decimal_write v.toInt).glyphs
  have hnumeral : ∀ g ∈ Text.ofString (Numeral.writeCell v),
      g ∈ Text.ofString ".#+-" ∨ ∃ d, d < 10 ∧ g = Numeral.digit d := by
    intro g hg
    rcases hglyphs g hg with rfl | rfl | hd
    · exact Or.inl (by decide)
    · exact Or.inl (by decide)
    · exact Or.inr hd
  have hall : ∀ g ∈ mark ++ Text.ofString (Numeral.writeCell v),
      g ∈ Text.ofString ".#+-" ∨ ∃ d, d < 10 ∧ g = Numeral.digit d := by
    intro g hg
    rcases List.mem_append.1 hg with hg | hg
    · rcases hmark with rfl | rfl
      · cases hg
      · rw [List.mem_singleton.1 hg]
        exact Or.inl (by decide)
    · exact hnumeral g hg
  refine ⟨?_, fun g hg => isWordGlyph_listing (hall g hg), ?_⟩
  · intro hnil
    exact hne (List.append_eq_nil_iff.1 hnil).2
  · -- a parenthesis is none of these glyphs
    intro heq
    have hmem : Glyph.char '(' ∈ mark ++ Text.ofString (Numeral.writeCell v) := by
      rw [heq]
      exact List.mem_singleton_self _
    rcases hall _ hmem with hg | ⟨d, hd, hg⟩
    · exact absurd hg (by decide)
    · have hdigits : ∀ d : Fin 10, Glyph.char '(' ≠ Numeral.digit d := by decide
      exact hdigits ⟨d, hd⟩ hg

theorem plainWord_statement (m : Memory) (pc : Nat) : ∀ w ∈ statementWords m pc, PlainWord w := by
  unfold statementWords
  cases shown? m pc with
  | none =>
    intro w hw
    simp only [List.mem_cons, List.not_mem_nil, or_false] at hw
    rcases hw with rfl | rfl
    · exact plainWord_dat
    · exact plainWord_numeral _ (Or.inl rfl)
  | some ins =>
    intro w hw
    rcases List.mem_cons.1 hw with rfl | hw
    · exact plainWord_name ins.op
    · obtain ⟨k, -, rfl⟩ := List.mem_map.1 hw
      apply plainWord_numeral
      by_cases h : ins.mode k = .immediate
      · exact Or.inr (if_pos h)
      · exact Or.inl (if_neg h)

/-- Words with a blank before each but the first. -/
def lineText (ws : List Text) : Text :=
  match ws with
  | [] => []
  | w :: ws => w ++ ws.flatMap fun w => .char ' ' :: w

/-- A line of plain words in front of a spaced text. -/
theorem Spaced.line {ws us : List Text} {t : Text} (hws : ∀ w ∈ ws, PlainWord w)
    (h : Spaced t us) : Spaced (lineText ws ++ .char '\n' :: t) (ws ++ us) := by
  have hbreak : isSpace (.char '\n') = true := by decide
  have hblank : isSpace (.char ' ') = true := by decide
  cases ws with
  | nil => exact .space hbreak h
  | cons w ws =>
    induction ws generalizing w with
    | nil =>
      have hline : lineText [w] ++ .char '\n' :: t = w ++ .char '\n' :: t := by simp [lineText]
      rw [hline]
      refine .word (hws w List.mem_cons_self) ?_ (.space hbreak h)
      intro g hg
      cases hg
      exact hbreak
    | cons w' ws ih =>
      have hline : lineText (w :: w' :: ws) ++ .char '\n' :: t =
          w ++ .char ' ' :: (lineText (w' :: ws) ++ .char '\n' :: t) := by
        simp [lineText]
      rw [hline]
      refine .word (hws w List.mem_cons_self) ?_ (.space hblank ?_)
      · intro g hg
        cases hg
        exact hblank
      · exact ih w' fun u hu => hws u (List.mem_cons_of_mem w hu)

/-- The text of a statement is the line of its words. -/
theorem ofString_statementText (m : Memory) (pc : Nat) :
    Text.ofString (statementText m pc) = lineText (statementWords m pc) := by
  have hparameter : ∀ (ins : Instruction) k, (parameterPieces m ins pc k).flatMap Text.ofString =
      .char ' ' :: operandWord m ins pc k := by
    intro ins k
    unfold parameterPieces operandWord
    by_cases h : ins.mode k = .immediate
    · simp [h, Text.ofString]
    · simp [h, Text.ofString]
  rw [statementText, Text.ofString_join, statementPieces, statementWords]
  cases shown? m pc with
  | none =>
    simp [lineText, Text.ofString]
  | some ins =>
    simp only [List.flatMap_cons, List.flatMap_assoc, hparameter, lineText, List.flatMap_map]

theorem spaced_statements (m : Memory) (addresses : List Nat) :
    Spaced (Text.ofString (String.join (addresses.map fun pc => statementText m pc ++ "\n")))
      (addresses.flatMap (statementWords m)) := by
  induction addresses with
  | nil => exact .nil
  | cons pc rest ih =>
    have htext : Text.ofString
          (String.join ((pc :: rest).map fun pc => statementText m pc ++ "\n")) =
        lineText (statementWords m pc) ++ .char '\n' ::
          Text.ofString (String.join (rest.map fun pc => statementText m pc ++ "\n")) := by
      rw [List.map_cons, String.join_cons, Text.ofString_append, Text.ofString_append,
        ofString_statementText, List.append_assoc]
      rfl
    rw [htext, List.flatMap_cons]
    exact .line (plainWord_statement m pc) ih

theorem spaced_source (m : Memory) :
    Spaced (Text.ofString (source m)) ((statements m).flatMap (statementWords m)) :=
  spaced_statements m (statements m)

/-- The words of a listing spell its items. -/
theorem splits_source (m : Memory) : Splits (wordsOf (Text.ofString (source m))) (listed m) := by
  refine ⟨(statements m).map (statementWords m), ?_, ?_⟩
  · rw [(spaced_source m).wordsOf_eq, List.flatMap_def]
  · rw [listed, List.forall₂_map_left_iff, List.forall₂_map_right_iff, List.forall₂_same]
    exact fun pc _ => spelled_statement m pc

end CellMachine.Assembly
