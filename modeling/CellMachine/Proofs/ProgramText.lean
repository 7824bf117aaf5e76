import CellMachine.Command.Job
import CellMachine.Proofs.Buffering
import CellMachine.Proofs.Numerals

/-!
# Program texts

A text is read as a memory exactly if the parts between its commas, trimmed, are numerals
of the memory's cells (`Image.parse_eq_ok_iff`). Everything else follows from that.

What is written for a memory is read as that memory, and so it is with white space around
its numerals (`Image.parse_padded`). Of all texts that are read as a memory, the one that
is written for it is the only plain one (`Image.Plain.eq_text`).
-/

set_option autoImplicit false

namespace CellMachine

/-- A literal has neither white space nor a comma in it. -/
theorem Numeral.Decimal.not_special {t : Text} {n : Int} (h : Decimal t n) :
    ∀ g ∈ t, g.isBlank = false ∧ g ≠ .char ',' := by
  have hdigit : ∀ d < 10, (digit d).isBlank = false ∧ digit d ≠ .char ',' := by decide
  intro g hg
  rcases h.glyphs.2 g hg with rfl | rfl | ⟨d, hd, rfl⟩
  · decide
  · decide
  · exact hdigit d hd

theorem Numeral.writeCell_not_special (v : Cell) :
    ∀ g ∈ Text.ofString (writeCell v), g.isBlank = false ∧ g ≠ .char ',' :=
  (decimal_write v.toInt).not_special

namespace Image

/-! ## Which texts are read, and as what -/

theorem commaFields_eq (t : Text) : commaFields t = t.splitOn (.char ',') :=
  Text.split_eq_splitOn ',' t

theorem readCells_eq_ok_iff {k : Nat} {seen cells : Array Cell} {fields : List Text} :
    readCells k seen fields = .ok cells ↔
      ∃ vs : List Cell, (fields.map Text.trim).map Numeral.int64 = vs.map .ok ∧
        cells = seen ++ vs := by
  induction fields generalizing k seen with
  | nil =>
    simp only [readCells, List.map_nil, Except.ok.injEq]
    constructor
    · rintro rfl
      exact ⟨[], rfl, by simp⟩
    · rintro ⟨vs, hvs, rfl⟩
      rw [List.map_eq_nil_iff.1 hvs.symm]
      simp
  | cons field rest ih =>
    rw [readCells]
    cases hread : Numeral.read .cell field.trim with
    | error cause =>
      constructor
      · intro h
        cases h
      · rintro ⟨vs, hvs, -⟩
        obtain ⟨v, vs, rfl, hv, -⟩ := List.map_eq_cons_iff.1 hvs.symm
        rw [Numeral.read_eq_ok_iff.2 hv.symm] at hread
        cases hread
    | ok v =>
      have hv := Numeral.read_eq_ok_iff.1 hread
      simp only [ih]
      constructor
      · rintro ⟨vs, hvs, rfl⟩
        refine ⟨v :: vs, ?_, by simp⟩
        simp only [List.map_cons, hv, hvs]
      · rintro ⟨vs, hvs, rfl⟩
        obtain ⟨w, vs, rfl, hw, hrest⟩ := List.map_eq_cons_iff.1 hvs.symm
        rw [hv] at hw
        cases hw
        exact ⟨vs, hrest.symm, by simp⟩

theorem map_mk_eq_ok_iff {cells : Except ImageError (Array Cell)} {m : Memory} :
    cells.map Memory.mk = .ok m ↔ cells = .ok m.cells := by
  cases cells with
  | error e => simp [Except.map]
  | ok cells =>
    cases m
    simp [Except.map]

/-- A text is read as a memory exactly if its trimmed parts are numerals of the cells. -/
theorem parse_eq_ok_iff {t : Text} {m : Memory} :
    parse t = .ok m ↔
      ((t.splitOn (.char ',')).map Text.trim).map Numeral.int64 = m.toList.map .ok := by
  have hparts : (t.trim.splitOn (.char ',')).map Text.trim =
      (t.splitOn (.char ',')).map Text.trim := Text.map_trim_splitOn_trim (by decide) t
  rw [← hparts, parse]
  by_cases ht : t.trim = []
  · -- the only part of a blank text is blank, and no numeral
    rw [ht, if_pos (by rfl)]
    constructor
    · intro h
      cases h
    · intro h
      obtain ⟨v, vs, -, hv, -⟩ := List.map_eq_cons_iff.1 h.symm
      cases hv
  · rw [if_neg (by simpa using ht), commaFields_eq, map_mk_eq_ok_iff, readCells_eq_ok_iff]
    constructor
    · rintro ⟨vs, hvs, hcells⟩
      have hlist : m.toList = vs := by simp [Memory.toList, hcells]
      rw [hvs, hlist]
    · intro h
      exact ⟨m.toList, h, by simp [Memory.toList]⟩

/-- Only memories with cells are read. -/
theorem size_ne_zero_of_parse {t : Text} {m : Memory} (h : parse t = .ok m) : m.size ≠ 0 := by
  have hparts := parse_eq_ok_iff.1 h
  intro hsize
  have hnil : m.toList = [] := List.length_eq_zero_iff.1 hsize
  rw [hnil, List.map_nil, List.map_eq_nil_iff, List.map_eq_nil_iff] at hparts
  exact List.splitOn_ne_nil (.char ',') t hparts

/-- White space behind a text makes no difference. -/
theorem parse_append_blank {b : Text} (hb : Text.Blank b) (t : Text) :
    parse (t ++ b) = parse t := by
  rw [parse, parse, Text.trim_append_blank hb]

/-! ## Texts with white space -/

/-- A cell's numeral with white space around it. -/
structure Padded where
  before : Text
  cell : Cell
  after : Text
  blank_before : Text.Blank before
  blank_after : Text.Blank after

namespace Padded

/-- The numeral with the white space. -/
def text (p : Padded) : Text :=
  p.before ++ Text.ofString (Numeral.writeCell p.cell) ++ p.after

/-- A numeral without white space. -/
def tight (v : Cell) : Padded :=
  ⟨[], v, [], Text.blank_nil, Text.blank_nil⟩

theorem text_tight (v : Cell) : (tight v).text = Text.ofString (Numeral.writeCell v) := by
  simp [text, tight]

theorem trim_text (p : Padded) : p.text.trim = Text.ofString (Numeral.writeCell p.cell) :=
  Text.trim_padded p.blank_before p.blank_after fun g hg =>
    (Numeral.writeCell_not_special p.cell g hg).1

theorem int64_trim_text (p : Padded) : Numeral.int64 p.text.trim = .ok p.cell := by
  rw [p.trim_text, Numeral.int64_writeCell]

theorem mem_text {p : Padded} {g : Glyph} (h : g ∈ p.text) :
    g.isBlank = true ∨ g ∈ Text.ofString (Numeral.writeCell p.cell) := by
  rcases List.mem_append.1 h with h | h
  · rcases List.mem_append.1 h with h | h
    · exact Or.inl (p.blank_before g h)
    · exact Or.inr h
  · exact Or.inl (p.blank_after g h)

theorem comma_not_mem (p : Padded) : .char ',' ∉ p.text := by
  intro hmem
  rcases mem_text hmem with hblank | hmem
  · exact absurd hblank (by decide)
  · exact (Numeral.writeCell_not_special p.cell _ hmem).2 rfl

end Padded

/-- The numerals of a text, each followed by a comma but the last. -/
def listText (cells : List Padded) : Text :=
  [.char ','].intercalate (cells.map Padded.text)

theorem splitOn_listText {cells : List Padded} (h : cells ≠ []) :
    (listText cells).splitOn (.char ',') = cells.map Padded.text := by
  refine List.splitOn_intercalate _ ?_ (by simpa using h)
  intro part hpart
  obtain ⟨p, -, rfl⟩ := List.mem_map.1 hpart
  exact p.comma_not_mem

/-- Numerals with commas between them and white space around them are read as the cells. -/
theorem parse_listText {cells : List Padded} (h : cells ≠ []) :
    parse (listText cells) = .ok (.ofList (cells.map Padded.cell)) := by
  rw [parse_eq_ok_iff, splitOn_listText h]
  simp [Memory.ofList, Memory.toList, Padded.int64_trim_text]

/-! ## The text of a memory -/

/-- The text of a memory is the list of its numerals without white space. -/
theorem ofString_text (m : Memory) :
    Text.ofString m.text = listText (m.toList.map Padded.tight) := by
  have hjoin : ∀ v rest, Text.ofString (Numeral.writeCell v) ++
      rest.flatMap (fun v => Text.ofString ("," ++ Numeral.writeCell v)) =
        listText ((v :: rest).map Padded.tight) := by
    intro v rest
    -- the comma goes before a cell on one side and between cells on the other
    induction rest generalizing v with
    | nil => simp [listText, Padded.text_tight, List.intercalate_singleton]
    | cons next rest ih =>
      have hnext := ih next
      simp only [listText, List.map_cons, List.intercalate_cons_cons] at hnext ⊢
      rw [← hnext, Padded.text_tight, List.flatMap_cons, Text.ofString_append]
      simp [Text.ofString]
  rw [Memory.text, Text.ofString_join, Memory.pieces]
  cases m.toList with
  | nil => rfl
  | cons v rest => rw [List.flatMap_cons, List.flatMap_map, hjoin]

theorem tight_ne_nil {m : Memory} (h : m.size ≠ 0) : m.toList.map Padded.tight ≠ [] := by
  intro hnil
  exact h (List.length_eq_zero_iff.2 (List.map_eq_nil_iff.1 hnil))

/-- The text of a memory with cells is read as the memory. -/
theorem parse_text {m : Memory} (h : m.size ≠ 0) : parse (Text.ofString m.text) = .ok m := by
  rw [ofString_text, parse_listText (tight_ne_nil h), List.map_map]
  simp [Padded.tight, Function.comp_def, Memory.ofList, Memory.toList]

/-- A text without white space all of whose numerals are plain. -/
structure Plain (t : Text) : Prop where
  noBlank : ∀ g ∈ t, g.isBlank = false
  numerals : ∀ field ∈ commaFields t, Numeral.Plain field

theorem plain_text {m : Memory} (h : m.size ≠ 0) : Plain (Text.ofString m.text) := by
  have hparts := splitOn_listText (tight_ne_nil h)
  rw [← ofString_text, List.map_map] at hparts
  have hfield : ∀ field ∈ (Text.ofString m.text).splitOn (.char ','),
      ∃ v, field = Text.ofString (Numeral.writeCell v) := by
    intro field hmem
    rw [hparts] at hmem
    obtain ⟨v, -, rfl⟩ := List.mem_map.1 hmem
    exact ⟨v, Padded.text_tight v⟩
  constructor
  · intro g hg
    rcases Text.mem_splitOn_of_mem (.char ',') hg with rfl | ⟨field, hmem, hg⟩
    · decide
    · obtain ⟨v, rfl⟩ := hfield field hmem
      exact (Numeral.writeCell_not_special v g hg).1
  · intro field hmem
    rw [commaFields_eq] at hmem
    obtain ⟨v, rfl⟩ := hfield field hmem
    exact Numeral.plain_write v.toInt

/-- Plain numerals of cells are the ones that are written. -/
theorem numerals_eq {fields : List Text} {vs : List Cell}
    (hp : ∀ field ∈ fields, Numeral.Plain field)
    (h : fields.map Numeral.int64 = vs.map .ok) :
    fields = vs.map fun v => Text.ofString (Numeral.writeCell v) := by
  induction fields generalizing vs with
  | nil =>
    rw [List.map_eq_nil_iff.1 h.symm]
    rfl
  | cons field rest ih =>
    obtain ⟨v, vs, rfl, hv, hrest⟩ := List.map_eq_cons_iff.1 h.symm
    have hfield := Numeral.eq_writeCell hv.symm (hp field List.mem_cons_self)
    have htail := ih (fun f hf => hp f (List.mem_cons_of_mem field hf)) hrest.symm
    rw [List.map_cons, ← hfield, ← htail]

/-- A plain text that is read as a memory is the text of the memory. -/
theorem Plain.eq_text {t : Text} {m : Memory} (hp : Plain t) (h : parse t = .ok m) :
    t = Text.ofString m.text := by
  have hnumerals := hp.numerals
  rw [commaFields_eq] at hnumerals
  have htrim : (t.splitOn (.char ',')).map Text.trim = (t.splitOn (.char ',')).map id := by
    apply List.map_congr_left
    intro part hpart
    exact Text.trim_eq_self fun g hg => hp.noBlank g (Text.mem_of_mem_splitOn hpart hg)
  have hparts := parse_eq_ok_iff.1 h
  rw [htrim, List.map_id] at hparts
  calc t = [.char ','].intercalate (t.splitOn (.char ',')) := (List.intercalate_splitOn _).symm
    _ = listText (m.toList.map Padded.tight) := by
      rw [numerals_eq hnumerals hparts, listText, List.map_map]
      simp only [Function.comp_def, Padded.text_tight]
    _ = Text.ofString m.text := (ofString_text m).symm

/-! ## Writing -/

theorem dump_of_unbounded {sink : Sink} (hs : sink.capacity = none) (m : Memory) :
    m.dump sink = (sink.andText m.text, none) := by
  rw [Memory.dump_eq, Sticky.writeAll_of_unbounded hs]
  rfl

/-- A printed program is the text of the memory and a line break. -/
theorem printProgram_of_unbounded {sink : Sink} (hs : sink.capacity = none) (m : Memory) :
    Command.printProgram m sink = ⟨sink.andText (m.text ++ "\n"), [], none⟩ := by
  have hs' : (sink.andText m.text).capacity = none := hs
  simp only [Command.printProgram, dump_of_unbounded hs, Sink.write_of_unbounded hs',
    Sink.andText_andText, Option.map_none]

/-- A saved program is the text of the memory and a line break. -/
theorem saveProgram_of_unbounded {sink : Sink} (hs : sink.capacity = none) (m : Memory) :
    Command.saveProgram m sink = (sink.andText (m.text ++ "\n"), none) := by
  obtain ⟨b, hall, hbody⟩ := (Buffered.holds_new sink).writeAll hs m.pieces
  obtain ⟨herr, hline⟩ := hbody.write hs "\n".toUTF8
  have hflush := hline.flush hs
  have hdump : m.dump (Buffered.new sink) = (b, none) := by
    rw [Memory.dump_eq, hall]
    rfl
  simp only [Command.saveProgram, hdump, herr, hflush, Option.map_none]
  simp [Sink.andBytes, Sink.andText, Memory.text, String.toByteArray_append]

/-- The memories that are read from texts are those with cells. The text of such a memory
reaches any sink that takes everything, alone or with a line break behind it, and is read as
the memory again, also with white space around its numerals. Among the texts that are read
as the memory it is the only plain one. -/
theorem program_text_round_trip (m : Memory) :
    ((∃ t, parse t = .ok m) ↔ m.size ≠ 0) ∧
    (m.size ≠ 0 →
      (∀ sink : Sink, sink.capacity = none →
        m.dump sink = (sink.andText m.text, none) ∧
        Command.saveProgram m sink = (sink.andText (m.text ++ "\n"), none) ∧
        Command.printProgram m sink = ⟨sink.andText (m.text ++ "\n"), [], none⟩) ∧
      parse (Text.ofByteArray m.text.toUTF8) = .ok m ∧
      parse (Text.ofByteArray (m.text ++ "\n").toUTF8) = .ok m ∧
      (∀ cells : List Padded, cells.map Padded.cell = m.toList →
        parse (listText cells) = .ok m) ∧
      ∀ t, Plain t ∧ parse t = .ok m ↔ t = Text.ofString m.text) := by
  refine ⟨⟨fun ⟨t, ht⟩ => size_ne_zero_of_parse ht, fun h => ⟨_, parse_text h⟩⟩, ?_⟩
  intro h
  refine ⟨?_, ?_, ?_, ?_, ?_⟩
  · intro sink hs
    exact ⟨dump_of_unbounded hs m, saveProgram_of_unbounded hs m, printProgram_of_unbounded hs m⟩
  · rw [Text.ofByteArray_toUTF8, parse_text h]
  · have hbreak : Text.Blank (Text.ofString "\n") := by decide
    rw [Text.ofByteArray_toUTF8, Text.ofString_append, parse_append_blank hbreak, parse_text h]
  · intro cells hcells
    have hne : cells ≠ [] := by
      rintro rfl
      exact h (List.length_eq_zero_iff.2 hcells.symm)
    rw [parse_listText hne, hcells]
    rfl
  · intro t
    constructor
    · rintro ⟨hp, ht⟩
      exact hp.eq_text ht
    · rintro rfl
      exact ⟨plain_text h, parse_text h⟩

/-- The least and the greatest cell, the latter between wide spaces. -/
def extremes : List Padded :=
  [.tight (-9223372036854775808), .tight 0,
    ⟨[.char '\u3000'], 9223372036854775807, [.char '\u2003', .char '\t'], by decide, by decide⟩]

theorem extremes_round_trip :
    let m := Memory.ofList (extremes.map Padded.cell)
    m.size ≠ 0 ∧ m.text = "-9223372036854775808,0,9223372036854775807" ∧
      parse (Text.ofByteArray (m.text ++ "\n").toUTF8) = .ok m ∧
      parse (listText extremes) = .ok m ∧
      Command.saveProgram m .unbounded = (Sink.unbounded.andText (m.text ++ "\n"), none) := by
  have hsize : (Memory.ofList (extremes.map Padded.cell)).size ≠ 0 := by decide
  obtain ⟨hwrite, -, hline, hpadded, -⟩ := (program_text_round_trip _).2 hsize
  exact ⟨hsize, by decide +kernel, hline, hpadded extremes rfl, (hwrite .unbounded rfl).2.1⟩

end Image

end CellMachine
