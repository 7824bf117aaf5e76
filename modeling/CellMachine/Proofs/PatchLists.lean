import CellMachine.Patch
import CellMachine.Proofs.ProgramGrammar

/-!
# Lists of patches

Patches are read from items, and an item can hold several of them. How they are grouped
makes no difference: a comma inside an item does what the end of an item does
(`Patch.fieldsOf_comma`), so the items give the patches, or the error, that they give when
they are joined with commas (`Patch.parse_intercalate`).

With that it is enough to look at one field at a time. `Patch.Field` has the fields that
are written for addresses and values, with white space wherever it may stand, and
`Patch.Field.parse_text` says what is read from one of them.
-/

set_option autoImplicit false

namespace CellMachine

theorem Numeral.Decimal.equals_not_mem {t : Text} {n : Int} (h : Decimal t n) : .char '=' ∉ t := by
  have hdigit : ∀ d < 10, Glyph.char '=' ≠ digit d := by decide
  intro hmem
  rcases h.glyphs.2 _ hmem with heq | heq | ⟨d, hd, heq⟩
  · cases heq
  · cases heq
  · exact hdigit d hd heq

theorem Image.Padded.equals_not_mem (p : Padded) : .char '=' ∉ p.text := by
  intro hmem
  rcases p.mem_text hmem with hblank | hmem
  · exact absurd hblank (by decide)
  · exact (Numeral.decimal_write p.cell.toInt).equals_not_mem hmem

namespace Patch

/-! ## Grouping -/

theorem fieldsOf_append (items items' : List Text) :
    fieldsOf (items ++ items') = fieldsOf items ++ fieldsOf items' := by
  simp [fieldsOf]

/-- A comma inside an item does what the end of the item does. -/
theorem fieldsOf_comma (t u : Text) : fieldsOf [t ++ .char ',' :: u] = fieldsOf [t, u] := by
  have hsplit : (t ++ .char ',' :: u).splitOn (.char ',') =
      t.splitOn (.char ',') ++ u.splitOn (.char ',') := by
    simp only [List.splitOn_eq_splitOnP]
    exact List.splitOnP_append_cons t u (beq_self_eq_true _)
  simp only [fieldsOf, Image.commaFields_eq, List.flatMap_cons, List.flatMap_nil, List.append_nil,
    hsplit]

theorem fieldsOf_intercalate (items : List Text) :
    fieldsOf [[.char ','].intercalate items] = fieldsOf items := by
  cases items with
  | nil =>
    -- nothing joined is still one field, but a blank one
    rfl
  | cons t rest =>
    induction rest generalizing t with
    | nil => rw [List.intercalate_singleton]
    | cons next rest ih =>
      have hjoin : [.char ','].intercalate (t :: next :: rest) =
          t ++ .char ',' :: [.char ','].intercalate (next :: rest) := by
        rw [List.intercalate_cons_cons, List.append_assoc]
        rfl
      calc fieldsOf [[.char ','].intercalate (t :: next :: rest)]
          = fieldsOf [t] ++ fieldsOf [[.char ','].intercalate (next :: rest)] := by
            rw [hjoin, fieldsOf_comma, ← fieldsOf_append]
            rfl
        _ = fieldsOf [t] ++ fieldsOf (next :: rest) := by rw [ih]
        _ = fieldsOf (t :: next :: rest) := (fieldsOf_append [t] (next :: rest)).symm

/-- Items are read as the one item that joins them with commas. -/
theorem parse_intercalate (items : List Text) :
    parse [[.char ','].intercalate items] = parse items := by
  rw [parse, parse, fieldsOf_intercalate]

theorem parse_append {items items' : List Text} {ps ps' : List Patch} (h : parse items = .ok ps)
    (h' : parse items' = .ok ps') : parse (items ++ items') = .ok (ps ++ ps') := by
  rw [parse] at h h' ⊢
  rw [fieldsOf_append, List.mapM_append, h, h']
  rfl

/-! ## One field -/

theorem fieldsOf_singleton {t : Text} (h : .char ',' ∉ t) :
    fieldsOf [t] = [t.trim].filter (!·.isEmpty) := by
  have hsplit : t.splitOn (.char ',') = [t] := List.splitOn_eq_singleton h
  simp only [fieldsOf, Image.commaFields_eq, List.flatMap_cons, List.flatMap_nil, List.append_nil,
    hsplit, List.map_singleton]

theorem comma_not_mem_of_blank {t : Text} (h : Text.Blank t) : .char ',' ∉ t := by
  intro hmem
  exact absurd (h _ hmem) (by decide)

theorem parse_blank {t : Text} (h : Text.Blank t) : parse [t] = .ok [] := by
  rw [parse, fieldsOf_singleton (comma_not_mem_of_blank h), Text.trim_eq_nil_iff.2 h]
  rfl

/-- A patch is read on the two sides of the first equals sign. -/
theorem ofField_eq_ok {left right : Text} {a v : Cell} (hleft : .char '=' ∉ left)
    (ha : Numeral.int64 left.trim = .ok a) (hv : Numeral.int64 right.trim = .ok v) :
    ofField (left ++ .char '=' :: right) = .ok ⟨a.toInt, v⟩ := by
  have hfront : (left ++ .char '=' :: right).takeWhile (!·.is '=') = left := by
    rw [List.takeWhile_append_of_pos, List.takeWhile_cons_of_neg, List.append_nil]
    · decide
    · intro g hg
      have hne : g ≠ .char '=' := fun heq => hleft (heq ▸ hg)
      simpa [Glyph.is] using hne
  simp only [ofField, hfront, List.drop_left, Numeral.read_eq_ok_iff.2 ha,
    Numeral.read_eq_ok_iff.2 hv]

/-- The white space that is taken from the ends of a field would be taken from the ends of
its two numerals anyway. -/
theorem parse_assignment {left right : Text} {a v : Cell}
    (hcomma : .char ',' ∉ left ++ .char '=' :: right) (hleft : .char '=' ∉ left)
    (ha : Numeral.int64 left.trim = .ok a) (hv : Numeral.int64 right.trim = .ok v) :
    parse [left ++ .char '=' :: right] = .ok [⟨a.toInt, v⟩] := by
  have hequals : .char '=' ∉ left.dropWhile Glyph.isBlank := by
    intro hmem
    exact hleft ((List.dropWhile_sublist _).subset hmem)
  -- the numerals are trimmed again, so what is left of the two sides is read like the sides
  rw [← Text.trim_dropWhile] at ha
  rw [← Text.trim_dropWhile_reverse] at hv
  have hfield := ofField_eq_ok hequals ha hv
  rw [← Text.trim_append_cons (by decide)] at hfield
  have hne : (left ++ .char '=' :: right).trim.isEmpty = false := by
    rw [Text.trim_append_cons (by decide)]
    simp
  have hfields : fieldsOf [left ++ .char '=' :: right] = [(left ++ .char '=' :: right).trim] := by
    rw [fieldsOf_singleton hcomma]
    simp [hne]
  rw [parse, hfields, List.mapM_cons, hfield]
  rfl

/-- What can stand between two commas: white space, or an address and a value with white
space around each of them. -/
inductive Field where
  | blank (space : Text) (h : Text.Blank space)
  | assignment (addr value : Image.Padded)

namespace Field

/-- A field as it is written. -/
def text : Field → Text
  | blank space _ => space
  | assignment addr value => addr.text ++ .char '=' :: value.text

/-- The address and the value that are written in a field. -/
def pair? : Field → Option (Cell × Cell)
  | blank _ _ => none
  | assignment addr value => some (addr.cell, value.cell)

end Field

/-- The patch that stores a value at an address. -/
def ofPair (p : Cell × Cell) : Patch :=
  ⟨p.1.toInt, p.2⟩

theorem Field.parse_text (f : Field) : parse [f.text] = .ok (f.pair?.toList.map ofPair) := by
  cases f with
  | blank space h => exact parse_blank h
  | assignment addr value =>
    refine parse_assignment ?_ addr.equals_not_mem addr.int64_trim_text value.int64_trim_text
    intro hmem
    rcases List.mem_append.1 hmem with hmem | hmem
    · exact addr.comma_not_mem hmem
    · exact value.comma_not_mem ((List.mem_cons.1 hmem).resolve_left (by decide))

/-! ## All fields -/

/-- An item: fields with commas between them. -/
def itemText (fields : List Field) : Text :=
  [.char ','].intercalate (fields.map Field.text)

theorem parse_fields (fields : List Field) :
    parse (fields.map Field.text) = .ok ((fields.filterMap Field.pair?).map ofPair) := by
  induction fields with
  | nil => rfl
  | cons f rest ih =>
    have hboth := parse_append f.parse_text ih
    rw [← List.map_append] at hboth
    rw [List.map_cons, ← List.singleton_append, hboth]
    cases h : f.pair? with
    | none => rw [List.filterMap_cons_none h, Option.toList_none, List.nil_append]
    | some p => rw [List.filterMap_cons_some h, Option.toList_some, List.singleton_append]

theorem parse_items (items : List (List Field)) :
    parse (items.map itemText) = .ok ((items.flatten.filterMap Field.pair?).map ofPair) := by
  induction items with
  | nil => rfl
  | cons fields rest ih =>
    have hitem : parse [itemText fields] = .ok ((fields.filterMap Field.pair?).map ofPair) := by
      rw [itemText, parse_intercalate, parse_fields]
    have hboth := parse_append hitem ih
    rw [← List.map_append, ← List.filterMap_append, ← List.flatten_cons] at hboth
    exact hboth

/-- Items are read as the one item that joins them with commas, with the same patches or the
same error, whether they are joined as texts or as bytes. Addresses and values that are
written with white space around them, in order, over any items and with any blank fields
among them, are read as the patches that store these values at these addresses. -/
theorem grouping_irrelevant :
    (∀ items : List Text, parse items = parse [[.char ','].intercalate items]) ∧
    (∀ strings : List (List UInt8), parse (strings.map Glyph.decodeAll) =
      parse [Glyph.decodeAll ([0x2c].intercalate strings)]) ∧
    ∀ (pairs : List (Cell × Cell)) (items : List (List Field)),
      items.flatten.filterMap Field.pair? = pairs →
      parse (items.map itemText) = .ok (pairs.map ofPair) := by
  refine ⟨fun items => (parse_intercalate items).symm, ?_, ?_⟩
  · intro strings
    rw [Glyph.decodeAll_intercalate, parse_intercalate]
  · rintro pairs items rfl
    exact parse_items items

/-- Three items, of which the second is empty, with blank fields, and with fixed and wide
spaces around the least cell and a tab before the greatest. -/
def scattered : List (List Field) :=
  [[.assignment (.tight 1) (.tight 12), .blank [.char ' '] (by decide)],
    [],
    [.blank [] Text.blank_nil,
      .assignment ⟨[.char '\u00a0'], -9223372036854775808, [.char '\u2003'], by decide, by decide⟩
        ⟨[.char '\t'], 9223372036854775807, [], by decide, Text.blank_nil⟩]]

theorem scattered_patches :
    scattered.flatten.filterMap Field.pair? =
      [(1, 12), (-9223372036854775808, 9223372036854775807)] ∧
    scattered.map itemText =
      [Text.ofString "1=12, ", [],
        Text.ofString ",\u00a0-9223372036854775808\u2003=\t9223372036854775807"] ∧
    parse (scattered.map itemText) =
      .ok [⟨1, 12⟩, ⟨-9223372036854775808, 9223372036854775807⟩] ∧
    parse [Text.ofString "1=12,x", Text.ofString "2"] = parse [Text.ofString "1=12,x,2"] := by
  have hpairs : scattered.flatten.filterMap Field.pair? =
      [(1, 12), (-9223372036854775808, 9223372036854775807)] := by
    decide
  obtain ⟨hjoin, -, hread⟩ := grouping_irrelevant
  exact ⟨hpairs, by decide +kernel, hread _ scattered hpairs, hjoin _⟩

end Patch

end CellMachine
