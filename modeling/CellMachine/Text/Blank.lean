import CellMachine.Text.Glyph

/-!
# Blank characters

The characters with the Unicode property White_Space, and the two operations
that depend on them: trimming a text and splitting it into fields.
-/

namespace CellMachine

/-- Whether a character is white space. -/
def isBlank (c : Char) : Bool :=
  let n := c.toNat
  (0x9 ≤ n && n ≤ 0xd) || n == 0x20 || n == 0x85 || n == 0xa0 || n == 0x1680 ||
    (0x2000 ≤ n && n ≤ 0x200a) || n == 0x2028 || n == 0x2029 || n == 0x202f ||
    n == 0x205f || n == 0x3000

/-- Whether a glyph is white space. A stray byte is not. -/
def Glyph.isBlank : Glyph → Bool
  | char c => CellMachine.isBlank c
  | stray _ => false

namespace Text

/-- A text without the white space at its two ends. -/
def trim (t : Text) : Text :=
  ((t.dropWhile Glyph.isBlank).reverse.dropWhile Glyph.isBlank).reverse

/-- The longest parts of a text without white space. -/
def fields (t : Text) : List Text :=
  (t.split Glyph.isBlank).filter (· ≠ [])

end Text

/-- A string without the white space at its two ends. -/
def trimBlank (s : String) : String :=
  (Text.ofString s).trim.toString

end CellMachine
