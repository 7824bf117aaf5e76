import CellMachine.Unicode.Letter
import CellMachine.Unicode.Mark
import CellMachine.Unicode.Number
import CellMachine.Unicode.Digit
import CellMachine.Unicode.Punctuation
import CellMachine.Unicode.Symbol

/-!
# Classes of characters

Membership in the general categories, and the printable characters: letters,
marks, numbers, punctuation, symbols and the plain space.
-/

namespace CellMachine.Unicode

/-- Whether a code point lies in one of the ranges of a table. -/
def inTable (table : Array (Nat × Nat)) (n : Nat) : Bool :=
  table.any fun r => r.1 ≤ n && n ≤ r.2

/-- Letters. -/
def isLetter (c : Char) : Bool :=
  if c.toNat < 0x80 then c.isAlpha else inTable letters c.toNat

/-- Decimal digits. -/
def isDigit (c : Char) : Bool :=
  if c.toNat < 0x80 then c.isDigit else inTable digits c.toNat

/-- Punctuation. -/
def isPunctuation (c : Char) : Bool :=
  inTable punctuation c.toNat

/-- Symbols. -/
def isSymbol (c : Char) : Bool :=
  inTable symbols c.toNat

/-- Characters shown as themselves in a quoted text. -/
def isPrintable (c : Char) : Bool :=
  let n := c.toNat
  if n < 0x80 then 0x20 ≤ n && n < 0x7f
  else inTable letters n || inTable marks n || inTable digits n || inTable numbers n ||
    inTable punctuation n || inTable symbols n

end CellMachine.Unicode
