import CellMachine.Text.Glyph
import CellMachine.Unicode.Class

/-!
# Quoted forms

A quoted text stands between quotes, shows printable characters as themselves
and writes everything else as an escape, so that any two texts differ in their
quoted forms.
-/

namespace CellMachine.Quoted

/-- The lower-case hexadecimal digit of a number below sixteen. -/
def hexDigit (n : Nat) : Char :=
  if n < 10 then Char.ofNat (0x30 + n) else Char.ofNat (0x57 + n)

/-- The last `places` hexadecimal digits of a number. -/
def hex : Nat → Nat → String
  | 0, _ => ""
  | places + 1, n => (hex places (n / 16)).push (hexDigit (n % 16))

/-- A character inside quotes that are written `mark`. -/
def escape (mark c : Char) : String :=
  if c = mark ∨ c = '\\' then "\\".push c
  else if Unicode.isPrintable c then String.singleton c
  else match c.toNat with
    | 0x07 => "\\a"
    | 0x08 => "\\b"
    | 0x0c => "\\f"
    | 0x0a => "\\n"
    | 0x0d => "\\r"
    | 0x09 => "\\t"
    | 0x0b => "\\v"
    | n =>
      if n < 0x80 then "\\x" ++ hex 2 n
      else if n < 0x10000 then "\\u" ++ hex 4 n
      else "\\U" ++ hex 8 n

/-- A glyph inside double quotes. -/
def escapeGlyph : Glyph → String
  | .char c => escape '"' c
  | .stray b => "\\x" ++ hex 2 b.toNat

/-- A text in double quotes. -/
def quote (t : Text) : String :=
  (t.foldl (fun s g => s ++ escapeGlyph g) "\"").push '"'

/-- A string in double quotes. -/
def quoteString (s : String) : String :=
  quote (Text.ofString s)

/-- A character in single quotes. -/
def quoteChar (c : Char) : String :=
  ("'" ++ escape '\'' c).push '\''

end CellMachine.Quoted
