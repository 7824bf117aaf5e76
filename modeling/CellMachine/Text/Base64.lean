import CellMachine.Text.Glyph

/-!
# Base 64

Bytes written in base 64: four characters for three bytes, and equals signs in
place of the last one or two characters where bytes are missing. Line breaks do
not count.
-/

namespace CellMachine.Base64

/-- The number that a character stands for. -/
def digit? (c : Char) : Option Nat :=
  if c.isUpper then some (c.toNat - 'A'.toNat)
  else if c.isLower then some (c.toNat - 'a'.toNat + 26)
  else if c.isDigit then some (c.toNat - '0'.toNat + 52)
  else if c = '+' then some 62
  else if c = '/' then some 63
  else none

/-- The bytes of a text without line breaks. -/
def bytes? : List Char → Option (List UInt8)
  | [] => some []
  | [a, b, '=', '='] => do
    let n := 64 * (← digit? a) + (← digit? b)
    return [UInt8.ofNat (n / 16)]
  | [a, b, c, '='] => do
    let n := 4096 * (← digit? a) + 64 * (← digit? b) + (← digit? c)
    return [UInt8.ofNat (n / 1024), UInt8.ofNat (n / 4)]
  | a :: b :: c :: d :: rest => do
    let n := 262144 * (← digit? a) + 4096 * (← digit? b) + 64 * (← digit? c) + (← digit? d)
    return UInt8.ofNat (n / 65536) :: UInt8.ofNat (n / 256) :: UInt8.ofNat n :: (← bytes? rest)
  | _ => none

/-- The text whose bytes are written in base 64. -/
def decode? (s : String) : Option String :=
  (bytes? (s.toList.filter fun c => c != '\n' && c != '\r')).map fun bytes =>
    (show Text from Glyph.decodeAll bytes).toString

end CellMachine.Base64
