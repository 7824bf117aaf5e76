/-!
# Text as glyphs

A source text arrives as bytes that need not be valid UTF-8. `Glyph.decodeAll`
splits every byte sequence into glyphs: an encoded character is one glyph, and
a byte that starts no valid encoding is a glyph of its own. Nothing is lost:
`Glyph.bytes` gives back the bytes a glyph was read from.
-/

namespace CellMachine

/-- A unit of text: a character, or a byte that belongs to no character. -/
inductive Glyph where
  | char (c : Char)
  | stray (byte : UInt8)
deriving DecidableEq, Inhabited

/-- A text, glyph by glyph. -/
abbrev Text := List Glyph

namespace Glyph

/-- The character that stands for a stray byte where only characters can be shown. -/
def replacement : Char := Char.ofNat 0xfffd

/-- The character shown for a glyph. -/
def shown : Glyph → Char
  | char c => c
  | stray _ => replacement

/-- The number of bytes a glyph takes. -/
def width : Glyph → Nat
  | char c => c.utf8Size
  | stray _ => 1

/-- The bytes a glyph is read from. -/
def bytes : Glyph → List UInt8
  | char c => String.utf8EncodeChar c
  | stray b => [b]

/-- The first byte of a character's encoding, taken for a character. -/
def leadByte (c : Char) : Char :=
  ((String.utf8EncodeChar c).head?.map fun b => Char.ofNat b.toNat).getD c

/-- Whether the glyph is the character `c`. -/
def is (g : Glyph) (c : Char) : Bool :=
  g == char c

/-! ## Decoding -/

/-- The payload of a continuation byte, or nothing for any other byte. -/
def continuation? (b : UInt8) : Option Nat :=
  if 0x80 ≤ b ∧ b < 0xc0 then some (b.toNat - 0x80) else none

/-- The character with code point `n`, if it is one and needs an encoding as
long as the one it was read from: `least` is the smallest such code point. -/
def scalar? (least n : Nat) : Option Char :=
  if least ≤ n ∧ n.isValidChar then some (Char.ofNat n) else none

/-- The character encoded at the front of a byte sequence, with the rest. -/
def lead? : List UInt8 → Option (Char × List UInt8)
  | [] => none
  | b :: rest =>
    if b < 0x80 then some (Char.ofNat b.toNat, rest)
    else if b < 0xc0 then none
    else if b < 0xe0 then
      match rest with
      | b₁ :: rest => do
        let x₁ ← continuation? b₁
        let c ← scalar? 0x80 ((b.toNat - 0xc0) * 0x40 + x₁)
        some (c, rest)
      | _ => none
    else if b < 0xf0 then
      match rest with
      | b₁ :: b₂ :: rest => do
        let x₁ ← continuation? b₁
        let x₂ ← continuation? b₂
        let c ← scalar? 0x800 (((b.toNat - 0xe0) * 0x40 + x₁) * 0x40 + x₂)
        some (c, rest)
      | _ => none
    else
      match rest with
      | b₁ :: b₂ :: b₃ :: rest => do
        let x₁ ← continuation? b₁
        let x₂ ← continuation? b₂
        let x₃ ← continuation? b₃
        let c ← scalar? 0x10000 ((((b.toNat - 0xf0) * 0x40 + x₁) * 0x40 + x₂) * 0x40 + x₃)
        some (c, rest)
      | _ => none

/-- Decoding with the glyphs already read, newest first. Each byte is the start
of at most one glyph, so the number of bytes bounds the number of glyphs. -/
def decodeFrom : Nat → List UInt8 → Text → Text
  | 0, _, seen => seen.reverse
  | _ + 1, [], seen => seen.reverse
  | fuel + 1, b :: rest, seen =>
    match lead? (b :: rest) with
    | some (c, rest) => decodeFrom fuel rest (char c :: seen)
    | none => decodeFrom fuel rest (stray b :: seen)

/-- The glyphs of a byte sequence. -/
def decodeAll (bytes : List UInt8) : Text :=
  decodeFrom bytes.length bytes []

end Glyph

namespace Text

/-- The glyphs of a string. -/
def ofString (s : String) : Text :=
  s.toList.map Glyph.char

/-- The glyphs of a file's content. -/
def ofByteArray (b : ByteArray) : Text :=
  match String.fromUTF8? b with
  | some s => ofString s
  | none => Glyph.decodeAll b.toList

/-- The text as a string, stray bytes replaced. -/
def toString (t : Text) : String :=
  String.ofList (t.map Glyph.shown)

/-- The bytes of a text. -/
def toBytes (t : Text) : ByteArray :=
  ⟨(t.flatMap Glyph.bytes).toArray⟩

/-- The parts of a text between the glyphs that satisfy `p`, with the current
part and the parts before it in reverse. -/
def splitFrom (p : Glyph → Bool) : Text → Text → List Text → List Text
  | [], part, parts => (part.reverse :: parts).reverse
  | g :: rest, part, parts =>
    if p g then splitFrom p rest [] (part.reverse :: parts)
    else splitFrom p rest (g :: part) parts

/-- The parts of a text between the glyphs that satisfy `p`: always at least one. -/
def split (p : Glyph → Bool) (t : Text) : List Text :=
  splitFrom p t [] []

end Text

end CellMachine
