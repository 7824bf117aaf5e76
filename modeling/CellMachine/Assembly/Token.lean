import CellMachine.Text.Quoted

/-!
# Tokens of assembly source

A source text is a sequence of words separated by white space, where a word is
a longest run of letters, digits, punctuation and symbols. Any other character
is a token by itself. Bytes that encode no character and the character NUL are
part of the text but draw a complaint.

A token is complete only once the glyph after it has been seen, so a complaint
about that glyph belongs to the token before it if there is nothing between
them.
-/

namespace CellMachine.Assembly

/-- A place in a source text. Lines and columns count from one and the offset,
in bytes, from zero. -/
structure Position where
  line : Nat
  column : Nat
  offset : Nat
deriving DecidableEq, Inhabited

namespace Position

/-- The place of the first glyph. -/
def start : Position :=
  ⟨1, 1, 0⟩

/-- The place after a glyph. -/
def after (p : Position) (g : Glyph) : Position :=
  if g.is '\n' then ⟨p.line + 1, 1, p.offset + g.width⟩
  else ⟨p.line, p.column + 1, p.offset + g.width⟩

/-- The place after a text. -/
def afterText (p : Position) (t : Text) : Position :=
  t.foldl after p

end Position

/-- What is wrong with a glyph of a source text. -/
inductive Complaint where
  | encoding
  | nul
deriving DecidableEq, Inhabited

/-- The complaint about a glyph. -/
def complaint? : Glyph → Option Complaint
  | .stray _ => some .encoding
  | .char c => if c.toNat = 0 then some .nul else none

/-- White space between tokens. -/
def isSpace (g : Glyph) : Bool :=
  g.is '\t' || g.is '\n' || g.is '\r' || g.is ' '

/-- The glyphs that make up words. A stray byte counts as the replacement
character, which is a symbol. -/
def isWordGlyph (g : Glyph) : Bool :=
  let c := g.shown
  Unicode.isLetter c || Unicode.isDigit c || Unicode.isPunctuation c || Unicode.isSymbol c

/-- A token: a word, or another character by itself. -/
structure Token where
  position : Position
  text : Text
  isWord : Bool
  complaints : List Complaint
deriving DecidableEq, Inhabited

/-- A source text cut into tokens, and the place where it ends. -/
structure Source where
  tokens : Array Token
  finish : Position
deriving Inhabited

namespace Source

/-- The glyphs of the token at the front of a text that starts with `g`. -/
def tokenText (g : Glyph) (rest : Text) : Text :=
  if isWordGlyph g then g :: rest.takeWhile isWordGlyph else [g]

/-- The complaints that belong to a token: about its first glyph unless that
has been seen with the token before, about its other glyphs, and about the
glyph after it. -/
def complaintsOf (adjacent : Bool) (text rest : Text) : List Complaint :=
  ((if adjacent then text.tail else text) ++ rest.take 1).filterMap complaint?

/-- Cuts a text into tokens. `adjacent` says that the text starts directly
behind a token. Every turn uses up at least one glyph, so the length of the
text is enough fuel. -/
def cut : Nat → Position → Bool → Text → Array Token → Source
  | 0, p, _, _, tokens => ⟨tokens, p⟩
  | _ + 1, p, _, [], tokens => ⟨tokens, p⟩
  | fuel + 1, p, adjacent, g :: rest, tokens =>
    if isSpace g then cut fuel (p.after g) false rest tokens
    else
      let text := tokenText g rest
      let rest := rest.drop (text.length - 1)
      let token := ⟨p, text, isWordGlyph g, complaintsOf adjacent text rest⟩
      cut fuel (p.afterText text) true rest (tokens.push token)

/-- The byte order mark, which is skipped at the very start of a text. -/
def isMark (g : Glyph) : Bool :=
  g.is (Char.ofNat 0xfeff)

/-- The tokens of a source text. -/
def ofText (t : Text) : Source :=
  match t with
  | [] => ⟨#[], .start⟩
  | g :: rest =>
    if isMark g then cut rest.length (Position.start.after g) false rest #[]
    else cut t.length .start false t #[]

end Source

end CellMachine.Assembly
