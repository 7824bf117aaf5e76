import CellMachine.Number.Decimal
import CellMachine.Text.Quoted

/-!
# Quoted texts

Texts stand in double quotes, where a backslash starts an escape, or in single
quotes, where it does not. In three quotes a text can go on over several lines. Then
a line break right behind the first quotes is dropped, and one or two quotes can
stand right before the last three. A text is cut out first and looked at afterwards.
-/

namespace CellMachine.Toml

/-- The two kinds of text: with escapes, in double quotes, and without, in single
quotes. -/
inductive Quotes where
  | basic
  | literal
deriving DecidableEq, Inhabited

/-- The quote of a kind of text. -/
def Quotes.mark : Quotes → Char
  | basic => '"'
  | literal => '\''

/-- What is wrong with a text. -/
inductive TextFault where
  | newline (quotes : Quotes)
  | unterminated (quotes : Quotes)
  | longUnterminated (quotes : Quotes)
  /-- More than five quotes at the end of a text in three quotes. -/
  | tooManyQuotes (quotes : Quotes)
  | loneReturn
  /-- A backslash at the end. -/
  | nothingEscaped
  | escape (found : Char)
  /-- An escape with too few hexadecimal digits. -/
  | shortCode (wanted found : Nat)
  | nonHex
  | badCode
  /-- A control character in single quotes. -/
  | controlInLiteral
  /-- A control character in a text without escapes. -/
  | controlInPlain
  /-- A control character in a text with escapes. -/
  | controlInEscaped (found : Char)
deriving DecidableEq, Inhabited

/-- The number of a character, and the character itself if it can be shown. -/
def described (c : Char) : String :=
  "U+" ++ (Quoted.hex 4 c.toNat).toUpper ++
    if Unicode.isPrintable c then " '" ++ String.singleton c ++ "'" else ""

/-- The wording of a fault. -/
def TextFault.message : TextFault → String
  | newline .basic => "basic strings cannot have new lines"
  | newline .literal => "literal strings cannot have new lines"
  | unterminated .basic => "basic string not terminated by \""
  | unterminated .literal => "unterminated literal string"
  | longUnterminated .basic => "multiline basic string not terminated by \"\"\""
  | longUnterminated .literal => "multiline literal string not terminated by '''"
  | tooManyQuotes .basic => "\"\"\" not allowed in multiline basic string"
  | tooManyQuotes .literal => "''' not allowed in multiline literal string"
  | loneReturn => "need a \\n after \\r"
  | nothingEscaped => "need a character after \\"
  | escape found => "invalid escaped character " ++ described (Glyph.leadByte found)
  | shortCode wanted found =>
    "unicode point needs " ++ Nat.repr wanted ++ " character, not " ++ Nat.repr found
  | nonHex => "non-hex character"
  | badCode => "escape sequence is invalid Unicode code point"
  | controlInLiteral => "invalid character"
  | controlInPlain => "invalid UTF-8"
  | controlInEscaped found => "invalid character " ++ described found

/-- Control characters that no text can have as they are. -/
def isControl (c : Char) : Bool :=
  let n := c.toNat
  (n < 0x20 && n != 9 && n != 0xa && n != 0xd) || n == 0x7f

/-! ## Cutting out -/

/-- What a quoted text holds as it is written, whether it has escapes, and the text
behind it. -/
structure Cut where
  body : List Char
  escaped : Bool
  rest : List Char
deriving Inhabited

/-- The rest of a text in single quotes, with the characters before in reverse. -/
def cutLiteral : List Char → List Char → Except TextFault Cut
  | seen, '\'' :: rest => .ok ⟨seen.reverse, false, rest⟩
  | seen, c :: rest =>
    if c = '\n' ∨ c = '\r' then .error (.newline .literal)
    else if isControl c then .error .controlInLiteral
    else cutLiteral (c :: seen) rest
  | _, [] => .error (.unterminated .literal)

/-- The rest of a text in double quotes, with the characters before in reverse. -/
def cutBasic (escaped : Bool) : List Char → List Char → Except TextFault Cut
  | seen, '"' :: rest => .ok ⟨seen.reverse, escaped, rest⟩
  | _, ['\\'] => .error .nothingEscaped
  | seen, '\\' :: c :: rest => cutBasic true (c :: '\\' :: seen) rest
  | seen, c :: rest =>
    if c = '\n' ∨ c = '\r' then .error (.newline .basic) else cutBasic escaped (c :: seen) rest
  | _, [] => .error (.unterminated .basic)

/-- The end of a text in three quotes, behind them: one or two quotes more belong to
the text. -/
def cutEnd (quotes : Quotes) (escaped : Bool) (seen rest : List Char) : Except TextFault Cut :=
  let extra := (rest.takeWhile (· == quotes.mark)).length
  if 2 < extra then .error (.tooManyQuotes quotes)
  else .ok ⟨seen.reverse ++ List.replicate extra quotes.mark, escaped, rest.drop extra⟩

/-- The rest of a text in three quotes, with the characters before in reverse. -/
def cutLong (quotes : Quotes) :
    Nat → Bool → List Char → List Char → Except TextFault Cut
  | 0, _, _, _ => .error (.longUnterminated quotes)
  | _ + 1, _, _, [] => .error (.longUnterminated quotes)
  | fuel + 1, escaped, seen, c :: rest =>
    if c = quotes.mark ∧ rest.take 2 = [c, c] then cutEnd quotes escaped seen (rest.drop 2)
    else if c = '\r' then
      match rest with
      | '\n' :: rest => cutLong quotes fuel escaped ('\n' :: '\r' :: seen) rest
      | _ => .error .loneReturn
    else
      match quotes, c, rest with
      | .basic, '\\', [] => .error .nothingEscaped
      | .basic, '\\', x :: rest => cutLong quotes fuel true (x :: '\\' :: seen) rest
      | .literal, _, _ =>
        if isControl c then .error .controlInLiteral
        else cutLong quotes fuel escaped (c :: seen) rest
      | .basic, _, _ => cutLong quotes fuel escaped (c :: seen) rest

/-! ## Escapes -/

/-- The character of an escape, or the number of hexadecimal digits that give it. -/
def escaped? : Char → Option (Char ⊕ Nat)
  | 'b' => some (.inl (Char.ofNat 8))
  | 't' => some (.inl '\t')
  | 'n' => some (.inl '\n')
  | 'f' => some (.inl (Char.ofNat 12))
  | 'r' => some (.inl '\r')
  | 'e' => some (.inl (Char.ofNat 0x1b))
  | '"' => some (.inl '"')
  | '\\' => some (.inl '\\')
  | 'u' => some (.inr 4)
  | 'U' => some (.inr 8)
  | _ => none

/-- The character of a number of hexadecimal digits at the front of a text. -/
def coded (places : Nat) (cs : List Char) : Except TextFault Char :=
  let room := (String.ofList cs).utf8ByteSize
  if room < places then .error (.shortCode places room)
  else
    match digitsOf? 16 (cs.take places) with
    | none => .error .nonHex
    | some n => if n.isValidChar then .ok (Char.ofNat n) else .error .badCode

/-- Whether only blanks follow on the line. -/
def endsLine : List Char → Bool
  | ' ' :: rest | '\t' :: rest => endsLine rest
  | '\n' :: _ | '\r' :: '\n' :: _ => true
  | _ => false

/-- White space of several lines. -/
def isSpace (c : Char) : Bool :=
  c == ' ' || c == '\t' || c == '\n' || c == '\r'

/-- What a text with escapes stands for, with the characters before in reverse. In
three quotes, a backslash at the end of a line stands for nothing, together with the
white space up to the next word. Digits of an escape are looked for up to the quotes
`stop`. -/
def unescape (long : Bool) (stop : List Char) :
    Nat → List Char → List Char → Except TextFault String
  | 0, seen, _ => .ok (String.ofList seen.reverse)
  | _ + 1, seen, [] => .ok (String.ofList seen.reverse)
  | fuel + 1, seen, '\\' :: rest =>
    if long && endsLine rest then unescape long stop fuel seen (rest.dropWhile isSpace)
    else
      match rest with
      | [] => .error .nothingEscaped
      | c :: rest =>
        match escaped? c with
        | none => .error (.escape c)
        | some (.inl x) => unescape long stop fuel (x :: seen) rest
        | some (.inr places) => do
          let x ← coded places (rest ++ stop)
          unescape long stop fuel (x :: seen) (rest.drop places)
  | fuel + 1, seen, c :: rest =>
    if isControl c then .error (.controlInEscaped c) else unescape long stop fuel (c :: seen) rest

/-- What a text in double quotes stands for. -/
def basicText (long : Bool) (cut : Cut) : Except TextFault String :=
  if cut.escaped then
    unescape long (if long then ['"', '"', '"'] else []) (cut.body.length + 1) [] cut.body
  else if cut.body.any isControl then .error .controlInPlain
  else .ok (String.ofList cut.body)

/-! ## Texts -/

/-- A text without the line break at its front. -/
def dropBreak : List Char → List Char
  | '\n' :: rest | '\r' :: '\n' :: rest => rest
  | cs => cs

/-- A text in one quote at each end, behind the first one, and the text behind it. -/
def shortText (quotes : Quotes) (cs : List Char) : Except TextFault (String × List Char) :=
  match quotes with
  | .literal => do
    let cut ← cutLiteral [] cs
    return (String.ofList cut.body, cut.rest)
  | .basic => do
    let cut ← cutBasic false [] cs
    return (← basicText false cut, cut.rest)

/-- A text in three quotes at each end, behind the first three, and the text behind
it. -/
def longText (quotes : Quotes) (cs : List Char) : Except TextFault (String × List Char) := do
  let cut ← cutLong quotes (cs.length + 1) false [] cs
  let cut := { cut with body := dropBreak cut.body }
  match quotes with
  | .literal => return (String.ofList cut.body, cut.rest)
  | .basic => return (← basicText true cut, cut.rest)

/-- A text at its first quote, and the text behind it. -/
def quotedText (quotes : Quotes) (cs : List Char) : Except TextFault (String × List Char) :=
  if cs.take 3 = List.replicate 3 quotes.mark then longText quotes (cs.drop 3)
  else shortText quotes cs.tail

end CellMachine.Toml
