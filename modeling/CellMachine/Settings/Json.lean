import CellMachine.Settings.Value

/-!
# Configuration as an object

Reads a text of the JSON format as a table of settings. Numbers are of double
precision. The whole text has to be well-formed before any number is looked at.
-/

namespace CellMachine.JsonConfig

/-- A value as it is written. A number is its numeral. -/
inductive Written where
  | null
  | truth (b : Bool)
  | number (numeral : List Char)
  | text (s : String)
  | list (items : List Written)
  | table (members : List (String × Written))
deriving Inhabited

/-- What is wrong with a text. -/
inductive Error where
  | ends
  | unexpected (found : Char) (place : String)
  /-- An escape that stands for no character. -/
  | badEscape (found : Text)
  | tooDeep
  | notATable (kind : String)
  /-- A number beyond double precision, with the keys and indices that lead to it. -/
  | tooLarge (numeral : String) (path : List String)
deriving DecidableEq, Inhabited

/-- Whether a glyph of an escape can be shown as it is. -/
def isPlain (g : Glyph) : Bool :=
  !(g.shown == Glyph.replacement || g.isBlank || g.shown.toNat == 0x60) &&
    Unicode.isPrintable g.shown

/-- The wording of an error. -/
def Error.message : Error → String
  | ends => "unexpected end of JSON input"
  | unexpected found place => "invalid character " ++ Quoted.quoteChar found ++ " " ++ place
  | badEscape found =>
    "invalid escape sequence " ++
      (if found.all isPlain then "\x60" ++ found.toString ++ "\x60" else Quoted.quote found) ++
      " in string"
  | tooDeep => "exceeded max depth"
  | notATable kind =>
    "json: cannot unmarshal " ++ kind ++
      " into Go value of type map[string]interface \x7b\x7d"
  | tooLarge numeral path =>
    "json: cannot unmarshal number " ++ numeral ++ " into Go struct field ." ++
      ".".intercalate path ++ " of type float64"

/-- White space between tokens. -/
def isSpace (c : Char) : Bool :=
  c == ' ' || c == '\t' || c == '\n' || c == '\r'

/-- The number of the four hexadecimal digits of an escape behind its mark. -/
def unit? (cs : List Char) : Option Nat :=
  let digits := cs.take 4
  if digits.length = 4 then digitsOf? 16 digits else none

/-- The first bytes of a text. -/
def firstBytes (n : Nat) (cs : List Char) : Text :=
  Text.ofByteArray ((String.ofList (cs.take n)).toUTF8.extract 0 n)

/-- What is wrong with an escape `\u` that has no four digits: the text ends in it,
or it goes on with something else. -/
def unitError (cs : List Char) : Error :=
  if cs.all fun c => (digitOf? 16 c).isSome then .ends
  else .badEscape (firstBytes 6 ('\\' :: 'u' :: cs))

/-- The character for a code unit, joined with the one after it if the two make
a pair. -/
def character (n : Nat) (cs : List Char) : Char × List Char :=
  if 0xd800 ≤ n ∧ n < 0xdc00 then
    match cs with
    | '\\' :: 'u' :: rest =>
      match unit? rest with
      | some m =>
        if 0xdc00 ≤ m ∧ m < 0xe000 then
          (Char.ofNat (0x10000 + (n - 0xd800) * 0x400 + (m - 0xdc00)), rest.drop 4)
        else (Glyph.replacement, cs)
      | none => (Glyph.replacement, cs)
    | _ => (Glyph.replacement, cs)
  else if 0xdc00 ≤ n ∧ n < 0xe000 then (Glyph.replacement, cs)
  else (Char.ofNat n, cs)

/-- The character of an escape of one letter. -/
def escaped? : Char → Option Char
  | '"' => some '"'
  | '\\' => some '\\'
  | '/' => some '/'
  | 'b' => some (Char.ofNat 8)
  | 'f' => some (Char.ofNat 12)
  | 'n' => some '\n'
  | 'r' => some '\r'
  | 't' => some '\t'
  | _ => none

/-- The character of an escape behind its backslash, and the text after it. -/
def escape : List Char → Except Error (Char × List Char)
  | [] => .error .ends
  | 'u' :: rest =>
    match unit? rest with
    | some n => .ok (character n (rest.drop 4))
    | none => .error (unitError rest)
  | c :: rest =>
    match escaped? c with
    | some x => .ok (x, rest)
    | none => .error (.badEscape (firstBytes 2 ['\\', c]))

/-- The rest of a text in quotes, with the characters before it in reverse. -/
def textFrom : Nat → List Char → List Char → Except Error (String × List Char)
  | 0, _, _ => .error .ends
  | _ + 1, [], _ => .error .ends
  | fuel + 1, c :: rest, seen =>
    if c = '"' then .ok (String.ofList seen.reverse, rest)
    else if c.toNat < 0x20 then .error (.unexpected c "in string")
    else if c = '\\' then
      match escape rest with
      | .ok (x, rest) => textFrom fuel rest (x :: seen)
      | .error e => .error e
    else textFrom fuel rest (c :: seen)

/-- The text after a word whose first letter has been read. -/
def wordRest (word : String) (value : Written) :
    List Char → List Char → Except Error (Written × List Char)
  | [], cs => .ok (value, cs)
  | _ :: _, [] => .error .ends
  | w :: ws, c :: rest =>
    if w = c then wordRest word value ws rest
    else .error (.unexpected c
      ("in literal " ++ word ++ " (expecting " ++ Quoted.quoteChar w ++ ")"))

/-- Digits, of which there must be one. -/
def someDigits (cs : List Char) : Except Error (List Char × List Char) :=
  match cs with
  | [] => .error .ends
  | c :: _ =>
    if c.isDigit then
      let ds := cs.takeWhile Char.isDigit
      .ok (ds, cs.drop ds.length)
    else .error (.unexpected c "in numeric literal")

/-- The whole part of a number: zero, or digits of which the first is another. -/
def whole : List Char → Except Error (List Char × List Char)
  | '0' :: rest => .ok (['0'], rest)
  | cs => someDigits cs

/-- The fraction of a number with its point. -/
def fraction : List Char → Except Error (List Char × List Char)
  | '.' :: rest => (someDigits rest).map fun (ds, rest) => ('.' :: ds, rest)
  | cs => .ok ([], cs)

/-- The exponent of a number with its mark. -/
def exponent : List Char → Except Error (List Char × List Char)
  | e :: rest =>
    if e = 'e' ∨ e = 'E' then
      let sign := (rest.take 1).filter fun c => c == '-' || c == '+'
      (someDigits (rest.drop sign.length)).map fun (ds, rest) => (e :: (sign ++ ds), rest)
    else .ok ([], e :: rest)
  | [] => .ok ([], [])

/-- A number. -/
def number (cs : List Char) : Except Error (Written × List Char) := do
  let sign := (cs.take 1).filter (· == '-')
  let (ds, rest) ← whole (cs.drop sign.length)
  let (part, rest) ← fraction rest
  let (e, rest) ← exponent rest
  return (.number (sign ++ ds ++ part ++ e), rest)

/-- The greatest number of lists and tables around a value. -/
def greatestDepth : Nat := 10000

mutual

/-- The value at the front of a text inside of `depth` lists and tables, and the text
after it. -/
def value : Nat → Nat → List Char → Except Error (Written × List Char)
  | 0, _, _ => .error .ends
  | fuel + 1, depth, cs =>
    match cs.dropWhile isSpace with
    | [] => .error .ends
    | c :: rest =>
      if c = '"' then (textFrom (rest.length + 1) rest []).map fun (s, rest) => (.text s, rest)
      else if c.toNat = 0x7b then
        if depth < greatestDepth then members fuel (depth + 1) true rest [] else .error .tooDeep
      else if c = '[' then
        if depth < greatestDepth then elements fuel (depth + 1) true rest [] else .error .tooDeep
      else if c = 't' then wordRest "true" (.truth true) ['r', 'u', 'e'] rest
      else if c = 'f' then wordRest "false" (.truth false) ['a', 'l', 's', 'e'] rest
      else if c = 'n' then wordRest "null" .null ['u', 'l', 'l'] rest
      else if c = '-' || c.isDigit then number (c :: rest)
      else .error (.unexpected c "looking for beginning of value")

/-- The rest of a list, with the items before it in reverse. -/
def elements : Nat → Nat → Bool → List Char → List Written → Except Error (Written × List Char)
  | 0, _, _, _, _ => .error .ends
  | fuel + 1, depth, first, cs, seen =>
    match first, cs.dropWhile isSpace with
    | true, ']' :: rest => .ok (.list [], rest)
    | _, cs =>
      match value fuel depth cs with
      | .error e => .error e
      | .ok (v, rest) =>
        match rest.dropWhile isSpace with
        | [] => .error .ends
        | ',' :: rest => elements fuel depth false rest (v :: seen)
        | ']' :: rest => .ok (.list (v :: seen).reverse, rest)
        | c :: _ => .error (.unexpected c "after array element")

/-- The rest of a table, with the members before it in reverse. -/
def members : Nat → Nat → Bool → List Char → List (String × Written) →
    Except Error (Written × List Char)
  | 0, _, _, _, _ => .error .ends
  | fuel + 1, depth, first, cs, seen =>
    match cs.dropWhile isSpace with
    | [] => .error .ends
    | c :: rest =>
      if first && c.toNat = 0x7d then .ok (.table [], rest)
      else if c = '"' then
        match textFrom (rest.length + 1) rest [] with
        | .error e => .error e
        | .ok (key, rest) =>
          match rest.dropWhile isSpace with
          | [] => .error .ends
          | ':' :: rest =>
            match value fuel depth rest with
            | .error e => .error e
            | .ok (v, rest) =>
              match rest.dropWhile isSpace with
              | [] => .error .ends
              | c :: rest =>
                if c = ',' then members fuel depth false rest ((key, v) :: seen)
                else if c.toNat = 0x7d then .ok (.table ((key, v) :: seen).reverse, rest)
                else .error (.unexpected c "after object key:value pair")
          | c :: _ => .error (.unexpected c "after object key")
      else .error (.unexpected c "looking for beginning of object key string")

end

mutual

/-- A value of a setting, from one at the end of a path. -/
def settled (path : List String) : Written → Except Error ConfigValue
  | .null => .ok .null
  | .truth b => .ok (.truth b)
  | .number numeral =>
    match (Decimal.ofText? numeral).bind Double.ofDecimal? with
    | some d => .ok (.double d)
    | none => .error (.tooLarge (String.ofList numeral) path)
  | .text s => .ok (.text s)
  | .list items => (settledItems path 0 items).map .list
  | .table members => (settledMembers path members).map .table

/-- Items of a list from an index on. -/
def settledItems (path : List String) (index : Nat) :
    List Written → Except Error (List ConfigValue)
  | [] => .ok []
  | v :: rest => do
    let v ← settled (path ++ [Numeral.write index]) v
    return v :: (← settledItems path (index + 1) rest)

/-- Members of a table. -/
def settledMembers (path : List String) :
    List (String × Written) → Except Error (List (String × ConfigValue))
  | [] => .ok []
  | (key, v) :: rest => do
    let v ← settled (path ++ [key]) v
    return (key, v) :: (← settledMembers path rest)

end

/-- The word for the kind of a value. -/
def kindOf : Written → String
  | .list _ => "array"
  | .text _ => "string"
  | .truth _ => "bool"
  | _ => "number"

/-- Members with each name once: the last one counts. -/
def lastOfEach (members : List (String × ConfigValue)) : List (String × ConfigValue) :=
  members.foldl (fun seen m => seen.filter (·.1 != m.1) ++ [m]) []

/-- The table that a text describes. -/
def read (s : String) : Except Error (List (String × ConfigValue)) :=
  let cs := s.toList
  match value (2 * cs.length + 2) 0 cs with
  | .error e => .error e
  | .ok (v, rest) =>
    match rest.dropWhile isSpace with
    | c :: _ => .error (.unexpected c "after top-level value")
    | [] =>
      match v with
      | .table members => (settledMembers [] members).map lastOfEach
      | .null => .ok []
      | v => .error (.notATable (kindOf v))

end CellMachine.JsonConfig
