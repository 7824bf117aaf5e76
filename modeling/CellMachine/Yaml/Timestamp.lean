import CellMachine.Calendar

/-!
# Timestamps

The plain scalars that are dates: a year of four digits, a month and a day,
optionally followed by a time of day, which after a letter `T` has a zone and
after a blank has none. Where nothing else is said the time is midnight and the
zone universal time.
-/

namespace CellMachine.Yaml.Timestamp

/-- A number of one or two digits at the front of a text, and the rest. -/
def number? : List Char → Option (Nat × List Char)
  | a :: rest =>
    if a.isDigit then
      let x := a.toNat - '0'.toNat
      match rest with
      | b :: rest' =>
        if b.isDigit then some (10 * x + (b.toNat - '0'.toNat), rest') else some (x, rest)
      | [] => some (x, [])
    else none
  | [] => none

/-- A number of two digits at the front of a text, and the rest. -/
def pair? : List Char → Option (Nat × List Char)
  | a :: b :: rest => if a.isDigit && b.isDigit then number? (a :: b :: rest) else none
  | _ => none

/-- The text after a given character. -/
def after? (c : Char) : List Char → Option (List Char)
  | a :: rest => if a = c then some rest else none
  | [] => none

/-- The number that digits denote. -/
def numberOf (digits : List Char) : Nat :=
  digits.foldl (fun n c => 10 * n + (c.toNat - '0'.toNat)) 0

/-- A date at the front of a text, and the rest. -/
def date? (cs : List Char) : Option (Date × List Char) := do
  let year := cs.takeWhile Char.isDigit
  if year.length ≠ 4 then failure
  let cs ← after? '-' (cs.drop 4)
  let (month, cs) ← number? cs
  let cs ← after? '-' cs
  let (day, cs) ← number? cs
  let date : Date := ⟨numberOf year, month, day⟩
  if !date.isValid then failure
  return (date, cs)

/-- The nanoseconds of a fraction of a second, if there is one, and the rest.
Digits after the ninth do not count. -/
def fraction : List Char → Nat × List Char
  | p :: d :: rest =>
    if (p == '.' || p == ',') && d.isDigit then
      let digits := (d :: rest).takeWhile Char.isDigit
      let nine := (digits ++ List.replicate 9 '0').take 9
      (numberOf nine, (d :: rest).drop digits.length)
    else (0, p :: d :: rest)
  | cs => (0, cs)

/-- A time of day at the front of a text, and the rest. -/
def clock? (cs : List Char) : Option (Clock × List Char) := do
  let (hour, cs) ← number? cs
  if 24 ≤ hour then failure
  let cs ← after? ':' cs
  let (minute, cs) ← number? cs
  if 60 ≤ minute then failure
  let cs ← after? ':' cs
  let (second, cs) ← number? cs
  if 60 ≤ second then failure
  let (nanosecond, cs) := fraction cs
  return (⟨hour, minute, second, nanosecond⟩, cs)

/-- The offset of a zone in seconds: `Z`, or hours and minutes with a sign. -/
def zone? : List Char → Option Int
  | ['Z'] => some 0
  | sign :: cs => do
    let (hours, cs) ← pair? cs
    let cs ← after? ':' cs
    let (minutes, cs) ← pair? cs
    if !cs.isEmpty ∨ 24 < hours ∨ 60 < minutes then failure
    let offset : Int := (hours * 60 + minutes) * 60
    if sign = '+' then return offset
    else if sign = '-' then return -offset
    else failure
  | [] => none

/-- The moment that a text denotes. -/
def moment? (s : String) : Option Moment := do
  let (date, cs) ← date? s.toList
  match cs with
  | [] => return ⟨date, ⟨0, 0, 0, 0⟩, 0⟩
  | c :: cs =>
    if c = 'T' ∨ c = 't' then
      let (clock, cs) ← clock? cs
      return ⟨date, clock, ← zone? cs⟩
    else if c = ' ' then
      let (clock, cs) ← clock? (cs.dropWhile (· == ' '))
      if cs.isEmpty then return ⟨date, clock, 0⟩ else failure
    else failure

end CellMachine.Yaml.Timestamp
