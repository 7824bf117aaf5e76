import CellMachine.Text.Numeral

/-!
# Dates and times of day

A date of the Gregorian calendar, a time of day with a fraction of a second, and
the two together with an offset from universal time, each with its written form.
-/

namespace CellMachine

/-- A date. -/
structure Date where
  year : Nat
  month : Nat
  day : Nat
deriving DecidableEq, Inhabited

/-- A time of day. -/
structure Clock where
  hour : Nat
  minute : Nat
  second : Nat
  nanosecond : Nat
deriving DecidableEq, Inhabited

/-- A date and a time of day where clocks are `offset` seconds ahead of universal
time. -/
structure Moment where
  date : Date
  clock : Clock
  offset : Int
deriving DecidableEq, Inhabited

/-- A number with zeros before it up to a number of places. -/
def padded (places n : Nat) : String :=
  let cs := Nat.toDigits 10 n
  String.ofList (List.replicate (places - cs.length) '0' ++ cs)

namespace Date

/-- Whether a year has 366 days. -/
def isLeap (year : Nat) : Bool :=
  year % 4 == 0 && (year % 100 != 0 || year % 400 == 0)

/-- The number of days of a month. -/
def daysIn (year month : Nat) : Nat :=
  if month = 2 then if isLeap year then 29 else 28
  else if month = 4 ∨ month = 6 ∨ month = 9 ∨ month = 11 then 30 else 31

/-- Whether the calendar has the date. -/
def isValid (d : Date) : Bool :=
  1 ≤ d.month && d.month ≤ 12 && 1 ≤ d.day && d.day ≤ daysIn d.year d.month

/-- The day after. -/
def next (d : Date) : Date :=
  if d.day < daysIn d.year d.month then { d with day := d.day + 1 }
  else if d.month < 12 then ⟨d.year, d.month + 1, 1⟩
  else ⟨d.year + 1, 1, 1⟩

/-- The written form of a date. -/
def text (d : Date) : String :=
  padded 4 d.year ++ "-" ++ padded 2 d.month ++ "-" ++ padded 2 d.day

end Date

namespace Clock

/-- The written form of a time of day without the fraction of its second. -/
def wholeText (c : Clock) : String :=
  padded 2 c.hour ++ ":" ++ padded 2 c.minute ++ ":" ++ padded 2 c.second

/-- The fraction of the second with its point and a number of places. -/
def fractionText (c : Clock) (places : Nat) : String :=
  if places = 0 then "" else "." ++ ((padded 9 c.nanosecond).take places).toString

/-- The number of places that show the fraction of the second. -/
def places (c : Clock) : Nat :=
  ((padded 9 c.nanosecond).toList.reverse.dropWhile (· == '0')).length

/-- The written form of a time of day. -/
def text (c : Clock) : String :=
  c.wholeText ++ c.fractionText c.places

end Clock

namespace Moment

/-- The moment told without a sixtieth second. -/
def settled (m : Moment) : Moment :=
  if m.clock.second < 60 then m
  else
    let c : Clock := { m.clock with second := 0, minute := m.clock.minute + 1 }
    if c.minute < 60 then { m with clock := c }
    else
      let c : Clock := { c with minute := 0, hour := c.hour + 1 }
      if c.hour < 24 then { m with clock := c }
      else { m with clock := { c with hour := 0 }, date := m.date.next }

/-- The written form of an offset: a sign, hours and minutes. -/
def offsetText (offset : Int) : String :=
  let minutes := offset.natAbs / 60
  (if offset < 0 then "-" else "+") ++ padded 2 (minutes / 60) ++ padded 2 (minutes % 60)

/-- The written form of a moment, with the name of its zone behind the offset: of
zones only universal time has one. -/
def text (m : Moment) : String :=
  let zone := if m.offset = 0 then "UTC" else offsetText m.offset
  m.date.text ++ " " ++ m.clock.text ++ " " ++ offsetText m.offset ++ " " ++ zone

end Moment

end CellMachine
