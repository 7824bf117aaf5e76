import CellMachine.Calendar
import CellMachine.Number.Decimal

/-!
# Written dates and times

A date is `YYYY-MM-DD`, a time of day `HH:MM:SS` with a fraction of any length, of
which nine places count. The two together may be followed by an offset from
universal time.
-/

namespace CellMachine.Toml

/-- What is wrong with a date or a time of day. -/
inductive MomentFault where
  | dateFormat
  | digit
  | impossible
  | dateTimeFormat
  | separator
  | timeFormat
  | hour
  | minute
  | second
  | colonAfterHours
  | colonAfterMinutes
  | fractionStart
  | fraction
  | zoneFormat
  | zoneSign
  | zoneColon
  | zoneHours
  | zoneMinutes
  | zoneExtra
  | timeExtra
  | dateTimeExtra
deriving DecidableEq, Inhabited

/-- The wording of a fault. -/
def MomentFault.message : MomentFault → String
  | dateFormat => "dates are expected to have the format YYYY-MM-DD"
  | digit => "expected digit (0-9)"
  | impossible => "impossible date"
  | dateTimeFormat =>
    "local datetimes are expected to have the format YYYY-MM-DDTHH:MM:SS[.NNNNNNNNN]"
  | separator => "datetime separator is expected to be T or a space"
  | timeFormat => "times are expected to have the format HH:MM:SS[.NNNNNN]"
  | hour => "hour cannot be greater 23"
  | minute => "minutes cannot be greater 59"
  | second => "seconds cannot be greater 60"
  | colonAfterHours => "expecting colon between hours and minutes"
  | colonAfterMinutes => "expecting colon between minutes and seconds"
  | fractionStart => "need at least one digit after fraction point"
  | fraction => "nanoseconds need at least one digit"
  | zoneFormat => "invalid date-time timezone"
  | zoneSign => "invalid timezone offset character"
  | zoneColon => "expected a : separator"
  | zoneHours => "invalid timezone offset hours"
  | zoneMinutes => "invalid timezone offset minutes"
  | zoneExtra => "extra bytes at the end of the timezone"
  | timeExtra => "extra characters at the end of a local time"
  | dateTimeExtra => "extra characters at the end of a local date time"

/-- The number of some digits in a text. -/
def digitsAt (cs : List Char) (start length : Nat) : Except MomentFault Nat :=
  match digitsOf? 10 ((cs.drop start).take length) with
  | some n => .ok n
  | none => .error .digit

/-- Refuses a text unless a condition holds. -/
def demand (condition : Bool) (fault : MomentFault) : Except MomentFault Unit :=
  if condition then .ok () else .error fault

/-- A date. -/
def dateOf (cs : List Char) : Except MomentFault Date := do
  demand (cs.length == 10 && cs[4]? == some '-' && cs[7]? == some '-') .dateFormat
  let d : Date := ⟨← digitsAt cs 0 4, ← digitsAt cs 5 2, ← digitsAt cs 8 2⟩
  demand d.isValid .impossible
  return d

/-- A time of day as it is written, with the number of places of its fraction. -/
structure WrittenClock where
  clock : Clock
  places : Nat
deriving DecidableEq, Inhabited

/-- The written form of a time of day. -/
def WrittenClock.text (c : WrittenClock) : String :=
  c.clock.wholeText ++ c.clock.fractionText c.places

/-- The fraction of a second behind a clock, and the text behind it. -/
def fractionOf (clock : Clock) : List Char → Except MomentFault (WrittenClock × List Char)
  | '.' :: rest => do
    let digits := rest.takeWhile Char.isDigit
    demand (rest.isEmpty || !digits.isEmpty) .fractionStart
    demand (!digits.isEmpty) .fraction
    let kept := digits.take 9
    let nanosecond := (digitsOf? 10 (kept ++ List.replicate (9 - kept.length) '0')).getD 0
    return (⟨{ clock with nanosecond }, kept.length⟩, rest.drop digits.length)
  | rest => return (⟨clock, 0⟩, rest)

/-- A time of day at the front of a text, and the text behind it. -/
def clockOf (cs : List Char) : Except MomentFault (WrittenClock × List Char) := do
  demand (8 ≤ cs.length) .timeFormat
  let hour ← digitsAt cs 0 2
  demand (hour ≤ 23) .hour
  demand (cs[2]? == some ':') .colonAfterHours
  let minute ← digitsAt cs 3 2
  demand (minute ≤ 59) .minute
  demand (cs[5]? == some ':') .colonAfterMinutes
  let second ← digitsAt cs 6 2
  demand (second ≤ 60) .second
  fractionOf ⟨hour, minute, second, 0⟩ (cs.drop 8)

/-- A date with a time of day at the front of a text, and the text behind it. -/
def dateTimeOf (cs : List Char) : Except MomentFault (Date × WrittenClock × List Char) := do
  demand (11 ≤ cs.length) .dateTimeFormat
  let date ← dateOf (cs.take 10)
  demand ((cs[10]?).any fun c => c == 'T' || c == 't' || c == ' ') .separator
  let (clock, rest) ← clockOf (cs.drop 11)
  return (date, clock, rest)

/-- The offset of a zone in seconds, and the text behind it. -/
def offsetOf : List Char → Except MomentFault (Int × List Char)
  | [] => .error .zoneFormat
  | c :: rest =>
    if c = 'Z' ∨ c = 'z' then .ok (0, rest)
    else do
      demand (rest.length == 5) .zoneFormat
      demand (c == '-' || c == '+') .zoneSign
      demand (rest[2]? == some ':') .zoneColon
      let hours ← digitsAt rest 0 2
      demand (hours ≤ 23) .zoneHours
      let minutes ← digitsAt rest 3 2
      demand (minutes ≤ 59) .zoneMinutes
      let seconds : Int := hours * 3600 + minutes * 60
      return (if c = '-' then -seconds else seconds, [])

/-- The kinds of dates and times. -/
inductive MomentKind where
  | date
  | time
  | dateTime
  /-- A date with a time of day and an offset. -/
  | zoned
deriving DecidableEq, Inhabited

/-- The written form of a date or time of a kind. -/
def MomentKind.textOf (kind : MomentKind) (cs : List Char) : Except MomentFault String :=
  match kind with
  | .date => do return (← dateOf cs).text
  | .time => do
    let (clock, rest) ← clockOf cs
    demand rest.isEmpty .timeExtra
    return clock.text
  | .dateTime => do
    let (d, clock, rest) ← dateTimeOf cs
    demand rest.isEmpty .dateTimeExtra
    return d.text ++ "T" ++ clock.text
  | .zoned => do
    let (d, clock, rest) ← dateTimeOf cs
    let (offset, rest) ← offsetOf rest
    demand rest.isEmpty .zoneExtra
    return (Moment.settled ⟨d, clock.clock, offset⟩).text

end CellMachine.Toml
