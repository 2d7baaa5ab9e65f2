/-!
# Dates and times

Days of the proleptic Gregorian calendar in the years 1 to 9999, and times of day to the microsecond
with an optional offset from universal time. A value exists only for a day that exists.
-/

namespace ApiBindings

/-- A day of the calendar. -/
structure Date where
  year : Nat
  month : Nat
  day : Nat
  deriving DecidableEq, Repr

/-- A time of day with its day; the offset from universal time is in minutes. -/
structure Instant where
  date : Date
  hour : Nat
  minute : Nat
  second : Nat
  microsecond : Nat
  offset : Option Int
  deriving DecidableEq, Repr

namespace Date

/-- Whether a year has a 29th of February. -/
def isLeap (year : Nat) : Bool :=
  year % 4 = 0 && (year % 100 ≠ 0 || year % 400 = 0)

/-- The number of days of a month, none for a month that does not exist. -/
def daysIn (year month : Nat) : Nat :=
  match month with
  | 2 => if isLeap year then 29 else 28
  | 4 | 6 | 9 | 11 => 30
  | 1 | 3 | 5 | 7 | 8 | 10 | 12 => 31
  | _ => 0

/-- Whether the calendar has the day. -/
def isValid (date : Date) : Bool :=
  1 ≤ date.year && date.year ≤ 9999 && 1 ≤ date.day && date.day ≤ daysIn date.year date.month

/-- The day with these numbers, if there is one. -/
def of? (year month day : Nat) : Option Date :=
  let date : Date := ⟨year, month, day⟩
  if date.isValid then some date else none

/-- The number of days before the first day of a year. -/
def daysBeforeYear (year : Nat) : Nat :=
  let past := year - 1
  past * 365 + past / 4 - past / 100 + past / 400

/-- The number of days before the first day of a month in its year. -/
def daysBeforeMonth (year month : Nat) : Nat :=
  (List.range (month - 1)).foldl (fun days past => days + daysIn year (past + 1)) 0

/-- The number of a day, counted from the first day of the year 1. -/
def ordinal (date : Date) : Nat :=
  daysBeforeYear date.year + daysBeforeMonth date.year date.month + date.day

end Date

/-- A number in decimal, with zeros in front up to a width. -/
def padded (width n : Nat) : String :=
  let digits := Nat.toDigits 10 n
  .ofList (List.replicate (width - digits.length) '0' ++ digits)

namespace Date

/-- The day as year, month and day, joined by hyphens. -/
def text (date : Date) : String :=
  s!"{padded 4 date.year}-{padded 2 date.month}-{padded 2 date.day}"

/-- The day as a message shows it. -/
def shown (date : Date) : String :=
  s!"datetime.date({date.year}, {date.month}, {date.day})"

end Date

namespace Instant

/-- Whether the clock and the calendar have the time; an offset is less than a day. -/
def isValid (time : Instant) : Bool :=
  time.date.isValid && time.hour < 24 && time.minute < 60 && time.second < 60
    && time.microsecond < 1000000 && time.offset.all (·.natAbs < 1440)

/-- Microseconds since the start of the calendar, in universal time if the offset is known. -/
def position (time : Instant) : Int :=
  let minutes : Int := (time.date.ordinal * 24 + time.hour) * 60 + time.minute
  ((minutes - time.offset.getD 0) * 60 + time.second) * 1000000 + time.microsecond

/-- An offset as sign, hours and minutes. -/
def offsetText (minutes : Int) : String :=
  let sign := if minutes < 0 then "-" else "+"
  s!"{sign}{padded 2 (minutes.natAbs / 60)}:{padded 2 (minutes.natAbs % 60)}"

/-- The time as day, clock and offset; the fraction of a second is left out when it is zero. -/
def text (time : Instant) : String :=
  let fraction := if time.microsecond = 0 then "" else "." ++ padded 6 time.microsecond
  let clock := s!"{padded 2 time.hour}:{padded 2 time.minute}:{padded 2 time.second}"
  let zone := (time.offset.map offsetText).getD ""
  s!"{time.date.text} {clock}{fraction}{zone}"

/-- An offset as a message shows it: whole days counted down, the rest in seconds counted up. -/
def offsetShown (minutes : Int) : String :=
  if minutes = 0 then "datetime.timezone.utc"
  else if minutes < 0 then
    s!"datetime.timezone(datetime.timedelta(days=-1, seconds={(minutes + 1440) * 60}))"
  else s!"datetime.timezone(datetime.timedelta(seconds={minutes * 60}))"

/-- The time as a message shows it; seconds and microseconds are left out from the end while they are
zero. -/
def shown (time : Instant) : String :=
  let seconds :=
    if time.microsecond ≠ 0 then s!", {time.second}, {time.microsecond}"
    else if time.second ≠ 0 then s!", {time.second}"
    else ""
  let zone := (time.offset.map fun minutes => ", tzinfo=" ++ offsetShown minutes).getD ""
  let day := s!"{time.date.year}, {time.date.month}, {time.date.day}"
  s!"datetime.datetime({day}, {time.hour}, {time.minute}{seconds}{zone})"

end Instant

end ApiBindings
