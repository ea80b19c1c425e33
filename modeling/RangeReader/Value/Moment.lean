/-!
# Points in time

A point in time is counted in microseconds from the beginning of 1970, and lies
in the years 1 to 9999. It is written as a date and a time of the day, in the
calendar of today also for the years before there was one, and without leap
seconds.

A date is found from its number of days by counting from the first of March: a
leap day is then the last day of its year, and the months that come before it
have a regular pattern of lengths.
-/

namespace RangeReader

/-- **A point in time**, in microseconds from the beginning of 1970. -/
structure Moment where
  /-- The number of microseconds. -/
  micros : Int
  first_le : -62135596800000000 ≤ micros
  lt_end : micros < 253402300800000000
  deriving DecidableEq, Repr

/-- A day of the calendar. -/
structure Date where
  /-- The year. -/
  year : Nat
  /-- The month, from one on. -/
  month : Nat
  /-- The day of the month, from one on. -/
  day : Nat
  deriving DecidableEq, Repr

/-- The day that is a number of days after the first of March of the year 0. -/
def Date.ofDays (days : Nat) : Date :=
  -- the calendar repeats itself every 400 years
  let d := days % 146097
  let year := (d - d / 1460 + d / 36524 - d / 146096) / 365
  let dayOfYear := d - (365 * year + year / 4 - year / 100)
  let march := (5 * dayOfYear + 2) / 153
  let month := if march < 10 then march + 3 else march - 9
  { year := 400 * (days / 146097) + year + if month ≤ 2 then 1 else 0
    month := month
    day := dayOfYear - (153 * march + 2) / 5 + 1 }

namespace Moment

/-- The day of a point in time. -/
def date (m : Moment) : Date := Date.ofDays (m.micros / 86400000000 + 719468).toNat

/-- The microseconds since the beginning of the day. -/
def ofDay (m : Moment) : Nat := (m.micros % 86400000000).toNat

/-- The hour. -/
def hour (m : Moment) : Nat := m.ofDay / 3600000000

/-- The minute of the hour. -/
def minute (m : Moment) : Nat := m.ofDay / 60000000 % 60

/-- The second of the minute. -/
def second (m : Moment) : Nat := m.ofDay / 1000000 % 60

/-- The microsecond of the second. -/
def microsecond (m : Moment) : Nat := m.ofDay % 1000000

/-- A number with zeros in front, to a width. -/
def padded (width n : Nat) : String :=
  let digits := toString n
  "".pushn '0' (width - digits.length) ++ digits

/-- **A point in time as it is shown in a message**: the call that makes it.
Seconds and microseconds are left out where only zeros follow. -/
def shown (m : Moment) : String :=
  let parts := [m.date.year, m.date.month, m.date.day, m.hour, m.minute]
    ++ if m.microsecond ≠ 0 then [m.second, m.microsecond]
      else if m.second ≠ 0 then [m.second] else []
  "datetime.datetime(" ++ ", ".intercalate (parts.map toString)
    ++ ", tzinfo=datetime.timezone.utc)"

/-- **A point in time as part of a text.** -/
def plain (m : Moment) : String :=
  padded 4 m.date.year ++ "-" ++ padded 2 m.date.month ++ "-" ++ padded 2 m.date.day ++ " "
    ++ padded 2 m.hour ++ ":" ++ padded 2 m.minute ++ ":" ++ padded 2 m.second
    ++ (if m.microsecond = 0 then "" else "." ++ padded 6 m.microsecond) ++ "+00:00"

/-- The leap day of a year that is a multiple of 400. -/
example : date ⟨951782400000000, by decide, by decide⟩ = ⟨2000, 2, 29⟩ := by decide

end Moment

end RangeReader
