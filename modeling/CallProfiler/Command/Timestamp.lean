import CallProfiler.Text.Column
import CallProfiler.Text.Numeral

/-!
# Timestamps

A moment in universal time as a date, a time of day with as many decimal places of the second as
are needed in steps of three, and a zero offset.
-/

namespace CallProfiler.Command

/-- Year, month and day of a number of days since the first of March of the year zero. -/
def civilDate (days : Nat) : Nat × Nat × Nat :=
  let era := days / 146097
  let dayOfEra := days % 146097
  let yearOfEra :=
    (dayOfEra - dayOfEra / 1460 + dayOfEra / 36524 - dayOfEra / 146096) / 365
  let dayOfYear := dayOfEra - (365 * yearOfEra + yearOfEra / 4 - yearOfEra / 100)
  let monthFromMarch := (5 * dayOfYear + 2) / 153
  let day := dayOfYear - (153 * monthFromMarch + 2) / 5 + 1
  let month := if monthFromMarch < 10 then monthFromMarch + 3 else monthFromMarch - 9
  let year := era * 400 + yearOfEra + (if month ≤ 2 then 1 else 0)
  (year, month, day)

/-- A number of at least `width` digits. -/
def zeroFilled (width value : Nat) : String :=
  let digits := Text.decimal value
  String.ofList (List.replicate (width - digits.length) '0' ++ digits)

/-- The decimal places of a second, with their point. -/
def secondFraction (nanoseconds : Nat) : String :=
  if nanoseconds = 0 then ""
  else if nanoseconds % 1000000 = 0 then "." ++ zeroFilled 3 (nanoseconds / 1000000)
  else if nanoseconds % 1000 = 0 then "." ++ zeroFilled 6 (nanoseconds / 1000)
  else "." ++ zeroFilled 9 nanoseconds

/-- The text of a moment, given as the time since the beginning of 1970. -/
def timestamp (seconds nanoseconds : Nat) : String :=
  let (year, month, day) := civilDate (seconds / 86400 + 719468)
  let date := s!"{zeroFilled 4 year}-{zeroFilled 2 month}-{zeroFilled 2 day}"
  let minute := seconds / 60
  let time :=
    s!"{zeroFilled 2 (minute / 60 % 24)}:{zeroFilled 2 (minute % 60)}:{zeroFilled 2 (seconds % 60)}"
  s!"{date}T{time}{secondFraction nanoseconds}+00:00"

example : timestamp 1714564799 500000000 = "2024-05-01T11:59:59.500+00:00" := by decide +kernel

end CallProfiler.Command
