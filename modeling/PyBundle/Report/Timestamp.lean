/-!
# Timestamps

A point of time is counted in seconds from the start of 1970 in UTC, and in billionths of a second. It is
written as a date and a time of day.
-/

namespace PyBundle.Timestamp

/-- A number with zeros before it, up to some length. -/
def padded (length n : Nat) : String :=
  let text := toString n
  String.ofList (List.replicate (length - text.length) '0') ++ text

/-- **The date of a day,** counted from the start of 1970: year, month and day. The count is taken in eras
of 400 years, whose years start in March, so that a leap day is the last day of its year. -/
def dateOf (day : Nat) : Nat × Nat × Nat :=
  -- the first era starts on the first of March of the year 0
  let day := day + 719468
  let era := day / 146097
  let dayOfEra := day % 146097
  let yearOfEra := (dayOfEra - dayOfEra / 1460 + dayOfEra / 36524 - dayOfEra / 146096) / 365
  let dayOfYear := dayOfEra - (365 * yearOfEra + yearOfEra / 4 - yearOfEra / 100)
  let monthFromMarch := (5 * dayOfYear + 2) / 153
  let month := if monthFromMarch < 10 then monthFromMarch + 3 else monthFromMarch - 9
  let year := yearOfEra + era * 400 + (if month ≤ 2 then 1 else 0)
  (year, month, dayOfYear - (153 * monthFromMarch + 2) / 5 + 1)

/-- A fraction of a second in as few groups of three digits as it needs. -/
def fraction (nanoseconds : Nat) : String :=
  if nanoseconds == 0 then ""
  else if nanoseconds % 1000000 == 0 then "." ++ padded 3 (nanoseconds / 1000000)
  else if nanoseconds % 1000 == 0 then "." ++ padded 6 (nanoseconds / 1000)
  else "." ++ padded 9 nanoseconds

/-- **A point of time as it is written.** -/
def display (seconds nanoseconds : Nat) : String :=
  let (year, month, day) := dateOf (seconds / 86400)
  let time := seconds % 86400
  s!"{padded 4 year}-{padded 2 month}-{padded 2 day}" ++
    s!"T{padded 2 (time / 3600)}:{padded 2 (time / 60 % 60)}:{padded 2 (time % 60)}" ++
    s!"{fraction nanoseconds}+00:00"

end PyBundle.Timestamp
