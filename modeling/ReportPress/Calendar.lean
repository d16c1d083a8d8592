/-!
# Dates

A moment is a number of seconds since the start of 1970 in universal time; it may be negative.

* `Date`, `dateOfDay` — the date of a day by the Gregorian calendar, extended to all years.  The
  count runs from the first of March of the year zero, so that a leap day ends a year, and in
  periods of 400 years, which all have the same number of days.
* `timestamp` — a moment as text.
-/

namespace ReportPress.Calendar

/-- A date of the Gregorian calendar. -/
structure Date where
  year : Int
  month : Nat
  day : Nat
deriving DecidableEq, Repr

/-- Days in 400 years. -/
def daysPerEra : Nat := 146097

/-- Days from the first of March of the year zero to the start of 1970. -/
def epochDay : Int := 719468

/-- The year within a period of 400 years, by the day in that period. -/
def yearOfEra (day : Nat) : Nat := (day - day / 1460 + day / 36524 - day / 146096) / 365

/-- The date of a day, counted from the start of 1970. -/
def dateOfDay (day : Int) : Date :=
  let fromMarch := day + epochDay
  let era := fromMarch.fdiv daysPerEra
  let dayOfEra := (fromMarch.fmod daysPerEra).toNat
  let year := yearOfEra dayOfEra
  let dayOfYear := dayOfEra - (365 * year + year / 4 - year / 100)
  let shifted := (5 * dayOfYear + 2) / 153
  let month := if shifted < 10 then shifted + 3 else shifted - 9
  { year := year + era * 400 + if month ≤ 2 then 1 else 0
    month
    day := dayOfYear - (153 * shifted + 2) / 5 + 1 }

/-- A number in at least `width` digits. -/
def padded (width n : Nat) : String :=
  let digits := Nat.toDigits 10 n
  String.ofList (List.replicate (width - digits.length) '0' ++ digits)

/-- A year in at least four digits, with a sign before the year zero and after 9999. -/
def yearText (year : Int) : String :=
  if year < 0 then "-" ++ padded 4 year.natAbs
  else if 9999 < year then "+" ++ padded 4 year.natAbs
  else padded 4 year.natAbs

/-- A moment as text in universal time. -/
def timestamp (seconds : Int) : String :=
  let date := dateOfDay (seconds.fdiv 86400)
  let second := (seconds.fmod 86400).toNat
  yearText date.year ++ "-" ++ padded 2 date.month ++ "-" ++ padded 2 date.day ++ "T" ++
    padded 2 (second / 3600) ++ ":" ++ padded 2 (second / 60 % 60) ++ ":" ++
    padded 2 (second % 60) ++ "Z"

end ReportPress.Calendar
