import FileProfile.Number.Numeral

/-!
Times as milliseconds since 1970 in UTC, and their calendar form.
-/

namespace FileProfile

namespace Timestamp

/-- A calendar date of the proleptic Gregorian calendar. -/
structure Date where
  year : Int
  month : Nat
  day : Nat
deriving DecidableEq, Repr

/-- Days are counted in eras of 400 years that begin on a first of March, so a leap day is the last
of its year. -/
def dateOfDays (days : Int) : Date :=
  let shifted := days + 719468
  let era := shifted / 146097
  let dayOfEra := (shifted % 146097).toNat
  let yearOfEra := (dayOfEra - dayOfEra / 1460 + dayOfEra / 36524 - dayOfEra / 146096) / 365
  let dayOfYear := dayOfEra - (365 * yearOfEra + yearOfEra / 4 - yearOfEra / 100)
  let month := (5 * dayOfYear + 2) / 153
  { year := (yearOfEra : Int) + era * 400 + (if month < 10 then 0 else 1)
    month := if month < 10 then month + 3 else month - 9
    day := dayOfYear - (153 * month + 2) / 5 + 1 }

/-- The days from 1970 to the first of a month, months being counted from the year 0 on. -/
def daysOfMonth (months : Nat) : Int :=
  let fromMarch := (months + 10) % 12
  let year := (months + 10) / 12 - 1
  let yearOfEra := year % 400
  let dayOfEra := yearOfEra * 365 + yearOfEra / 4 - yearOfEra / 100 + (153 * fromMarch + 2) / 5
  ((year / 400 * 146097 + dayOfEra : Nat) : Int) - 719468

/-- Four digits, or a sign and six digits outside the years 0 to 9999. -/
def yearText (year : Int) : Text :=
  if 0 ≤ year ∧ year ≤ 9999 then Numeral.padded 4 year.natAbs
  else (if year < 0 then "-" else "+") ++ Numeral.padded 6 year.natAbs

/-- The greatest distance from 1970 that has a calendar form. -/
def limit : Nat := 8640000000000000

/-- The calendar form of a time to the millisecond, where it has one. -/
def text? (time : Int) : Option Text :=
  if limit < time.natAbs then none
  else
    let date := dateOfDays (time / 86400000)
    let ms := (time % 86400000).toNat
    some (yearText date.year ++ "-" ++ Numeral.padded 2 date.month ++ "-"
      ++ Numeral.padded 2 date.day ++ "T" ++ Numeral.padded 2 (ms / 3600000) ++ ":"
      ++ Numeral.padded 2 (ms / 60000 % 60) ++ ":" ++ Numeral.padded 2 (ms / 1000 % 60) ++ "."
      ++ Numeral.padded 3 (ms % 1000) ++ "Z")

def weekdayNames : List Text := ["Sun", "Mon", "Tue", "Wed", "Thu", "Fri", "Sat"]

def monthNames : List Text :=
  ["Jan", "Feb", "Mar", "Apr", "May", "Jun", "Jul", "Aug", "Sep", "Oct", "Nov", "Dec"]

/-- A time in words, to the second. -/
def longText (time : Int) : Text :=
  let days := time / 86400000
  let date := dateOfDays days
  let seconds := (time % 86400000).toNat / 1000
  Text.join " " [weekdayNames[((days + 4) % 7).toNat]?.getD [],
      monthNames[date.month - 1]?.getD [], Numeral.padded 2 date.day,
      Numeral.padded 4 date.year.natAbs,
      Numeral.padded 2 (seconds / 3600) ++ ":" ++ Numeral.padded 2 (seconds / 60 % 60) ++ ":"
        ++ Numeral.padded 2 (seconds % 60),
      "GMT+0000 (Coordinated Universal Time)"]

example : daysOfMonth (1970 * 12) = 0 ∧ daysOfMonth (2024 * 12 + 2) = 19783 := by decide
example : text? 1700000002000 = some "2023-11-14T22:13:22.000Z" := by decide
example : text? (-1) = some "1969-12-31T23:59:59.999Z" := by decide
example : text? 8640000000000000 = some "+275760-09-13T00:00:00.000Z" := by decide

end Timestamp

end FileProfile
