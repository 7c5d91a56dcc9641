/-
# Dates

Dates of the Gregorian calendar, extended to all years; the year before year
one is year zero. Days are numbered from the first of January 1970. In both
directions the year is taken to begin with March, so that the day that leap
years add is the last of its year.

Key definitions: `Date`, `Date.IsValid`, `Date.dayNumber`,
`Date.ofDayNumber`, `Date.text`.
-/
import BenchLog.Number.Notation

namespace BenchLog

/-- A day of the calendar. -/
structure Date where
  year : Int
  month : Nat
  day : Nat
  deriving DecidableEq, Repr

namespace Date

/-- Whether a year has a day more than others. -/
def isLeapYear (year : Int) : Bool :=
  year % 4 == 0 && (year % 100 != 0 || year % 400 == 0)

/-- The number of days in a month. -/
def daysInMonth (year : Int) (month : Nat) : Nat :=
  if month = 2 then
    if isLeapYear year then 29 else 28
  else if month = 4 ∨ month = 6 ∨ month = 9 ∨ month = 11 then
    30
  else
    31

/-- The calendar has the month, and the month the day. -/
def IsValid (d : Date) : Prop :=
  1 ≤ d.month ∧ d.month ≤ 12 ∧ 1 ≤ d.day ∧ d.day ≤ daysInMonth d.year d.month

instance (d : Date) : Decidable d.IsValid :=
  inferInstanceAs (Decidable (_ ∧ _ ∧ _ ∧ _))

/-- The days from the first of March of year zero to the first of January 1970. -/
def epoch : Int := 719468

/-- The number of a day. -/
def dayNumber (d : Date) : Int :=
  let year := if d.month ≤ 2 then d.year - 1 else d.year
  let month := (d.month + 9) % 12
  365 * year + year / 4 - year / 100 + year / 400 + ((153 * month + 2) / 5 : Nat) +
    ((d.day : Int) - 1) - epoch

/-- The day of a number. -/
def ofDayNumber (n : Int) : Date :=
  let days := n + epoch
  let era := days / 146097
  let rest := (days % 146097).toNat
  let year := (rest - rest / 1460 + rest / 36524 - rest / 146096) / 365
  let day := rest - (365 * year + year / 4 - year / 100)
  let month := (5 * day + 2) / 153
  { year := era * 400 + year + if month < 10 then 0 else 1
    month := if month < 10 then month + 3 else month - 9
    day := day - (153 * month + 2) / 5 + 1 }

end Date

/-- A number with leading zeros up to a width. -/
def padded (width n : Nat) : List Char :=
  let digits := Number.natDigits n
  List.replicate (width - digits.length) '0' ++ digits

/-- A year in four digits, with a sign if four digits do not suffice. -/
def yearText (year : Int) : List Char :=
  if 0 ≤ year ∧ year ≤ 9999 then padded 4 year.toNat
  else (if year < 0 then '-' else '+') :: padded 4 year.natAbs

/-- A date as year, month and day. -/
def Date.text (d : Date) : List Char :=
  yearText d.year ++ '-' :: (padded 2 d.month ++ '-' :: padded 2 d.day)

end BenchLog
