/-
# Moments

A moment is a second of a day. A minute may have a leap second, number 60; it
belongs to the second before it, so that the moments of a day still have the
numbers up to 86399. The seconds between two moments count a leap second only
for the moment that is later in its day.

Key definitions: `Moment`, `Moment.IsValid`, `Moment.secondsSince`,
`Moment.text`.
Key theorems: `Moment.secondsSince_of_second_lt`.
-/
import BenchLog.Calendar.Date

namespace BenchLog

/-- A second of a day. -/
structure Moment where
  date : Date
  hour : Nat
  minute : Nat
  second : Nat
  deriving DecidableEq, Repr

namespace Moment

/-- Date and time of day exist; any minute may have a leap second. -/
def IsValid (m : Moment) : Prop :=
  m.date.IsValid ∧ m.hour ≤ 23 ∧ m.minute ≤ 59 ∧ m.second ≤ 60

instance (m : Moment) : Decidable m.IsValid :=
  inferInstanceAs (Decidable (_ ∧ _ ∧ _ ∧ _))

/-- One for a leap second, zero otherwise. -/
def leap (m : Moment) : Nat := m.second - 59

/-- The number of the second in its day. -/
def tick (m : Moment) : Nat := m.hour * 3600 + m.minute * 60 + (m.second - m.leap)

/-- The seconds from the other moment to this one. -/
def secondsSince (m other : Moment) : Int :=
  let leap : Int :=
    if other.tick < m.tick then m.leap
    else if m.tick < other.tick then -other.leap
    else m.leap - other.leap
  (m.date.dayNumber - other.date.dayNumber) * 86400 + (m.tick - other.tick) + leap

/-- The seconds from the first second of 1970 to this one, leap seconds apart. -/
def number (m : Moment) : Int :=
  m.date.dayNumber * 86400 + m.tick

/-- Without leap seconds, the seconds between moments are the difference of
their numbers. -/
theorem secondsSince_of_second_lt {m other : Moment} (h : m.second < 60)
    (ho : other.second < 60) : m.secondsSince other = m.number - other.number := by
  have h1 : m.leap = 0 := by simp only [leap]; omega
  have h2 : other.leap = 0 := by simp only [leap]; omega
  simp only [secondsSince, number, h1, h2]
  repeat' split
  all_goals omega

/-- A moment as date and time of day. -/
def text (m : Moment) : List Char :=
  m.date.text ++ 'T' :: (padded 2 m.hour ++ ':' :: (padded 2 m.minute ++ ':' :: padded 2 m.second))

end Moment
end BenchLog
