/-
# Instants

An instant is a second since the beginning of 1970 and a part of it in
nanoseconds. A leap second is the second half of a double second: its
nanoseconds are counted on beyond the second that precedes it.

Key definitions: `Instant`, `Instant.text`, `Instant.count`, `Instant.ofCount`.
-/
import BenchLog.Calendar.Moment
import BenchLog.Table.Kind

namespace BenchLog

/-- A point of time in nanoseconds. -/
structure Instant where
  seconds : Int
  /-- Below a thousand million, or below twice as much in a leap second. -/
  nanos : Nat
  deriving DecidableEq, Repr

/-- A thousand million. -/
def billion : Nat := 1000000000

/-- The decimal places of a fraction of a second: none, or three, six or nine,
as few as show it whole. -/
def fractionText (nanos : Nat) : List Char :=
  if nanos = 0 then []
  else if nanos % 1000000 = 0 then '.' :: padded 3 (nanos / 1000000)
  else if nanos % 1000 = 0 then '.' :: padded 6 (nanos / 1000)
  else '.' :: padded 9 nanos

namespace Instant

/-- The moment that an instant lies in. -/
def moment (i : Instant) : Moment :=
  let tick := (i.seconds % 86400).toNat
  { date := .ofDayNumber (i.seconds / 86400)
    hour := tick / 3600
    minute := tick / 60 % 60
    second := tick % 60 + i.nanos / billion }

/-- An instant as date and time of day. -/
def text (i : Instant) : List Char :=
  i.moment.text ++ fractionText (i.nanos % billion)

/-- The number of units from the first second of 1970; what is finer is cut off. -/
def count (unit : TimeUnit) (i : Instant) : Int :=
  i.seconds * unit.perSecond + (i.nanos * unit.perSecond / billion : Nat)

/-- The instant so many units after the first second of 1970. -/
def ofCount (unit : TimeUnit) (n : Int) : Instant where
  seconds := n / unit.perSecond
  nanos := (n % unit.perSecond).toNat * (billion / unit.perSecond)

end Instant
end BenchLog
