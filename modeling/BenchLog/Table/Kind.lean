/-
# The kinds of table columns

All cells of a column are of one kind.

Key definitions: `TimeUnit`, `Kind`, `Kind.name`.
-/
namespace BenchLog

/-- How finely a timestamp counts. -/
inductive TimeUnit where
  | second
  | millisecond
  | microsecond
  | nanosecond
  deriving DecidableEq, Repr

namespace TimeUnit

/-- The name of the unit. -/
def name : TimeUnit → String
  | second => "Second"
  | millisecond => "Millisecond"
  | microsecond => "Microsecond"
  | nanosecond => "Nanosecond"

/-- The number of decimal places that a unit adds to whole seconds. -/
def places : TimeUnit → Nat
  | second => 0
  | millisecond => 3
  | microsecond => 6
  | nanosecond => 9

/-- The number of units in a second. -/
def perSecond (u : TimeUnit) : Nat := Nat.pow 10 u.places

end TimeUnit

/-- What the cells of a column hold. -/
inductive Kind where
  /-- No cell of the column is filled. -/
  | null
  | boolean
  | int64
  | float64
  | date32
  | timestamp (unit : TimeUnit)
  | text
  deriving DecidableEq, Repr

namespace Kind

/-- The name of the kind, as messages show it. -/
def name : Kind → String
  | null => "Null"
  | boolean => "Boolean"
  | int64 => "Int64"
  | float64 => "Float64"
  | date32 => "Date32"
  | timestamp unit => "Timestamp(" ++ unit.name ++ ", None)"
  | text => "Utf8"

/-- Whether the cells are numbers. -/
def isNumeric : Kind → Bool
  | int64 | float64 => true
  | _ => false

end Kind
end BenchLog
