/-
# The statistics of a column

Key definitions: `ColumnStats`, `ColumnStats.ofValues?`.
Key theorems: `ColumnStats.count_of_ofValues?`.
-/
import BenchLog.Number.Extremum

namespace BenchLog

/-- Count, least value, mean and greatest value of some values. -/
structure ColumnStats where
  count : Nat
  least : Float
  mean : Float
  greatest : Float

namespace ColumnStats

/-- The sum of values, added from the left to negative zero, which is neutral. -/
def sum (values : List Float) : Float :=
  values.foldl (· + ·) (-0.0)

/-- The statistics of values, if there are any. Values that are no numbers do
not count for the extremes. -/
def ofValues? (values : List Float) : Option ColumnStats :=
  if values.isEmpty then
    none
  else
    some
      { count := values.length
        least := values.foldl Number.smaller (1 / 0)
        mean := sum values / Float.ofNat values.length
        greatest := values.foldl Number.larger (-1 / 0) }

theorem count_of_ofValues? {values : List Float} {s : ColumnStats}
    (h : ofValues? values = some s) : s.count = values.length := by
  unfold ofValues? at h
  split at h <;> simp_all
  rw [← h]

end ColumnStats
end BenchLog
