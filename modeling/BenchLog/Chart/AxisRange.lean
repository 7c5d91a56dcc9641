/-
# The range of an axis

An axis covers all finite values with a margin on both sides: a twentieth of
their spread, or if they lie together a twentieth of their size, at least one.
The computation is written over any arithmetic, so that its exact meaning can
be told apart from the rounding of floats.

Key definitions: `Arithmetic`, `Arithmetic.float`, `AxisRange`,
`AxisRange.covering?`.
Key theorems: `AxisRange.covering?_eq_none_iff`.
-/
import BenchLog.Number.Extremum

namespace BenchLog

/-- The operations that the range of an axis is computed with. -/
structure Arithmetic (α : Type) where
  /-- Whether a value has a place on an axis. -/
  isFinite : α → Bool
  smaller : α → α → α
  larger : α → α → α
  add : α → α → α
  sub : α → α → α
  /-- The distance from zero. -/
  size : α → α
  /-- The twentieth part. -/
  twentieth : α → α
  one : α
  /-- Whether a distance is too small to tell values apart. -/
  isTiny : α → Bool

/-- The arithmetic of floats. Distances below the precision of one are tiny. -/
def Arithmetic.float : Arithmetic Float where
  isFinite := Float.isFinite
  smaller := Number.smaller
  larger := Number.larger
  add := (· + ·)
  sub := (· - ·)
  size := Float.abs
  twentieth := (· * 0.05)
  one := 1
  isTiny x := x < Float.ofScientific (Nat.pow 5 52) true 52

/-- The ends of an axis. -/
structure AxisRange (α : Type) where
  start : α
  stop : α

namespace AxisRange

variable {α : Type} (arithmetic : Arithmetic α)

/-- The margin beside values that reach from `least` to `most`. -/
def margin (least most : α) : α :=
  let spread := arithmetic.sub most least
  if arithmetic.isTiny (arithmetic.size spread) then
    arithmetic.larger arithmetic.one (arithmetic.twentieth (arithmetic.size most))
  else
    arithmetic.twentieth spread

/-- The range that covers the finite ones of some values. -/
def covering? (values : List α) : Option (AxisRange α) :=
  match values.filter arithmetic.isFinite with
  | [] => none
  | v :: vs =>
    let least := vs.foldl arithmetic.smaller v
    let most := vs.foldl arithmetic.larger v
    let margin := margin arithmetic least most
    some ⟨arithmetic.sub least margin, arithmetic.add most margin⟩

/-- There is no range if and only if no value is finite. -/
theorem covering?_eq_none_iff {values : List α} :
    covering? arithmetic values = none ↔ ∀ v ∈ values, arithmetic.isFinite v = false := by
  unfold covering?
  split
  · rename_i h
    simpa using h
  · rename_i v vs h
    have : v ∈ values.filter arithmetic.isFinite := by rw [h]; exact List.mem_cons_self
    simp only [reduceCtorEq, false_iff]
    intro hall
    have hv := List.mem_filter.1 this
    simp [hall v hv.1] at hv

end AxisRange
end BenchLog
