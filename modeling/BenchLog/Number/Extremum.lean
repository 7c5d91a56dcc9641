/-
# The smaller and the larger of two floats

A value that is not a number gives way to any other. Of two equal values the
first is kept, which tells the two zeros apart.

Key definitions: `smaller`, `larger`.
-/
namespace BenchLog.Number

/-- The smaller of two floats. -/
def smaller (a b : Float) : Float :=
  if a.isNaN || b < a then b else a

/-- The larger of two floats. -/
def larger (a b : Float) : Float :=
  if a.isNaN || a < b then b else a

end BenchLog.Number
