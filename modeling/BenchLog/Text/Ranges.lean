/-
# Sets of characters given by ranges of code points

A character class of the Unicode standard is a list of closed ranges of code
points. `Ranges.mem` decides membership; the tables themselves stand in the
modules named for the property.

Key definitions: `Ranges`, `Ranges.mem`.
Key theorems: `Ranges.mem_iff`, `Ranges.mem_append`.
-/
namespace BenchLog.Text

/-- Closed ranges of code points, in ascending order. -/
abbrev Ranges := List (Nat × Nat)

namespace Ranges

/-- Whether a character lies in one of the ranges. -/
def mem (ranges : Ranges) (c : Char) : Bool :=
  ranges.any fun r => r.1 ≤ c.toNat && c.toNat ≤ r.2

theorem mem_iff (ranges : Ranges) (c : Char) :
    ranges.mem c = true ↔ ∃ r ∈ ranges, r.1 ≤ c.toNat ∧ c.toNat ≤ r.2 := by
  simp [mem]

theorem mem_append (a b : Ranges) (c : Char) : mem (a ++ b) c = (mem a c || mem b c) := by
  simp [mem]

end Ranges
end BenchLog.Text
