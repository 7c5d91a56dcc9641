/-
# The shortest decimal that reads back

A positive float stands for every real that rounds to it: an interval around
`m * 2 ^ q`, with its ends if `m` is even. Of the decimals in it, the one with
the fewest digits is written; of several with as few digits, the nearest one.
The search lays grids of spacing `10 ^ k` over the interval, from coarse to
fine. If any point of a grid lies in the interval, so does one of the two
neighbours of the float itself, so only these two are tested.

Key definitions: `Tie`, `Decimal`, `Scale`, `Scale.point?`, `shortest`.
Key theorems: `Scale.inside_of_point?`, `Scale.point?_isSome`.
-/
import BenchLog.Number.Binary

namespace BenchLog.Number

/-- Which of two decimals at the same distance is taken. -/
inductive Tie where
  /-- The one with an even last digit. -/
  | even
  /-- The larger one. -/
  | up
  deriving DecidableEq, Repr

/-- Whether the larger of two equally near neighbours `d` and `d + 1` is taken. -/
def Tie.takesUpper (tie : Tie) (d : Nat) : Bool :=
  match tie with
  | .even => d % 2 == 1
  | .up => true

/-- The decimal `coefficient * 10 ^ exponent`. -/
structure Decimal where
  coefficient : Nat
  exponent : Int
  deriving DecidableEq, Repr

/-- A common scale for a float and a decimal grid. The float lies at
`4 * mantissa * quarter` and the points of the grid at the multiples of
`spacing`; the ends of the interval lie at whole multiples of `quarter`. -/
structure Scale where
  mantissa : Nat
  /-- The distance to the lower end in quarters of the mantissa's unit. -/
  below : Nat
  quarter : Nat
  spacing : Nat
  deriving DecidableEq, Repr

namespace Scale

/-- The scale for `mantissa * 2 ^ exponent` and the grid of spacing `10 ^ k`. The
lower end is nearer if the next float below has a finer unit. -/
def of (mantissa : Nat) (exponent k : Int) : Scale where
  mantissa := mantissa
  below := if mantissa = Binary.fullMantissa ∧ Binary.leastExponent < exponent then 1 else 2
  quarter := Nat.pow 2 (exponent - 2).toNat * Nat.pow 10 (-k).toNat
  spacing := Nat.pow 2 (2 - exponent).toNat * Nat.pow 10 k.toNat

/-- The place of the float. -/
def center (s : Scale) : Nat := 4 * s.mantissa * s.quarter

/-- Whether a place lies in the interval of the float. -/
def inside (s : Scale) (place : Nat) : Bool :=
  let low := (4 * s.mantissa - s.below) * s.quarter
  let high := (4 * s.mantissa + 2) * s.quarter
  if s.mantissa % 2 = 0 then low ≤ place && place ≤ high else low < place && place < high

/-- The index of a point of the grid in the interval: the nearer of the two
neighbours of the float if both are inside. -/
def point? (tie : Tie) (s : Scale) : Option Nat :=
  let d := s.center / s.spacing
  let lower := d * s.spacing
  let upper := (d + 1) * s.spacing
  if s.inside lower then
    if s.inside upper ∧ (upper - s.center < s.center - lower ∨
        upper - s.center = s.center - lower ∧ tie.takesUpper d) then
      some (d + 1)
    else
      some d
  else if s.inside upper then
    some (d + 1)
  else
    none

/-- What is chosen lies in the interval. -/
theorem inside_of_point? {tie : Tie} {s : Scale} {d : Nat} (h : s.point? tie = some d) :
    s.inside (d * s.spacing) = true := by
  unfold point? at h
  grind

/-- If any point of the grid lies in the interval, one is chosen. -/
theorem point?_isSome {tie : Tie} {s : Scale} {d : Nat} (hs : 0 < s.spacing)
    (h : s.inside (d * s.spacing) = true) : (s.point? tie).isSome = true := by
  have hcut := Nat.div_add_mod s.center s.spacing
  have hmod := Nat.mod_lt s.center hs
  rw [Nat.mul_comm] at hcut
  have hlow : (4 * s.mantissa - s.below) * s.quarter ≤ s.center :=
    Nat.mul_le_mul_right _ (Nat.sub_le _ _)
  have hhigh : s.center ≤ (4 * s.mantissa + 2) * s.quarter :=
    Nat.mul_le_mul_right _ (by omega)
  have key : s.inside (s.center / s.spacing * s.spacing) = true ∨
      s.inside ((s.center / s.spacing + 1) * s.spacing) = true := by
    by_cases hd : d ≤ s.center / s.spacing
    · left
      have hm : d * s.spacing ≤ s.center / s.spacing * s.spacing := Nat.mul_le_mul_right _ hd
      have hle : s.center / s.spacing * s.spacing ≤ s.center := by omega
      unfold inside at h ⊢
      simp only at h ⊢
      split at h
      · simp_all only [Bool.and_eq_true, decide_eq_true_eq, if_true]
        omega
      · rename_i hodd
        simp only [hodd, if_false, Bool.and_eq_true, decide_eq_true_eq] at h ⊢
        have hq : 0 < s.quarter := by
          rcases Nat.eq_zero_or_pos s.quarter with e | e
          · simp [e] at h
          · exact e
        have : s.center < (4 * s.mantissa + 2) * s.quarter :=
          Nat.mul_lt_mul_of_pos_right (by omega) hq
        omega
    · right
      have hm : (s.center / s.spacing + 1) * s.spacing ≤ d * s.spacing :=
        Nat.mul_le_mul_right _ (by omega)
      have hge : s.center < (s.center / s.spacing + 1) * s.spacing := by
        rw [Nat.add_mul, Nat.one_mul]
        omega
      unfold inside at h ⊢
      simp only at h ⊢
      split at h
      · simp_all only [Bool.and_eq_true, decide_eq_true_eq, if_true]
        omega
      · rename_i hodd
        simp only [hodd, if_false, Bool.and_eq_true, decide_eq_true_eq] at h ⊢
        omega
  unfold point?
  grind

end Scale

/-- A decimal without the zero that the power of ten above the float ends in. -/
def Decimal.shorten (d : Decimal) : Decimal :=
  if d.coefficient % 10 = 0 then ⟨d.coefficient / 10, d.exponent + 1⟩ else d

/-- A power of ten that is near the float and not below a tenth of it: 30103 of
100000 is the decimal logarithm of two. -/
def topExponent (mantissa : Nat) (exponent : Int) : Int :=
  ((mantissa.log2 : Int) + exponent) * 30103 / 100000 + 2

/-- The shortest decimal that rounds to the positive float `mantissa * 2 ^ exponent`.
Twenty grids reach from above the float to finer than its last digit. -/
def shortest (tie : Tie) (mantissa : Nat) (exponent : Int) : Decimal :=
  let top := topExponent mantissa exponent
  let grid (i : Nat) : Option Decimal :=
    ((Scale.of mantissa exponent (top - i)).point? tie).map fun d => ⟨d, top - i⟩
  match (List.range 20).findSome? grid with
  | some d => d.shorten
  | none => ⟨mantissa, exponent⟩

end BenchLog.Number
