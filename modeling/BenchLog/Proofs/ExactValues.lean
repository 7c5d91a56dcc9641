/-
# Floats in exact arithmetic

A float stands for a number, for an infinity or for neither. To compare two floats and to take
the smaller or the larger of them needs no rounding: it is what exact arithmetic does with their
values. The order is told from exponents and mantissas, and since a mantissa is full unless the
exponent is the least one, the larger exponent has the larger value (`value_lt_of_exponent_lt`).

Key definitions: `Exact`, `Exact.ofFloat`.
Key theorems: `Number.compare_eq_compare_value`, `Exact.isBelow_ofFloat`,
`Exact.ofFloat_smaller`, `Exact.ofFloat_larger`.
-/
import BenchLog.Number.Extremum
import BenchLog.Proofs.PackedFloats

namespace BenchLog

/-! ### Values -/

/-- A value in exact arithmetic: a number, an infinity, or neither. -/
inductive Exact where
  | number (q : ℚ)
  | infinite (negative : Bool)
  | notANumber
  deriving DecidableEq

namespace Exact

/-- Whether a value is a number. -/
def isNumber : Exact → Bool
  | number _ => true
  | _ => false

/-- Whether a value is neither a number nor an infinity. -/
def isNeither : Exact → Bool
  | notANumber => true
  | _ => false

/-- Whether a value lies below another. What is neither number nor infinity lies nowhere. -/
def isBelow : Exact → Exact → Bool
  | number a, number b => a < b
  | number _, infinite negative => !negative
  | infinite negative, number _ => negative
  | infinite a, infinite b => a && !b
  | notANumber, _ | _, notANumber => false

/-- The smaller of two values. -/
def smaller (a b : Exact) : Exact :=
  if a.isNeither || b.isBelow a then b else a

/-- The larger of two values. -/
def larger (a b : Exact) : Exact :=
  if a.isNeither || a.isBelow b then b else a

/-- The value of the parts of a float. -/
def ofBinary : Number.Binary → Exact
  | .finite negative m e => number (if negative then -(m * 2 ^ e) else m * 2 ^ e)
  | .infinite negative => infinite negative
  | .notANumber => notANumber

/-- The value of a float. -/
def ofFloat (x : Float) : Exact := ofBinary (.ofFloat x)

end Exact

/-! ### Comparing floats -/

namespace Number

open Float.Model Float.Model.UnpackedFloat

variable {m m' : ℕ} {e e' : ℤ}

theorem value_lt_of_exponent_lt (h : Binary.IsCanonical m e) (h' : Binary.IsCanonical m' e')
    (he : e < e') : (m * 2 ^ e : ℚ) < m' * 2 ^ e' := by
  have hfull : (2 ^ 52 : ℚ) ≤ m' := by
    have := h'.full.resolve_right (by have := h.least; omega)
    exact_mod_cast this
  have hlt : (m : ℚ) < 2 ^ 53 := by exact_mod_cast h.lt
  have hpos : (0 : ℚ) < 2 ^ e := by positivity
  calc (m * 2 ^ e : ℚ) < 2 ^ 53 * 2 ^ e := mul_lt_mul_of_pos_right hlt hpos
    _ = 2 ^ 52 * 2 ^ (e + 1) := by rw [zpow_add_one₀ two_ne_zero]; ring
    _ ≤ m' * 2 ^ e' := mul_le_mul hfull (zpow_le_zpow_right₀ one_le_two he) (by positivity)
        (by positivity)

/-- Exponents are compared first and mantissas then, and this compares the values. -/
theorem compare_eq_compare_value (h : Binary.IsCanonical m e) (h' : Binary.IsCanonical m' e') :
    (compare e e').then (compare m m') = compare (m * 2 ^ e : ℚ) (m' * 2 ^ e') := by
  rcases lt_trichotomy e e' with he | rfl | he
  · rw [compare_lt_iff_lt.mpr he, compare_lt_iff_lt.mpr (value_lt_of_exponent_lt h h' he)]
    rfl
  · have hpos : (0 : ℚ) < 2 ^ e := by positivity
    rw [compare_eq_iff_eq.mpr rfl]
    rcases lt_trichotomy m m' with hm | rfl | hm
    · have hlt : (m * 2 ^ e : ℚ) < m' * 2 ^ e :=
        mul_lt_mul_of_pos_right (by exact_mod_cast hm) hpos
      rw [compare_lt_iff_lt.mpr hm, compare_lt_iff_lt.mpr hlt]
      rfl
    · rw [compare_eq_iff_eq.mpr rfl, compare_eq_iff_eq.mpr rfl]
      rfl
    · have hlt : (m' * 2 ^ e : ℚ) < m * 2 ^ e :=
        mul_lt_mul_of_pos_right (by exact_mod_cast hm) hpos
      rw [compare_gt_iff_gt.mpr hm, compare_gt_iff_gt.mpr hlt]
      rfl
  · rw [compare_gt_iff_gt.mpr he, compare_gt_iff_gt.mpr (value_lt_of_exponent_lt h' h he)]
    rfl

theorem value_pos (h : Binary.IsCanonical m e) : (0 : ℚ) < m * 2 ^ e := by
  have hpos : (0 : ℚ) < m := by exact_mod_cast h.pos
  positivity

variable {u u' : UnpackedFloat} {b b' : Binary}

theorem ofBinary_zero (negative : Bool) (e : ℤ) :
    Exact.ofBinary (.finite negative 0 e) = .number 0 := by
  cases negative <;> simp [Exact.ofBinary]

theorem beq_some_compare (p q : ℚ) : (some (compare p q) == some .lt) = decide (p < q) := by
  rw [Bool.eq_iff_iff, beq_iff_eq, Option.some_inj, compare_lt_iff_lt, decide_eq_true_iff]

/-- Numbers other than zero are compared as their values are, by their signs first. -/
theorem lt_finite (hm : Binary.IsCanonical m e) (hm' : Binary.IsCanonical m' e') (s s' : Sign) :
    UnpackedFloat.lt (.finite s m e hm.pos) (.finite s' m' e' hm'.pos) =
      (Exact.ofBinary (.finite (isNegative s) m e)).isBelow
        (.ofBinary (.finite (isNegative s') m' e')) := by
  have hpos := value_pos hm
  have hpos' := value_pos hm'
  cases s with
  | positive =>
    cases s' with
    | positive =>
      show (some ((compare e e').then (compare m m')) == some .lt) = _
      rw [compare_eq_compare_value hm hm', beq_some_compare]
      rfl
    | negative => exact (decide_eq_false ((neg_neg_of_pos hpos').trans hpos).not_gt).symm
  | negative =>
    cases s' with
    | positive => exact (decide_eq_true ((neg_neg_of_pos hpos).trans hpos')).symm
    | negative =>
      show (some ((compare e e').then (compare m m')).swap == some .lt) = _
      rw [compare_eq_compare_value hm hm', Std.OrientedCmp.eq_swap.symm, beq_some_compare]
      exact decide_eq_decide.mpr neg_lt_neg_iff.symm

/-- Two forms are compared as their values are. -/
theorem Packs.lt_eq (h : Packs u b) (h' : Packs u' b') :
    u.lt u' = (Exact.ofBinary b).isBelow (.ofBinary b') := by
  cases h with
  | notANumber => cases h' <;> rfl
  | infinity s =>
    cases h' with
    | notANumber => cases s <;> rfl
    | infinity s' => cases s <;> cases s' <;> rfl
    | zero s' => cases s <;> rfl
    | finite s' hm' => cases s <;> rfl
  | zero s =>
    rw [ofBinary_zero]
    cases h' with
    | notANumber => cases s <;> rfl
    | infinity s' => cases s' <;> rfl
    | zero s' =>
      rw [ofBinary_zero]
      rfl
    | finite s' hm' =>
      have hpos := value_pos hm'
      cases s' with
      | positive => exact (decide_eq_true hpos).symm
      | negative => exact (decide_eq_false (neg_neg_of_pos hpos).not_gt).symm
  | @finite s m e hm =>
    have hpos := value_pos hm
    cases h' with
    | notANumber => cases s <;> rfl
    | infinity s' => cases s <;> cases s' <;> rfl
    | zero s' =>
      rw [ofBinary_zero]
      cases s with
      | positive => exact (decide_eq_false hpos.not_gt).symm
      | negative => exact (decide_eq_true (neg_neg_of_pos hpos)).symm
    | finite s' hm' => exact lt_finite hm hm' s s'

theorem Packs.isFinite_eq (h : Packs u b) : u.isFinite = (Exact.ofBinary b).isNumber := by
  cases h <;> rfl

theorem Packs.isNaN_eq (h : Packs u b) : u.isNaN = (Exact.ofBinary b).isNeither := by
  cases h <;> rfl

/-- A float is unpacked to the form that has its value. -/
theorem packs_unpack (x : Float) : Packs x.toModel.unpack (Binary.ofFloat x) := by
  obtain ⟨u, hu, hx⟩ := exists_packs x
  have hunpack : x.toModel.unpack = u := by
    rw [hx]
    exact unpack_pack hu
  rwa [hunpack]

end Number

namespace Exact

open Number Float.Model

/-- One float lies below another if and only if its value does. -/
theorem isBelow_ofFloat (x y : Float) : (ofFloat x).isBelow (ofFloat y) = decide (x < y) :=
  calc (ofFloat x).isBelow (ofFloat y) = x.toModel.unpack.lt y.toModel.unpack :=
        ((packs_unpack x).lt_eq (packs_unpack y)).symm
    _ = decide (x.toModel < y.toModel) := Bool.decide_eq_true.symm
    _ = decide (x < y) := Bool.decide_eq_true.symm

theorem isNumber_ofFloat (x : Float) : (ofFloat x).isNumber = x.isFinite :=
  (packs_unpack x).isFinite_eq.symm

theorem isNeither_ofFloat (x : Float) : (ofFloat x).isNeither = x.isNaN :=
  (packs_unpack x).isNaN_eq.symm

theorem ofFloat_smaller (x y : Float) :
    ofFloat (Number.smaller x y) = smaller (ofFloat x) (ofFloat y) := by
  rw [Number.smaller, smaller, isNeither_ofFloat, isBelow_ofFloat, apply_ite ofFloat]

theorem ofFloat_larger (x y : Float) :
    ofFloat (Number.larger x y) = larger (ofFloat x) (ofFloat y) := by
  rw [Number.larger, larger, isNeither_ofFloat, isBelow_ofFloat, apply_ite ofFloat]

end Exact
end BenchLog
