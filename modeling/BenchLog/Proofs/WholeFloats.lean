/-
# Whole numbers as floats

A whole number of at most fifty-three bits is a float, with or without a sign. So a column that
is filled from whole numbers shows these numbers and none that are merely near.

Key definitions: `Number.Binary.number?`.
Key theorems: `Number.Packs.ofFloat_pack`, `Number.number?_ofInt`.
-/
import BenchLog.Proofs.NearestFloat

namespace BenchLog.Number

open Float.Model Float.Model.UnpackedFloat

/-- The number that a value is, if it is finite. -/
def Binary.number? : Binary → Option ℚ
  | .finite negative m e => some (if negative then -(m * 2 ^ e) else m * 2 ^ e)
  | .infinite _ => none
  | .notANumber => none

variable {n : ℕ} {u : UnpackedFloat} {b : Binary}

theorem Packs.unique {b' : Binary} (h : Packs u b) (h' : Packs u b') : b = b' := by
  cases h <;> cases h' <;> rfl

/-- The value of what was packed. -/
theorem Packs.ofFloat_pack (h : Packs u b) : Binary.ofFloat (.ofModel (.pack u)) = b := by
  obtain ⟨u', hu', hpack⟩ := exists_packs (.ofModel (.pack u))
  have hsame : u = u' :=
    calc u = (Float.Model.pack u).unpack := (unpack_pack h).symm
      _ = (Float.Model.pack u').unpack := congrArg (fun x : Float => x.toModel.unpack) hpack
      _ = u' := unpack_pack hu'
  rw [← hsame] at hu'
  exact hu'.unique h

/-- A natural number of at most fifty-three bits as a float. -/
theorem ofNat_eq_ofModel (hpos : 0 < n) (hlt : n < 2 ^ 53) :
    Float.ofNat n =
      .ofModel (.pack (.finite .positive (n * 2 ^ (52 - n.log2)) (n.log2 - 52)
        (isCanonical_shift hpos hlt).pos)) := by
  have habsorbs := Binary.absorbs_self (n * 2 ^ (52 - n.log2)) ((n.log2 : ℤ) - 52)
  rw [shift_mul hlt, ← mul_one (n : ℚ), ← zpow_zero (10 : ℚ)] at habsorbs
  exact ofScientific_of_absorbs hpos habsorbs (isCanonical_shift hpos hlt)

/-- A whole number of at most fifty-three bits is the float that it is made. -/
theorem number?_ofInt {n : ℤ} (h : n.natAbs < 2 ^ 53) :
    (Binary.ofFloat (Float.ofInt n)).number? = some (n : ℚ) := by
  have hfinite : ∀ {m : ℕ} (hpos : 0 < m) (hlt : m < 2 ^ 53) (s : Sign),
      (Binary.ofFloat (.ofModel (.pack (.finite s (m * 2 ^ (52 - m.log2)) (m.log2 - 52)
        (isCanonical_shift hpos hlt).pos)))).number? =
          some (if isNegative s then -(m : ℚ) else m) := by
    intro m hpos hlt s
    rw [(Packs.finite s (isCanonical_shift hpos hlt)).ofFloat_pack, Binary.number?, shift_mul hlt]
  match n with
  | .ofNat 0 => decide +kernel
  | .ofNat (m + 1) =>
    show (Binary.ofFloat (Float.ofNat (m + 1))).number? = _
    rw [ofNat_eq_ofModel m.succ_pos h, hfinite m.succ_pos h .positive]
    rfl
  | .negSucc m =>
    show (Binary.ofFloat (-Float.ofNat (m + 1))).number? = _
    rw [ofNat_eq_ofModel m.succ_pos h,
      neg_ofModel_pack (.finite .positive (isCanonical_shift m.succ_pos h))]
    refine (hfinite m.succ_pos h .negative).trans ?_
    rw [isNegative, if_pos rfl, Int.cast_negSucc]

end BenchLog.Number
