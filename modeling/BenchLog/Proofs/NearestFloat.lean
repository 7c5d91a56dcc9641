/-
# Reading a decimal

A decimal is read as the float in whose interval it lies. Which digits and which
power of ten give the decimal does not matter, so `25e-1` and `2.5` are one
float; the short way, which multiplies or divides two exact floats, rounds the
same exact value as the long way does.

Key definitions: `tenMantissa`, `tenExponent`.
Key theorems: `unpack_ofNat`, `toModel_powerOfTen`, `ofScientific_of_absorbs`.
-/
import BenchLog.Proofs.PackedFloats

namespace BenchLog.Number

open Float.Model Float.Model.UnpackedFloat

variable {m c : ℕ} {e p : ℤ}

/-! ### Bounds -/

namespace Binary

theorem Absorbs.pos {v : ℚ} (h : Absorbs m e v) (hm : IsCanonical m e) :
    (2 : ℚ) ^ (-1075 : ℤ) ≤ v := by
  have hone : (1 : ℚ) ≤ m := by exact_mod_cast hm.pos
  have hreach := reach_le m e
  have hunit : (2 : ℚ) ^ (-1074 : ℤ) ≤ 2 ^ e := zpow_le_zpow_right₀ one_le_two hm.least
  have hhalf : (2 : ℚ) ^ (-1075 : ℤ) = 1 / 2 * 2 ^ (-1074 : ℤ) := by
    rw [show (-1075 : ℤ) = -1 + -1074 from rfl, zpow_add₀ two_ne_zero]
    norm_num
  have hpos : (0 : ℚ) < 2 ^ (-1074 : ℤ) := by positivity
  calc (2 : ℚ) ^ (-1075 : ℤ) = 1 / 2 * 2 ^ (-1074 : ℤ) := hhalf
    _ ≤ (m - reach m e) * 2 ^ e := by
        apply mul_le_mul _ hunit hpos.le
        · linarith
        · linarith
    _ ≤ v := h.lower

theorem Absorbs.lt {v : ℚ} (h : Absorbs m e v) (hm : IsCanonical m e) :
    v < (2 : ℚ) ^ (1024 : ℤ) := by
  have hlt : (m : ℚ) + 1 ≤ 2 ^ 53 := by exact_mod_cast hm.lt
  have hunit : (2 : ℚ) ^ e ≤ 2 ^ (971 : ℤ) := zpow_le_zpow_right₀ one_le_two hm.most
  have hpos : (0 : ℚ) < 2 ^ e := by positivity
  calc v ≤ (m + 1 / 2) * 2 ^ e := h.upper
    _ < 2 ^ 53 * 2 ^ e := mul_lt_mul_of_pos_right (by linarith) hpos
    _ ≤ 2 ^ 53 * 2 ^ (971 : ℤ) := mul_le_mul_of_nonneg_left hunit (by positivity)
    _ = 2 ^ (1024 : ℤ) := by rw [← zpow_natCast, ← zpow_add₀ two_ne_zero]; norm_num

end Binary

/-- The power of ten of a decimal that lies near a float is neither huge nor tiny. -/
theorem exponent_bounds (hc : 0 < c) (h : Binary.Absorbs m e (c * 10 ^ p))
    (hm : Binary.IsCanonical m e) : p ≤ 2048 ∧ -(2048 + (c.log2 : ℤ)) ≤ p := by
  have hone : (1 : ℚ) ≤ c := by exact_mod_cast hc
  constructor
  · by_contra hgt
    have hge : (2 : ℚ) ^ (1024 : ℤ) ≤ 10 ^ p :=
      calc (2 : ℚ) ^ (1024 : ℤ) ≤ 2 ^ p := zpow_le_zpow_right₀ one_le_two (by omega)
        _ ≤ 10 ^ p := zpow_le_zpow_left₀ (by omega) (by norm_num) (by norm_num)
    have hle : (10 : ℚ) ^ p ≤ c * 10 ^ p := le_mul_of_one_le_left (by positivity) hone
    exact absurd (hge.trans hle) (not_le.mpr (h.lt hm))
  · by_contra hlt
    have hc' : (c : ℚ) < 2 ^ ((c.log2 : ℤ) + 1) := by
      exact_mod_cast Nat.lt_log2_self
    have hten : (10 : ℚ) ^ p ≤ 2 ^ p := by
      rw [← inv_le_inv₀ (by positivity) (by positivity), ← zpow_neg, ← zpow_neg]
      exact zpow_le_zpow_left₀ (by omega) (by norm_num) (by norm_num)
    have hge := h.pos hm
    have hlt' : c * (10 : ℚ) ^ p < 2 ^ (-1075 : ℤ) :=
      calc c * (10 : ℚ) ^ p ≤ c * 2 ^ p := mul_le_mul_of_nonneg_left hten (by positivity)
        _ < 2 ^ ((c.log2 : ℤ) + 1) * 2 ^ p := mul_lt_mul_of_pos_right hc' (by positivity)
        _ = 2 ^ ((c.log2 : ℤ) + 1 + p) := (zpow_add₀ two_ne_zero _ _).symm
        _ ≤ 2 ^ (-1075 : ℤ) := zpow_le_zpow_right₀ one_le_two (by omega)
    linarith

/-! ### The long way -/

theorem model_ofScientific_of_absorbs (hc : 0 < c) (h : Binary.Absorbs m e (c * 10 ^ p))
    (hm : Binary.IsCanonical m e) :
    Float.Model.ofScientific c p = .pack (.finite .positive m e hm.pos) := by
  obtain ⟨hmost, hleast⟩ := exponent_bounds hc h hm
  rw [Float.Model.ofScientific, UnpackedFloat.ofScientific, dif_neg hc.ne',
    if_neg (by norm_num; omega), if_neg (by norm_num; omega)]
  congr 1
  split
  · rename_i hnonneg
    have hvalue : (c * 10 ^ p : ℚ) =
        (c <<< 53 : ℕ) * 2 ^ (-53 : ℤ) * ((10 ^ p.toNat : ℕ) * 2 ^ (0 : ℤ)) := by
      have hpow : (10 : ℚ) ^ p = 10 ^ p.toNat := by
        rw [← zpow_natCast, Int.toNat_of_nonneg hnonneg]
      have hone : (2 ^ 53 : ℚ) * 2 ^ (-53 : ℤ) = 1 := by norm_num
      rw [Nat.shiftLeft_eq, hpow, zpow_zero, mul_one, Nat.cast_mul, Nat.cast_pow, Nat.cast_pow,
        Nat.cast_ofNat, Nat.cast_ofNat, mul_assoc (c : ℚ), hone, mul_one]
    rw [hvalue] at h
    refine mul_of_absorbs _ _ h hm ?_ .positive .positive
    rw [Nat.shiftLeft_eq]
    calc 2 ^ 52 ≤ 1 * 2 ^ 53 * 1 := by norm_num
      _ ≤ c * 2 ^ 53 * 10 ^ p.toNat :=
        Nat.mul_le_mul (Nat.mul_le_mul_right _ hc) (Nat.pow_pos (by norm_num))
  · rename_i hneg
    have hvalue : (c * 10 ^ p : ℚ) =
        c * 2 ^ (0 : ℤ) / ((10 ^ (-p).toNat : ℕ) * 2 ^ (0 : ℤ)) := by
      have hpow : (10 : ℚ) ^ p = (10 ^ (-p).toNat)⁻¹ := by
        rw [← zpow_natCast, Int.toNat_of_nonneg (by omega), zpow_neg, inv_inv]
      rw [hpow, ← div_eq_mul_inv]
      norm_num
    rw [hvalue] at h
    exact div_of_absorbs hc (Nat.pow_pos (by norm_num)) h hm .positive .positive

/-! ### The short way -/

theorem log2_le_of_lt (hlt : c < 2 ^ 53) : c.log2 ≤ 52 := by
  rcases Nat.eq_zero_or_pos c with rfl | hc
  · simp
  · exact Nat.le_of_lt_succ ((Nat.log2_lt hc.ne').mpr hlt)

/-- The mantissa of a number of at most fifty-three bits, moved to the front. -/
theorem full_shift (hc : 0 < c) (hlt : c < 2 ^ 53) : 2 ^ 52 ≤ c * 2 ^ (52 - c.log2) := by
  have hlog := log2_le_of_lt hlt
  calc 2 ^ 52 = 2 ^ c.log2 * 2 ^ (52 - c.log2) := by rw [← Nat.pow_add]; congr 1; omega
    _ ≤ c * 2 ^ (52 - c.log2) := Nat.mul_le_mul_right _ (Nat.log2_self_le hc.ne')

theorem isCanonical_shift (hc : 0 < c) (hlt : c < 2 ^ 53) :
    Binary.IsCanonical (c * 2 ^ (52 - c.log2)) (c.log2 - 52) := by
  have hlog := log2_le_of_lt hlt
  have hfull := full_shift hc hlt
  refine ⟨by omega, ?_, by omega, by omega, .inl hfull⟩
  calc c * 2 ^ (52 - c.log2) < 2 ^ (c.log2 + 1) * 2 ^ (52 - c.log2) :=
        Nat.mul_lt_mul_of_pos_right Nat.lt_log2_self (Nat.two_pow_pos _)
    _ = 2 ^ 53 := by rw [← Nat.pow_add]; congr 1; omega

theorem shift_mul (hlt : c < 2 ^ 53) :
    ((c * 2 ^ (52 - c.log2) : ℕ) : ℚ) * 2 ^ ((c.log2 : ℤ) - 52) = c := by
  have hlog := log2_le_of_lt hlt
  have hexponent : ((52 - c.log2 : ℕ) : ℤ) + (c.log2 - 52) = 0 := by omega
  push_cast
  rw [mul_assoc, ← zpow_natCast, ← zpow_add₀ two_ne_zero, hexponent, zpow_zero, mul_one]

/-- A number of at most fifty-three bits is a float. -/
theorem unpack_ofNat (hc : 0 < c) (hlt : c < 2 ^ 53) :
    (Float.Model.ofNat c).unpack =
      .finite .positive (c * 2 ^ (52 - c.log2)) (c.log2 - 52) (isCanonical_shift hc hlt).pos := by
  have hcanonical := isCanonical_shift hc hlt
  have hlog := log2_le_of_lt hlt
  have htarget : Format.binary64.targetExponent (totalExponent c 0) = c.log2 - 52 := by
    rw [targetExponent_totalExponent]
    omega
  have hshift : ((0 : ℤ) - (c.log2 - 52)).toNat = 52 - c.log2 := by omega
  have hexponent : (0 : ℤ) - (52 - c.log2 : ℕ) = c.log2 - 52 := by omega
  have hround : UnpackedFloat.round Format.binary64 .positive c 0 =
      .finite .positive (c * 2 ^ (52 - c.log2)) (c.log2 - 52) hcanonical.pos := by
    simp only [UnpackedFloat.round, decreaseExponent, htarget, hshift, hexponent, Nat.shiftLeft_eq]
    have hunits : ((c * 2 ^ (52 - c.log2) : ℕ) * 2 ^ ((c.log2 : ℤ) - 52) : ℚ) /
        2 ^ ((c.log2 : ℤ) - 52) = (c * 2 ^ (52 - c.log2) : ℕ) :=
      mul_div_cancel_right₀ _ (by positivity)
    exact roundWithAccuracy_of_absorbs (Binary.absorbs_self _ _) hcanonical
      (hunits ▸ Cut.exact _) hcanonical.targetExponent.ge .positive
  have hnat : Float.Model.ofNat c = .pack (UnpackedFloat.round Format.binary64 .positive c 0) := by
    rw [Float.Model.ofNat, UnpackedFloat.ofNat, UnpackedFloat.ofInt, UnpackedFloat.normalize,
      Int.compare_eq_gt.mpr (by omega)]
    rfl
  rw [hnat, hround]
  exact unpack_pack (.finite .positive hcanonical)

/-- The mantissa of a power of ten that is a float. -/
def tenMantissa (i : ℕ) : ℕ := 5 ^ i * 2 ^ (52 - (5 ^ i).log2)

/-- The exponent of a power of ten that is a float. -/
def tenExponent (i : ℕ) : ℤ := (5 ^ i).log2 - 52 + i

theorem tenMantissa_pos (i : ℕ) : 0 < tenMantissa i := by
  unfold tenMantissa
  positivity

theorem five_pow_lt {i : ℕ} (h : i < 23) : 5 ^ i < 2 ^ 53 :=
  (Nat.pow_le_pow_right (by norm_num) (Nat.le_of_lt_succ h)).trans_lt (by norm_num)

theorem isCanonical_ten {i : ℕ} (h : i < 23) :
    Binary.IsCanonical (tenMantissa i) (tenExponent i) := by
  have hpower : 0 < 5 ^ i := Nat.pow_pos (by norm_num)
  have hlog : (5 ^ i).log2 < 53 := (Nat.log2_lt hpower.ne').mpr (five_pow_lt h)
  obtain ⟨hpos, hlt, hleast, -, hfull⟩ := isCanonical_shift hpower (five_pow_lt h)
  refine ⟨hpos, hlt, ?_, ?_, .inl ?_⟩
  · unfold tenExponent
    omega
  · unfold tenExponent
    omega
  · exact hfull.resolve_right (by omega)

theorem tenMantissa_mul {i : ℕ} (h : i < 23) :
    (tenMantissa i * 2 ^ tenExponent i : ℚ) = 10 ^ i := by
  rw [tenMantissa, tenExponent, zpow_add₀ two_ne_zero, ← mul_assoc, shift_mul (five_pow_lt h),
    zpow_natCast]
  push_cast
  rw [← mul_pow]
  norm_num

theorem toModel_powerOfTen : ∀ i : Fin Float.exactlyRepresentablePowersOfTen.size,
    Float.exactlyRepresentablePowersOfTen[i].toModel =
      .pack (.finite .positive (tenMantissa i) (tenExponent i) (tenMantissa_pos i)) := by
  decide +kernel

/-- A decimal whose digits and power of ten are floats. -/
theorem short_ofScientific {i : ℕ} (hc : 0 < c) (hlt : c < 2 ^ 53)
    (hi : i < Float.exactlyRepresentablePowersOfTen.size) (hm : Binary.IsCanonical m e) :
    (Binary.Absorbs m e (c * 10 ^ i) →
        c.toUInt64.toFloat * Float.exactlyRepresentablePowersOfTen[i] =
          .ofModel (.pack (.finite .positive m e hm.pos))) ∧
      (Binary.Absorbs m e (c / 10 ^ i) →
        c.toUInt64.toFloat / Float.exactlyRepresentablePowersOfTen[i] =
          .ofModel (.pack (.finite .positive m e hm.pos))) := by
  have hword : c.toUInt64.toNat = c := UInt64.toNat_ofNat_of_lt' (by simp [UInt64.size]; omega)
  have hdigits : c.toUInt64.toFloat.toModel.unpack = _ := (congrArg
    (fun n => (Float.Model.ofNat n).unpack) hword).trans (unpack_ofNat hc hlt)
  have hten := congrArg Float.Model.unpack (toModel_powerOfTen ⟨i, hi⟩)
  rw [unpack_pack (.finite .positive (isCanonical_ten hi))] at hten
  constructor
  · intro h
    rw [← tenMantissa_mul hi, ← shift_mul hlt] at h
    have hmul := mul_of_absorbs (isCanonical_shift hc hlt).pos (tenMantissa_pos i) h hm
      ((full_shift hc hlt).trans (Nat.le_mul_of_pos_right _ (tenMantissa_pos i)))
      .positive .positive
    rw [← hdigits, ← hten] at hmul
    exact congrArg (fun u => Float.ofModel (.pack u)) hmul
  · intro h
    rw [← tenMantissa_mul hi, ← shift_mul hlt] at h
    have hdiv := div_of_absorbs (isCanonical_shift hc hlt).pos (tenMantissa_pos i) h hm
      .positive .positive
    rw [← hdigits, ← hten] at hdiv
    exact congrArg (fun u => Float.ofModel (.pack u)) hdiv

/-- A decimal is read as the float in whose interval it lies. -/
theorem ofScientific_of_absorbs (hc : 0 < c) (h : Binary.Absorbs m e (c * 10 ^ p))
    (hm : Binary.IsCanonical m e) :
    Float.ofScientific c (p < 0) p.natAbs = .ofModel (.pack (.finite .positive m e hm.pos)) := by
  rcases p.lt_or_le 0 with hneg | hnonneg
  · have hpow : (c * 10 ^ p : ℚ) = c / 10 ^ p.natAbs := by
      rw [div_eq_mul_inv, ← zpow_natCast, ← zpow_neg]
      congr 2
      omega
    have hpower : Int.negOfNat p.natAbs = p := by
      rw [Int.negOfNat_eq, Int.ofNat_eq_natCast]
      omega
    rw [Float.ofScientific, decide_eq_true hneg]
    split
    · rename_i hshort
      exact (short_ofScientific hc hshort.1 (Nat.lt_succ_of_le hshort.2) hm).2 (hpow ▸ h)
    · simp only [if_true, hpower, model_ofScientific_of_absorbs hc h hm]
  · have hpow : (c * 10 ^ p : ℚ) = c * 10 ^ p.natAbs := by
      rw [← zpow_natCast]
      congr 2
      omega
    have hpower : Int.ofNat p.natAbs = p := by
      rw [Int.ofNat_eq_natCast]
      omega
    rw [Float.ofScientific, decide_eq_false (not_lt.mpr hnonneg)]
    split
    · rename_i hshort
      exact (short_ofScientific hc hshort.1 (Nat.lt_succ_of_le hshort.2) hm).1 (hpow ▸ h)
    · simp only [Bool.false_eq_true, if_false, hpower, model_ofScientific_of_absorbs hc h hm]

end BenchLog.Number
