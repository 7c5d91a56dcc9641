/-
# The shortest decimal lies near the float

The search for the shortest decimal tests points of grids, on a scale of whole
numbers. On the scale of rationals a point that passes lies in the interval of
the float (`inside_iff`), and the finest of the twenty grids is finer than the
interval is wide, so some point passes. What is written for a float is therefore
read as this float.

Key theorems: `Scale.inside_iff`, `exists_absorbs`, `absorbs_shortest`.
-/
import Mathlib.Data.Rat.Floor
import BenchLog.Number.Shortest
import BenchLog.Proofs.NearestFloat

namespace BenchLog.Number

variable {m : ℕ} {e : ℤ}

/-! ### The scale -/

theorem pow_toNat {b : ℚ} (hb : b ≠ 0) (k : ℤ) : b ^ k.toNat = b ^ k * b ^ (-k).toNat := by
  rw [← zpow_natCast, ← zpow_natCast, ← zpow_add₀ hb]
  congr 1
  omega

namespace Scale

/-- The size of the unit that the places of a scale count. -/
def unit (e k : ℤ) : ℚ := 2 ^ (2 - e).toNat * 10 ^ (-k).toNat

theorem unit_pos (e k : ℤ) : 0 < unit e k := by
  unfold unit
  positivity

theorem quarter_of (m : ℕ) (e k : ℤ) : ((of m e k).quarter : ℚ) = 2 ^ e / 4 * unit e k := by
  have hpow : (2 : ℚ) ^ (e - 2) = 2 ^ e / 4 := by
    rw [zpow_sub₀ two_ne_zero]
    norm_num
  simp only [of, unit, Nat.pow_eq]
  push_cast
  rw [pow_toNat two_ne_zero (e - 2), neg_sub, hpow, mul_assoc]

theorem spacing_of (m : ℕ) (e k : ℤ) : ((of m e k).spacing : ℚ) = 10 ^ k * unit e k := by
  simp only [of, unit, Nat.pow_eq]
  push_cast
  rw [pow_toNat (by norm_num) k]
  ring

theorem below_of (m : ℕ) (e k : ℤ) : ((of m e k).below : ℚ) = 4 * Binary.reach m e := by
  by_cases h : m = 2 ^ 52 ∧ -1074 < e
  · have hbelow : (of m e k).below = 1 := if_pos h
    rw [hbelow, Binary.reach, if_pos h]
    norm_num
  · have hbelow : (of m e k).below = 2 := if_neg h
    rw [hbelow, Binary.reach, if_neg h]
    norm_num

theorem below_le (m : ℕ) (e k : ℤ) : (of m e k).below ≤ 2 := by
  simp only [of]
  split <;> omega

/-- A point of a grid passes the test if and only if it lies in the interval of the float. -/
theorem inside_iff (hm : 0 < m) (c : ℕ) (k : ℤ) :
    (of m e k).inside (c * (of m e k).spacing) = true ↔ Binary.Absorbs m e (c * 10 ^ k) := by
  have hunit := unit_pos e k
  have hlow : (((4 * m - (of m e k).below) * (of m e k).quarter : ℕ) : ℚ) =
      (m - Binary.reach m e) * 2 ^ e * unit e k := by
    have := below_le m e k
    rw [Nat.cast_mul, Nat.cast_sub (by omega), below_of, quarter_of]
    push_cast
    ring
  have hhigh : (((4 * m + 2) * (of m e k).quarter : ℕ) : ℚ) =
      (m + 1 / 2) * 2 ^ e * unit e k := by
    rw [Nat.cast_mul, quarter_of]
    push_cast
    ring
  have hplace : ((c * (of m e k).spacing : ℕ) : ℚ) = c * 10 ^ k * unit e k := by
    rw [Nat.cast_mul, spacing_of]
    ring
  have hle : (4 * m - (of m e k).below) * (of m e k).quarter ≤ c * (of m e k).spacing ↔
      (m - Binary.reach m e) * 2 ^ e ≤ (c * 10 ^ k : ℚ) := by
    rw [← Nat.cast_le (α := ℚ), hlow, hplace, mul_le_mul_iff_left₀ hunit]
  have hge : c * (of m e k).spacing ≤ (4 * m + 2) * (of m e k).quarter ↔
      (c * 10 ^ k : ℚ) ≤ (m + 1 / 2) * 2 ^ e := by
    rw [← Nat.cast_le (α := ℚ), hhigh, hplace, mul_le_mul_iff_left₀ hunit]
  have hlt : (4 * m - (of m e k).below) * (of m e k).quarter < c * (of m e k).spacing ↔
      (m - Binary.reach m e) * 2 ^ e < (c * 10 ^ k : ℚ) := by
    rw [← Nat.cast_lt (α := ℚ), hlow, hplace, mul_lt_mul_iff_left₀ hunit]
  have hgt : c * (of m e k).spacing < (4 * m + 2) * (of m e k).quarter ↔
      (c * 10 ^ k : ℚ) < (m + 1 / 2) * 2 ^ e := by
    rw [← Nat.cast_lt (α := ℚ), hhigh, hplace, mul_lt_mul_iff_left₀ hunit]
  have hmantissa : (of m e k).mantissa = m := rfl
  simp only [inside, hmantissa]
  split
  · rename_i heven
    rw [Bool.and_eq_true, decide_eq_true_eq, decide_eq_true_eq, hle, hge]
    exact ⟨fun h => ⟨h.1, h.2, fun hodd => by omega⟩, fun h => ⟨h.lower, h.upper⟩⟩
  · rename_i hodd
    rw [Bool.and_eq_true, decide_eq_true_eq, decide_eq_true_eq, hlt, hgt]
    exact ⟨fun h => ⟨h.1.le, h.2.le, fun _ => h⟩, fun h => h.strict (by omega)⟩

end Scale

/-! ### The finest grid -/

/-- An interval that is wider than the spacing of a grid holds a point of it. -/
theorem exists_absorbs {k : ℤ} (hm : 0 < m) (hk : (10 : ℚ) ^ k < 3 / 4 * 2 ^ e) :
    ∃ c : ℕ, Binary.Absorbs m e (c * 10 ^ k) := by
  have hspacing : (0 : ℚ) < 10 ^ k := by positivity
  have hunit : (0 : ℚ) < 2 ^ e := by positivity
  have hone : (1 : ℚ) ≤ m := by exact_mod_cast hm
  have hreach := Binary.reach_le m e
  have hquarter : (1 : ℚ) / 4 ≤ Binary.reach m e := by
    unfold Binary.reach
    split <;> norm_num
  obtain ⟨low, hlow⟩ : ∃ low : ℚ, (m - Binary.reach m e) * 2 ^ e = low := ⟨_, rfl⟩
  have hnonneg : 0 ≤ low / 10 ^ k := by
    rw [← hlow]
    exact div_nonneg (mul_nonneg (by linarith) hunit.le) hspacing.le
  have habove : low < (⌊low / 10 ^ k⌋₊ + 1 : ℕ) * 10 ^ k := by
    rw [← div_lt_iff₀ hspacing]
    exact_mod_cast Nat.lt_floor_add_one _
  have hbelow : (⌊low / 10 ^ k⌋₊ + 1 : ℕ) * 10 ^ k < (m + 1 / 2) * (2 : ℚ) ^ e :=
    calc ((⌊low / 10 ^ k⌋₊ + 1 : ℕ) * 10 ^ k : ℚ) = ⌊low / 10 ^ k⌋₊ * 10 ^ k + 10 ^ k := by
          push_cast
          ring
      _ ≤ low + 10 ^ k := by
          gcongr
          exact (le_div_iff₀ hspacing).mp (Nat.floor_le hnonneg)
      _ < low + 3 / 4 * 2 ^ e := by gcongr
      _ ≤ (m + 1 / 2) * 2 ^ e := by
          rw [← hlow]
          nlinarith
  exact ⟨⌊low / 10 ^ k⌋₊ + 1, hlow ▸ habove.le, hbelow.le, fun _ => ⟨hlow ▸ habove, hbelow⟩⟩

/-- 30103 of 100000 is near enough to the logarithm of two for the exponents of floats. -/
theorem ten_pow_le_two_pow : ∀ n : Fin 2098,
    Nat.pow 10 (((n.val : ℤ) - 1074) * 30103 / 100000).toNat * Nat.pow 2 (1073 - n.val) ≤
      Nat.pow 2 (n.val - 1073) * Nat.pow 10 (-(((n.val : ℤ) - 1074) * 30103 / 100000)).toNat := by
  decide +kernel

theorem ten_zpow_le {s : ℤ} (hlow : -1074 ≤ s) (hhigh : s ≤ 1023) :
    (10 : ℚ) ^ (s * 30103 / 100000) ≤ 2 ^ (s + 1) := by
  obtain ⟨n, hn⟩ : ∃ n : ℕ, s = n - 1074 := ⟨(s + 1074).toNat, by omega⟩
  obtain ⟨f, hf⟩ : ∃ f, s * 30103 / 100000 = f := ⟨_, rfl⟩
  have hnat := ten_pow_le_two_pow ⟨n, by omega⟩
  simp only [← hn, hf, Nat.pow_eq] at hnat
  have hup : n - 1073 = (s + 1).toNat := by omega
  have hdown : 1073 - n = (-(s + 1)).toNat := by omega
  rw [hup, hdown] at hnat
  have hcast : (10 : ℚ) ^ f.toNat * 2 ^ (-(s + 1)).toNat ≤ 2 ^ (s + 1).toNat * 10 ^ (-f).toNat := by
    exact_mod_cast hnat
  rw [pow_toNat (by norm_num) f, pow_toNat two_ne_zero (s + 1)] at hcast
  have hscale : (0 : ℚ) < 10 ^ (-f).toNat * 2 ^ (-(s + 1)).toNat := by positivity
  rw [hf, ← mul_le_mul_iff_left₀ hscale]
  calc (10 : ℚ) ^ f * (10 ^ (-f).toNat * 2 ^ (-(s + 1)).toNat)
      = 10 ^ f * 10 ^ (-f).toNat * 2 ^ (-(s + 1)).toNat := by ring
    _ ≤ 2 ^ (s + 1) * 2 ^ (-(s + 1)).toNat * 10 ^ (-f).toNat := hcast
    _ = 2 ^ (s + 1) * (10 ^ (-f).toNat * 2 ^ (-(s + 1)).toNat) := by ring

/-- The last of the twenty grids is finer than the interval is wide. -/
theorem finest_spacing_lt (hm : Binary.IsCanonical m e) :
    (10 : ℚ) ^ (topExponent m e - (19 : ℕ)) < 3 / 4 * 2 ^ e := by
  have hlog := log2_le_of_lt hm.lt
  have hleast := hm.least
  have hmost := hm.most
  have hexponent : topExponent m e - (19 : ℕ) = (m.log2 + e) * 30103 / 100000 + -17 := by
    unfold topExponent
    push_cast
    ring
  have hunit : (0 : ℚ) < 2 ^ e := by positivity
  calc (10 : ℚ) ^ (topExponent m e - (19 : ℕ))
      = 10 ^ ((m.log2 + e) * 30103 / 100000) * 10 ^ (-17 : ℤ) := by
        rw [hexponent, zpow_add₀ (by norm_num)]
    _ ≤ 2 ^ ((m.log2 : ℤ) + e + 1) * 10 ^ (-17 : ℤ) := by
        gcongr
        exact ten_zpow_le (by omega) (by omega)
    _ ≤ 2 ^ (53 + e) * 10 ^ (-17 : ℤ) :=
        mul_le_mul_of_nonneg_right (zpow_le_zpow_right₀ one_le_two (by omega)) (by positivity)
    _ = (2 ^ (53 : ℤ) * 10 ^ (-17 : ℤ)) * 2 ^ e := by
        rw [zpow_add₀ two_ne_zero]
        ring
    _ < 3 / 4 * 2 ^ e := mul_lt_mul_of_pos_right (by norm_num) hunit

/-! ### What is found -/

/-- A decimal without its last zero is the same decimal. -/
theorem Decimal.shorten_value (d : Decimal) :
    (d.shorten.coefficient * 10 ^ d.shorten.exponent : ℚ) = d.coefficient * 10 ^ d.exponent := by
  unfold Decimal.shorten
  split
  · rename_i hzero
    have hten : (d.coefficient : ℚ) = (d.coefficient / 10 : ℕ) * 10 := by
      exact_mod_cast (Nat.div_mul_cancel (Nat.dvd_of_mod_eq_zero hzero)).symm
    rw [hten, zpow_add_one₀ (by norm_num)]
    push_cast
    ring
  · rfl

/-- The shortest decimal lies in the interval of its float. -/
theorem absorbs_shortest (tie : Tie) (hm : Binary.IsCanonical m e) :
    Binary.Absorbs m e ((shortest tie m e).coefficient * 10 ^ (shortest tie m e).exponent) := by
  obtain ⟨c, hc⟩ := exists_absorbs hm.pos (finest_spacing_lt hm)
  have hspacing : 0 < (Scale.of m e (topExponent m e - (19 : ℕ))).spacing :=
    Nat.mul_pos (Nat.pow_pos (by norm_num)) (Nat.pow_pos (by norm_num))
  have hfinest : ((Scale.of m e (topExponent m e - (19 : ℕ))).point? tie).isSome = true :=
    Scale.point?_isSome hspacing ((Scale.inside_iff hm.pos c _).mpr hc)
  rw [shortest]
  split
  · rename_i d hd
    obtain ⟨i, -, hgrid⟩ := List.exists_of_findSome?_eq_some hd
    obtain ⟨c, hpoint, rfl⟩ := Option.map_eq_some_iff.mp hgrid
    rw [Decimal.shorten_value]
    exact (Scale.inside_iff hm.pos c _).mp (Scale.inside_of_point? hpoint)
  · rename_i hnone
    have hlast := List.findSome?_eq_none_iff.mp hnone 19 (by decide)
    rw [Option.map_eq_none_iff.mp hlast] at hfinest
    cases hfinest

theorem coefficient_shortest_pos (tie : Tie) (hm : Binary.IsCanonical m e) :
    0 < (shortest tie m e).coefficient := by
  have hpos := (absorbs_shortest tie hm).pos hm
  by_contra hzero
  rw [Nat.eq_zero_of_not_pos hzero, Nat.cast_zero, zero_mul] at hpos
  exact absurd hpos (not_le.mpr (by positivity))

end BenchLog.Number
