/-
# Rounding to the nearest float

A finite float is a mantissa of at most fifty-three bits times a power of two,
and each one stands for an interval of rationals (`Binary.Absorbs`). Arithmetic
cuts an exact value to a whole number of units and keeps two bits of what it
cut off (`Cut`); moving to a coarser unit keeps the bits right, and rounding
gives the nearest whole number, of two equally near ones the even one. So what
lies in the interval of a float is rounded to this float, in whichever way the
exact value is given. The one interval that needs care is that of a power of
two, whose lower end is nearer than the upper one because the floats below are
finer: a value there is cut to the finer unit and then carried over.

Key definitions: `Binary.IsCanonical`, `Binary.Absorbs`, `Nearest`, `Cut`.
Key theorems: `Cut.shiftRight`, `Cut.nearest`, `roundWithAccuracy_of_absorbs`,
`mul_of_absorbs`, `div_of_absorbs`.
-/
import Mathlib
import BenchLog.Number.Binary

namespace BenchLog.Number

open Float.Model Float.Model.UnpackedFloat

/-! ### Intervals -/

namespace Binary

/-- A mantissa and an exponent as a positive finite float has them. -/
structure IsCanonical (m : ℕ) (e : ℤ) : Prop where
  pos : 0 < m
  lt : m < 2 ^ 53
  least : -1074 ≤ e
  most : e ≤ 971
  full : 2 ^ 52 ≤ m ∨ e = -1074

/-- How far the interval of a float reaches down, in units of its mantissa. -/
def reach (m : ℕ) (e : ℤ) : ℚ :=
  if m = 2 ^ 52 ∧ -1074 < e then 1 / 4 else 1 / 2

/-- A value lies in the interval of a float. The ends belong to it if the mantissa is even. -/
structure Absorbs (m : ℕ) (e : ℤ) (v : ℚ) : Prop where
  lower : (m - reach m e) * 2 ^ e ≤ v
  upper : v ≤ (m + 1 / 2) * 2 ^ e
  strict : m % 2 = 1 → (m - reach m e) * 2 ^ e < v ∧ v < (m + 1 / 2) * 2 ^ e

theorem reach_pos (m : ℕ) (e : ℤ) : 0 < reach m e := by
  unfold reach
  split <;> norm_num

theorem reach_le (m : ℕ) (e : ℤ) : reach m e ≤ 1 / 2 := by
  unfold reach
  split <;> norm_num

/-- A float lies in its own interval. -/
theorem absorbs_self (m : ℕ) (e : ℤ) : Absorbs m e (m * 2 ^ e) := by
  have hpow : (0 : ℚ) < 2 ^ e := by positivity
  have hreach := reach_pos m e
  refine ⟨?_, ?_, fun _ => ⟨?_, ?_⟩⟩ <;> nlinarith

end Binary

/-! ### Whole numbers -/

/-- A whole number is nearest to a value, and even if another one is equally near. -/
structure Nearest (y : ℚ) (n : ℕ) : Prop where
  lower : (n : ℚ) - 1 / 2 ≤ y
  upper : y ≤ n + 1 / 2
  even : y = n - 1 / 2 ∨ y = n + 1 / 2 → n % 2 = 0

theorem Nearest.le {y : ℚ} {m n : ℕ} (hm : Nearest y m) (hn : Nearest y n) : m ≤ n := by
  by_contra hlt
  have hle : (n : ℚ) + 1 ≤ m := by exact_mod_cast Nat.lt_of_not_le hlt
  have hlower := hm.lower
  have hupper := hn.upper
  -- Both are as far away as can be, so both are even, but there is none between them.
  have hmeven := hm.even (.inl (by linarith))
  have hneven := hn.even (.inr (by linarith))
  have hge : (m : ℚ) ≤ n + 1 := by linarith
  have hge' : m ≤ n + 1 := by exact_mod_cast hge
  omega

theorem Nearest.unique {y : ℚ} {m n : ℕ} (hm : Nearest y m) (hn : Nearest y n) : m = n :=
  Nat.le_antisymm (hm.le hn) (hn.le hm)

/-- A value in the interval of a float is nearest to its mantissa. -/
theorem Binary.Absorbs.nearest {m : ℕ} {e : ℤ} {v : ℚ} (h : Binary.Absorbs m e v) :
    Nearest (v / 2 ^ e) m := by
  have hpow : (0 : ℚ) < 2 ^ e := by positivity
  have hreach := Binary.reach_le m e
  have hlower : m - Binary.reach m e ≤ v / 2 ^ e := (le_div_iff₀ hpow).mpr h.lower
  have hupper : v / 2 ^ e ≤ m + 1 / 2 := (div_le_iff₀ hpow).mpr h.upper
  refine ⟨by linarith, hupper, fun htie => ?_⟩
  by_contra hodd
  obtain ⟨hlow, hhigh⟩ := h.strict (by omega)
  have hlow' : m - Binary.reach m e < v / 2 ^ e := (lt_div_iff₀ hpow).mpr hlow
  have hhigh' : v / 2 ^ e < m + 1 / 2 := (div_lt_iff₀ hpow).mpr hhigh
  rcases htie with htie | htie <;> linarith

/-! ### Cut values -/

/-- A value is cut to a whole number of units; one bit tells whether half a unit or more
was cut off, the other whether there was more than these halves. -/
structure Cut (y : ℚ) (em : ExtendedMantissa) (rest : ℚ) : Prop where
  eq : y = em.mantissa + rest
  nonneg : 0 ≤ rest
  lt_one : rest < 1
  roundBit : em.roundBit = true ↔ 1 / 2 ≤ rest
  stickyBit : em.stickyBit = true ↔ rest ≠ 0 ∧ rest ≠ 1 / 2

namespace Cut

variable {y rest : ℚ} {em : ExtendedMantissa}

/-- A unit twice as large takes the last bit of the mantissa for its half. -/
theorem shiftRightOne (h : Cut y em rest) :
    Cut (y / 2) em.shiftRightOne (((em.mantissa % 2 : ℕ) + rest) / 2) := by
  have hdiv : (em.mantissa : ℚ) = 2 * (em.mantissa / 2 : ℕ) + (em.mantissa % 2 : ℕ) := by
    exact_mod_cast (Nat.div_add_mod em.mantissa 2).symm
  have hnonneg := h.nonneg
  have hlt := h.lt_one
  have hbits : (em.roundBit || em.stickyBit) = true ↔ rest ≠ 0 := by
    rw [Bool.or_eq_true, h.roundBit, h.stickyBit]
    constructor
    · rintro (hhalf | ⟨hne, -⟩)
      · exact fun hzero => by linarith
      · exact hne
    · intro hne
      by_cases hhalf : rest = 1 / 2
      · exact .inl hhalf.ge
      · exact .inr ⟨hne, hhalf⟩
  have heq := h.eq
  have hbit : (0 : ℚ) ≤ (em.mantissa % 2 : ℕ) ∧ ((em.mantissa % 2 : ℕ) : ℚ) ≤ 1 :=
    ⟨Nat.cast_nonneg _, by exact_mod_cast Nat.le_of_lt_succ (Nat.mod_lt _ two_pos)⟩
  refine ⟨?_, by linarith, by linarith, ?_, ?_⟩
  · simp only [ExtendedMantissa.shiftRightOne]
    linarith
  all_goals
    simp only [ExtendedMantissa.shiftRightOne]
    rcases Nat.mod_two_eq_zero_or_one em.mantissa with hmod | hmod
  · rw [hmod, Nat.cast_zero]
    exact iff_of_false (by simp) (by linarith)
  · rw [hmod, Nat.cast_one]
    exact iff_of_true rfl (by linarith)
  · rw [hbits, hmod, Nat.cast_zero, zero_add]
    refine ⟨fun hne => ⟨by simpa using hne, by linarith⟩, fun hne hzero => hne.1 ?_⟩
    rw [hzero, zero_div]
  · rw [hbits, hmod, Nat.cast_one]
    refine ⟨fun hne => ⟨by linarith, fun hhalf => hne (by linarith)⟩, fun hne hzero => hne.2 ?_⟩
    rw [hzero, add_zero]

/-- Moving to a coarser unit keeps what is known of a value. -/
theorem shiftRight (h : Cut y em rest) (n : ℕ) : ∃ rest', Cut (y / 2 ^ n) (em >>> n) rest' := by
  induction n with
  | zero =>
    refine ⟨rest, ?_⟩
    rw [pow_zero, div_one]
    exact h
  | succ n ih =>
    obtain ⟨rest', ih⟩ := ih
    have hstep := ih.shiftRightOne
    rw [div_div, ← pow_succ] at hstep
    exact ⟨_, hstep⟩

/-- Rounding gives the nearest whole number. -/
theorem nearest (h : Cut y em rest) : Nearest y em.roundedMantissa := by
  obtain ⟨m, r, s⟩ := em
  obtain ⟨heq, hnonneg, hlt, hround, hsticky⟩ := h
  simp only at heq hround hsticky
  cases r <;> cases s
  all_goals
    simp only [Bool.false_eq_true, false_iff, true_iff, not_le, ne_eq, not_and, not_not]
      at hround hsticky
  · -- Nothing was cut off.
    have hzero : rest = 0 := by
      by_contra hne
      have := hsticky hne
      linarith
    subst hzero
    refine ⟨?_, ?_, ?_⟩
    all_goals simp only [ExtendedMantissa.roundedMantissa, ExtendedMantissa.accuracy,
      Accuracy.roundToNearestEven]
    · linarith
    · linarith
    · rintro (htie | htie) <;> linarith
  · refine ⟨?_, ?_, ?_⟩
    all_goals simp only [ExtendedMantissa.roundedMantissa, ExtendedMantissa.accuracy,
      Accuracy.roundToNearestEven]
    · linarith
    · linarith
    · rintro (htie | htie) <;> linarith
  · -- Exactly a half was cut off, and the even neighbour is taken.
    have hhalf : rest = 1 / 2 := hsticky (by linarith)
    subst hhalf
    have heven : (m + m % 2) % 2 = 0 := by omega
    have hle : ((m + m % 2 : ℕ) : ℚ) ≤ m + 1 := by exact_mod_cast (by omega : m + m % 2 ≤ m + 1)
    have hge : (m : ℚ) ≤ (m + m % 2 : ℕ) := by exact_mod_cast (by omega : m ≤ m + m % 2)
    refine ⟨?_, ?_, fun _ => heven⟩
    all_goals simp only [ExtendedMantissa.roundedMantissa, ExtendedMantissa.accuracy,
      Accuracy.roundToNearestEven]
    · linarith
    · linarith
  · refine ⟨?_, ?_, ?_⟩
    all_goals simp only [ExtendedMantissa.roundedMantissa, ExtendedMantissa.accuracy,
      Accuracy.roundToNearestEven]
    all_goals push_cast
    · linarith
    · linarith
    · rintro (htie | htie)
      · exact absurd (by linarith) hsticky.2
      · linarith

/-- What was cut off is less than a unit. -/
theorem floor (h : Cut y em rest) : (em.mantissa : ℚ) ≤ y ∧ y < em.mantissa + 1 := by
  have := h.eq
  have := h.nonneg
  have := h.lt_one
  constructor <;> linarith

theorem exact (m : ℕ) : Cut m (.ofMantissaAndAccuracy m .exact) 0 := by
  refine ⟨?_, le_rfl, one_pos, ?_, ?_⟩ <;> simp [ExtendedMantissa.ofMantissaAndAccuracy]

/-- A quotient is cut to its whole part, and the remainder is compared with a half. -/
theorem ofFraction (m : ℕ) {num den : ℕ} (h : num < den) :
    Cut (m + num / den) (.ofMantissaAndAccuracy m (accuracyOfFraction num den)) (num / den) := by
  have hden : (0 : ℚ) < den := by exact_mod_cast (Nat.zero_le num).trans_lt h
  have hlt : (num : ℚ) / den < 1 := (div_lt_one hden).mpr (by exact_mod_cast h)
  have hnonneg : (0 : ℚ) ≤ num / den := by positivity
  have hzero : (num : ℚ) / den = 0 ↔ num = 0 := by simp [hden.ne']
  have hhalf : (1 : ℚ) / 2 ≤ num / den ↔ den ≤ 2 * num := by
    rw [div_le_div_iff₀ two_pos hden, one_mul, mul_comm]
    exact_mod_cast Iff.rfl
  have hhalf' : (num : ℚ) / den = 1 / 2 ↔ 2 * num = den := by
    rw [div_eq_div_iff hden.ne' two_ne_zero, one_mul, mul_comm]
    exact_mod_cast Iff.rfl
  by_cases hnum : num = 0
  · subst hnum
    simpa [accuracyOfFraction] using exact m
  · rw [accuracyOfFraction, if_neg hnum]
    rcases lt_trichotomy (2 * num) den with hcmp | hcmp | hcmp
    · rw [Nat.compare_eq_lt.mpr hcmp]
      refine ⟨rfl, hnonneg, hlt, iff_of_false (by simp [ExtendedMantissa.ofMantissaAndAccuracy]) ?_,
        iff_of_true rfl ⟨by rwa [ne_eq, hzero], ?_⟩⟩
      · rw [hhalf]
        omega
      · rw [ne_eq, hhalf']
        omega
    · rw [Nat.compare_eq_eq.mpr hcmp]
      refine ⟨rfl, hnonneg, hlt, iff_of_true rfl (hhalf'.mpr hcmp).ge,
        iff_of_false (by simp [ExtendedMantissa.ofMantissaAndAccuracy]) ?_⟩
      exact fun h => h.2 (hhalf'.mpr hcmp)
    · rw [Nat.compare_eq_gt.mpr hcmp]
      refine ⟨rfl, hnonneg, hlt, iff_of_true rfl (hhalf.mpr hcmp.le),
        iff_of_true rfl ⟨by rwa [ne_eq, hzero], ?_⟩⟩
      rw [ne_eq, hhalf']
      omega

end Cut

/-! ### Rounding to a float -/

/-- The exponent of the unit that a mantissa of so many bits is cut to. -/
theorem targetExponent_totalExponent (m : ℕ) (e : ℤ) :
    Format.binary64.targetExponent (totalExponent m e) = max (m.log2 + e - 52) (-1074) := by
  simp only [Format.targetExponent, totalExponent, Format.mantissaBits, Format.minExponent]
  norm_num
  omega

namespace Binary

variable {m : ℕ} {e : ℤ}

/-- A canonical mantissa is cut to the unit that it has. -/
theorem IsCanonical.targetExponent (h : IsCanonical m e) :
    Format.binary64.targetExponent (totalExponent m e) = e := by
  have hlog : m.log2 < 53 := (Nat.log2_lt h.pos.ne').mpr h.lt
  have hleast := h.least
  rw [targetExponent_totalExponent]
  rcases h.full with hfull | rfl
  · have hfull' : 52 ≤ m.log2 := (Nat.le_log2 h.pos.ne').mpr hfull
    omega
  · omega

end Binary

theorem shiftToTargetExponent_eq (m : ℕ) (e : ℤ) (accuracy : Accuracy) {t : ℤ}
    (h : Format.binary64.targetExponent (totalExponent m e) = t) :
    shiftToTargetExponent Format.binary64 m e accuracy =
      (ExtendedMantissa.ofMantissaAndAccuracy m accuracy >>> (t - e).toNat,
        e + (t - e).toNat) := by
  rw [shiftToTargetExponent, h]
  rfl

/-- The powers of two around a value that was cut to a positive mantissa. -/
theorem Cut.two_zpow_le {E : ℤ} {v rest : ℚ} {em : ExtendedMantissa} (h : Cut (v / 2 ^ E) em rest)
    (hpos : 0 < em.mantissa) :
    (2 : ℚ) ^ (em.mantissa.log2 + E) ≤ v ∧ v < 2 ^ (em.mantissa.log2 + 1 + E) := by
  have hunit : (0 : ℚ) < 2 ^ E := by positivity
  obtain ⟨hfloor, hceil⟩ := h.floor
  have hlow : ((2 ^ em.mantissa.log2 : ℕ) : ℚ) ≤ em.mantissa :=
    Nat.cast_le.mpr (Nat.log2_self_le hpos.ne')
  have hhigh : (em.mantissa : ℚ) + 1 ≤ (2 ^ (em.mantissa.log2 + 1) : ℕ) := by
    exact_mod_cast Nat.lt_log2_self
  push_cast at hlow hhigh
  constructor
  · rw [zpow_add₀ two_ne_zero, zpow_natCast, ← le_div_iff₀ hunit]
    exact hlow.trans hfloor
  · rw [zpow_add₀ two_ne_zero, ← div_lt_iff₀ hunit]
    exact hceil.trans_le (by exact_mod_cast hhigh)

/-- Where a value is cut that lies in the interval of a float: at the unit of the float, or
at the next finer one if it lies just below a power of two. -/
theorem Binary.Absorbs.unit {m : ℕ} {e E : ℤ} {v rest : ℚ} {em : ExtendedMantissa}
    (h : Binary.Absorbs m e v) (hm : Binary.IsCanonical m e) (hcut : Cut (v / 2 ^ E) em rest)
    {t : ℤ} (ht : Format.binary64.targetExponent (totalExponent em.mantissa E) = t) (hE : E ≤ t) :
    t = e ∨ t = e - 1 ∧ m = 2 ^ 52 ∧ (2 : ℚ) ^ 53 - 1 / 2 ≤ v / 2 ^ t ∧ v / 2 ^ t < 2 ^ 53 := by
  rw [targetExponent_totalExponent] at ht
  have hunit : (0 : ℚ) < 2 ^ e := by positivity
  have hleast := hm.least
  have hlower := h.lower
  have hreach := Binary.reach_le m e
  have hfull : e ≠ -1074 → (2 ^ 52 : ℚ) ≤ m := fun hne => by
    exact_mod_cast hm.full.resolve_right hne
  rcases Nat.eq_zero_or_pos em.mantissa with hzero | hpos
  · -- Nothing but the rest is left, so the value lies below the finest unit.
    left
    by_contra hne
    have hE' : E ≤ -1074 := by
      rw [hzero, Nat.log2_zero] at ht
      omega
    have he : -1074 < e := by
      rw [hzero, Nat.log2_zero] at ht
      omega
    have hv : v < 2 ^ E := by
      have := hcut.floor.2
      rw [hzero, Nat.cast_zero, zero_add] at this
      exact (div_lt_one (by positivity)).mp this
    have hle : (2 : ℚ) ^ E ≤ 2 ^ e := zpow_le_zpow_right₀ one_le_two (by omega)
    have := hfull he.ne'
    nlinarith
  · obtain ⟨hlow, hhigh⟩ := hcut.two_zpow_le hpos
    have hlt : (m : ℚ) + 1 ≤ 2 ^ 53 := by exact_mod_cast hm.lt
    have hle : t ≤ e := by
      by_contra hgt
      have hge : (2 : ℚ) ^ (e + 53) ≤ 2 ^ (em.mantissa.log2 + E) :=
        zpow_le_zpow_right₀ one_le_two (by omega)
      rw [zpow_add₀ two_ne_zero] at hge
      have hupper := h.upper
      norm_num at hge hlt
      nlinarith
    by_cases he : e = -1074
    · left
      omega
    have hm52 := hfull he
    by_cases hpower : m = 2 ^ 52
    · have hquarter : Binary.reach m e = 1 / 4 := if_pos ⟨hpower, by omega⟩
      rw [hquarter, hpower] at hlower
      push_cast at hlower
      have hexp : e + 51 < em.mantissa.log2 + 1 + E := by
        rw [← zpow_lt_zpow_iff_right₀ (one_lt_two (α := ℚ)), zpow_add₀ two_ne_zero]
        norm_num at hlower ⊢
        nlinarith
      by_cases hte : t = e
      · exact .inl hte
      right
      obtain rfl : t = e - 1 := by omega
      have hhalf : (2 : ℚ) ^ (e - 1) = 2 ^ e / 2 := by
        rw [zpow_sub_one₀ two_ne_zero, div_eq_mul_inv]
      have hv : v < 2 ^ e * 2 ^ 52 := by
        refine hhigh.trans_le ?_
        rw [← zpow_natCast, ← zpow_add₀ two_ne_zero]
        exact zpow_le_zpow_right₀ one_le_two (by omega)
      refine ⟨rfl, hpower, ?_, ?_⟩
      · rw [hhalf, le_div_iff₀ (by positivity)]
        norm_num at hlower ⊢
        nlinarith
      · rw [hhalf, div_lt_iff₀ (by positivity)]
        norm_num at hv ⊢
        nlinarith
    · left
      have hgt : ((2 ^ 52 + 1 : ℕ) : ℚ) ≤ m :=
        Nat.cast_le.mpr (Nat.lt_of_le_of_ne (by exact_mod_cast hm52) (Ne.symm hpower))
      push_cast at hgt
      have hexp : e + 52 < em.mantissa.log2 + 1 + E := by
        rw [← zpow_lt_zpow_iff_right₀ (one_lt_two (α := ℚ)), zpow_add₀ two_ne_zero]
        norm_num
        nlinarith
      omega

theorem roundWithAccuracy_eq {s : Sign} {M m : ℕ} {E e t : ℤ} {accuracy : Accuracy}
    {cut : ExtendedMantissa}
    (hcut : shiftToTargetExponent Format.binary64 M E accuracy = (cut, t))
    {carried : ExtendedMantissa}
    (hcarry : shiftToTargetExponent Format.binary64 cut.roundedMantissa t .exact = (carried, e))
    (hm : carried.mantissa = m) (hpos : 0 < m) :
    roundWithAccuracy Format.binary64 s M E accuracy = .finite s m e hpos := by
  subst hm
  simp only [roundWithAccuracy, hcut, hcarry, hpos.ne', dif_neg, not_false_eq_true]

/-- What lies in the interval of a float is rounded to it. -/
theorem roundWithAccuracy_of_absorbs {m M : ℕ} {e E : ℤ} {v rest : ℚ} {accuracy : Accuracy}
    (h : Binary.Absorbs m e v) (hm : Binary.IsCanonical m e)
    (hcut : Cut (v / 2 ^ E) (.ofMantissaAndAccuracy M accuracy) rest)
    (hE : E ≤ Format.binary64.targetExponent (totalExponent M E)) (s : Sign) :
    roundWithAccuracy Format.binary64 s M E accuracy = .finite s m e hm.pos := by
  obtain ⟨t, ht⟩ : ∃ t, Format.binary64.targetExponent (totalExponent M E) = t := ⟨_, rfl⟩
  rw [ht] at hE
  have hsum : E + ((t - E).toNat : ℤ) = t := by omega
  have hpow : v / 2 ^ E / 2 ^ (t - E).toNat = v / 2 ^ t := by
    rw [div_div, ← zpow_natCast, ← zpow_add₀ two_ne_zero, hsum]
  obtain ⟨rest', hcut'⟩ := hcut.shiftRight (t - E).toNat
  rw [hpow] at hcut'
  have hmantissa : (ExtendedMantissa.ofMantissaAndAccuracy M accuracy).mantissa = M := by
    unfold ExtendedMantissa.ofMantissaAndAccuracy
    split <;> rfl
  have hfirst := shiftToTargetExponent_eq M E accuracy ht
  rw [hsum] at hfirst
  rcases h.unit hm hcut (hmantissa.symm ▸ ht) hE with rfl | ⟨rfl, rfl, hlow, hhigh⟩
  · have hround := hcut'.nearest.unique h.nearest
    have hcarry := shiftToTargetExponent_eq m t .exact hm.targetExponent
    rw [sub_self, Int.toNat_zero, Nat.cast_zero, add_zero] at hcarry
    exact roundWithAccuracy_eq hfirst
      ((congrArg (shiftToTargetExponent _ · t _) hround).trans hcarry) rfl hm.pos
  · -- The carry makes one bit too many, and the last bit of the mantissa is zero.
    have hround := hcut'.nearest.unique (n := 2 ^ 53)
      ⟨by push_cast; exact hlow, by push_cast; linarith, fun _ => by decide⟩
    have htarget : Format.binary64.targetExponent (totalExponent (2 ^ 53) (e - 1)) = e := by
      rw [targetExponent_totalExponent, Nat.log2_two_pow]
      have := hm.least
      omega
    have hcarry := shiftToTargetExponent_eq (2 ^ 53) (e - 1) .exact htarget
    rw [sub_sub_cancel, Int.toNat_one, Nat.cast_one, sub_add_cancel] at hcarry
    exact roundWithAccuracy_eq hfirst
      ((congrArg (shiftToTargetExponent _ · (e - 1) _) hround).trans hcarry) rfl hm.pos

/-! ### Arithmetic -/

section Arithmetic

variable {m m₁ m₂ : ℕ} {e e₁ e₂ : ℤ} (h₁ : 0 < m₁) (h₂ : 0 < m₂)

/-- A product is rounded to the float in whose interval the exact product lies. -/
theorem mul_of_absorbs (h : Binary.Absorbs m e (m₁ * 2 ^ e₁ * (m₂ * 2 ^ e₂)))
    (hm : Binary.IsCanonical m e) (hlarge : 2 ^ 52 ≤ m₁ * m₂) (s₁ s₂ : Sign) :
    UnpackedFloat.mul Format.binary64 (.finite s₁ m₁ e₁ h₁) (.finite s₂ m₂ e₂ h₂) =
      .finite (s₁ * s₂) m e hm.pos := by
  have hunits : (m₁ * 2 ^ e₁ * (m₂ * 2 ^ e₂) : ℚ) / 2 ^ (e₁ + e₂) = (m₁ * m₂ : ℕ) := by
    rw [zpow_add₀ two_ne_zero]
    push_cast
    field_simp
  have hlog : 52 ≤ (m₁ * m₂).log2 := (Nat.le_log2 (Nat.mul_pos h₁ h₂).ne').mpr hlarge
  refine roundWithAccuracy_of_absorbs h hm (hunits ▸ Cut.exact (m₁ * m₂)) ?_ (s₁ * s₂)
  rw [targetExponent_totalExponent]
  omega

/-- A quotient is rounded to the float in whose interval the exact quotient lies. -/
theorem div_of_absorbs (h : Binary.Absorbs m e (m₁ * 2 ^ e₁ / (m₂ * 2 ^ e₂)))
    (hm : Binary.IsCanonical m e) (s₁ s₂ : Sign) :
    UnpackedFloat.div Format.binary64 (.finite s₁ m₁ e₁ h₁) (.finite s₂ m₂ e₂ h₂) =
      .finite (s₁ / s₂) m e hm.pos := by
  obtain ⟨E, hE⟩ : ∃ E, min (e₁ - e₂) (Format.binary64.targetExponent
      (totalExponent m₁ e₁ - totalExponent m₂ e₂)) = E := ⟨_, rfl⟩
  obtain ⟨shift, hshift⟩ : ∃ shift, (e₁ - e₂ - E).toNat = shift := ⟨_, rfl⟩
  have hcore : divCore Format.binary64 m₁ e₁ m₂ e₂ =
      (m₁ * 2 ^ shift / m₂, E, accuracyOfFraction (m₁ * 2 ^ shift % m₂) m₂) := by
    simp only [divCore, hE, hshift, Nat.shiftLeft_eq]
  have hexp : (shift : ℤ) = e₁ - e₂ - E := by omega
  have hden : (0 : ℚ) < m₂ := by exact_mod_cast h₂
  have hunits : (m₁ * 2 ^ e₁ / (m₂ * 2 ^ e₂) : ℚ) / 2 ^ E =
      (m₁ * 2 ^ shift / m₂ : ℕ) + ((m₁ * 2 ^ shift % m₂ : ℕ) : ℚ) / m₂ := by
    have hsplit : ((m₁ * 2 ^ shift : ℕ) : ℚ) =
        m₂ * (m₁ * 2 ^ shift / m₂ : ℕ) + (m₁ * 2 ^ shift % m₂ : ℕ) := by
      exact_mod_cast (Nat.div_add_mod (m₁ * 2 ^ shift) m₂).symm
    have hpow : (2 : ℚ) ^ shift = 2 ^ e₁ / 2 ^ e₂ / 2 ^ E := by
      rw [← zpow_natCast, hexp, zpow_sub₀ two_ne_zero, zpow_sub₀ two_ne_zero]
    calc (m₁ * 2 ^ e₁ / (m₂ * 2 ^ e₂) : ℚ) / 2 ^ E = (m₁ * 2 ^ shift : ℕ) / m₂ := by
          push_cast
          rw [hpow]
          field_simp
      _ = _ := by
          rw [hsplit]
          field_simp
  simp only [UnpackedFloat.div, hcore]
  refine roundWithAccuracy_of_absorbs h hm (hunits ▸ Cut.ofFraction _ (Nat.mod_lt _ h₂)) ?_ _
  -- The quotient has all bits of a mantissa, or the unit is the finest one.
  rw [targetExponent_totalExponent]
  by_cases hleast : E ≤ -1074
  · omega
  have hfirst : 2 ^ m₁.log2 ≤ m₁ := Nat.log2_self_le h₁.ne'
  have hsecond : m₂ < 2 ^ (m₂.log2 + 1) := Nat.lt_log2_self
  have hbits : m₂.log2 + 1 + 52 ≤ m₁.log2 + shift := by
    simp only [Format.targetExponent, totalExponent, Format.mantissaBits, Format.minExponent] at hE
    norm_num at hE
    omega
  have hlarge : 2 ^ 52 ≤ m₁ * 2 ^ shift / m₂ := by
    rw [Nat.le_div_iff_mul_le h₂]
    calc 2 ^ 52 * m₂ ≤ 2 ^ 52 * 2 ^ (m₂.log2 + 1) := Nat.mul_le_mul_left _ hsecond.le
      _ = 2 ^ (m₂.log2 + 1 + 52) := by rw [← Nat.pow_add, Nat.add_comm]
      _ ≤ 2 ^ (m₁.log2 + shift) := Nat.pow_le_pow_right two_pos hbits
      _ = 2 ^ m₁.log2 * 2 ^ shift := Nat.pow_add 2 _ _
      _ ≤ m₁ * 2 ^ shift := Nat.mul_le_mul_right _ hfirst
  have hlog : 52 ≤ (m₁ * 2 ^ shift / m₂).log2 :=
    (Nat.le_log2 (Nat.pos_of_ne_zero fun h => by simp [h] at hlarge).ne').mpr hlarge
  omega

end Arithmetic

end BenchLog.Number
