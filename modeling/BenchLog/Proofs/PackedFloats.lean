/-
# The bits of a float

A float is a word of sixty-four bits: a sign, eleven bits of exponent and
fifty-two of mantissa. `Binary.ofFloat` reads its value off the word, and the
arithmetic of floats unpacks the same word into a form of its own. Both say the
same (`Packs`), and a form is lost neither by packing it nor by unpacking what
was packed.

Key definitions: `Packs`.
Key theorems: `unpack_pack`, `exists_packs`.
-/
import BenchLog.Proofs.Rounding

namespace BenchLog.Number

open Float.Model Float.Model.UnpackedFloat

/-- Whether a sign is that of negative numbers. -/
def isNegative : Sign → Bool
  | .negative => true
  | .positive => false

/-- The form in which arithmetic unpacks a float, and its value. -/
inductive Packs : UnpackedFloat → Binary → Prop
  | notANumber : Packs .notANumber .notANumber
  | infinity (s : Sign) : Packs (.infinity s) (.infinite (isNegative s))
  | zero (s : Sign) : Packs (.zero s) (.finite (isNegative s) 0 Binary.leastExponent)
  | finite (s : Sign) {m : ℕ} {e : ℤ} (hm : Binary.IsCanonical m e) :
      Packs (.finite s m e hm.pos) (.finite (isNegative s) m e)

/-! ### Words -/

theorem toNat_toBitVec (s : Sign) : s.toBitVec.toNat = if isNegative s then 1 else 0 := by
  cases s <;> rfl

/-- A word as a number. -/
theorem toNat_packComponents (s : Sign) (e : BitVec 11) (m : BitVec 52) :
    (packComponents Format.binary64 s e m).toNat =
      s.toBitVec.toNat * 2 ^ 63 + e.toNat * 2 ^ 52 + m.toNat := by
  have he : e.toNat < 2 ^ 11 := e.isLt
  have hm : m.toNat < 2 ^ 52 := m.isLt
  simp only [packComponents]
  rw [BitVec.toNat_append, BitVec.toNat_append]
  rw [← Nat.shiftLeft_add_eq_or_of_lt he, ← Nat.shiftLeft_add_eq_or_of_lt hm]
  simp only [Nat.shiftLeft_eq]
  ring

/-- The bit in front of a full mantissa is not kept. -/
theorem toNat_one_append (m : BitVec 52) : (1#1 ++ m).toNat = 2 ^ 52 + m.toNat := by
  rw [BitVec.toNat_append, ← Nat.shiftLeft_add_eq_or_of_lt m.isLt, Nat.shiftLeft_eq]
  rfl

/-- A word is made of its parts. -/
theorem exists_packComponents (b : BitVec 64) :
    ∃ s e m, b = packComponents Format.binary64 s e m := by
  have hparts := @packComponents_unpackSign_unpackExponent_unpackMantissa Format.binary64 b
  exact ⟨_, _, _, hparts.symm⟩

/-- What a word of given parts is unpacked to. -/
theorem unpack_packComponents (s : Sign) (e : BitVec 11) (m : BitVec 52) :
    UnpackedFloat.unpack Format.binary64 (packComponents Format.binary64 s e m) =
      if e = -1#11 then
        if m = 0#52 then .infinity s else .notANumber
      else if e = 0#11 then
        if h : m = 0#52 then .zero s
        else .finite s m.toNat (-1074) (by simpa [BitVec.toNat_pos, BitVec.pos_iff_ne_zero])
      else
        .finite s (2 ^ 52 + m.toNat) (e.toNat - 1075) (by omega) := by
  simp only [UnpackedFloat.unpack, unpackMantissa_packComponents, unpackExponent_packComponents,
    unpackSign_packComponents, Sign.ofBitVec_toBitVec, toNat_one_append]
  split
  · rfl
  · split
    · rename_i he
      subst he
      rfl
    · rfl

/-! ### Packing and unpacking -/

section Finite

variable {m : ℕ} {e : ℤ}

theorem pack_normal (s : Sign) (hm : Binary.IsCanonical m e) (hfull : 2 ^ 52 ≤ m) :
    UnpackedFloat.pack Format.binary64 (.finite s m e hm.pos) =
      packComponents Format.binary64 s (.ofNat 11 (e + 1075).toNat) (.ofNat 52 m) := by
  have hlog : m.log2 + 1 = Format.binary64.mantissaBits := by
    have hlow : 52 ≤ m.log2 := (Nat.le_log2 hm.pos.ne').mpr hfull
    have hhigh : m.log2 < 53 := (Nat.log2_lt hm.pos.ne').mpr hm.lt
    change m.log2 + 1 = 53
    omega
  have hmost := hm.most
  have hbias : (e + (Format.binary64.exponentBias : ℤ) +
      (Format.binary64.mantissaBitsWithoutImplicit : ℤ)).toNat = (e + 1075).toNat := by
    congr 1
    simp only [Format.exponentBias]
    norm_num
    ring
  simp only [UnpackedFloat.pack, hbias]
  rw [if_neg (by omega), if_pos hlog]

theorem pack_subnormal (s : Sign) (hm : Binary.IsCanonical m e) (hlt : m < 2 ^ 52) :
    UnpackedFloat.pack Format.binary64 (.finite s m e hm.pos) =
      packComponents Format.binary64 s 0#11 (.ofNat 52 m) := by
  obtain rfl : e = -1074 := hm.full.resolve_left (not_le.mpr hlt)
  have hlog : ¬ m.log2 + 1 = Format.binary64.mantissaBits := by
    have := (Nat.log2_lt hm.pos.ne').mpr hlt
    change ¬ m.log2 + 1 = 53
    omega
  simp only [UnpackedFloat.pack]
  rw [if_neg (by decide), if_neg hlog]

end Finite

/-- What was packed is unpacked again. -/
theorem unpack_pack {u : UnpackedFloat} {b : Binary} (h : Packs u b) :
    (Float.Model.pack u).unpack = u := by
  change UnpackedFloat.unpack Format.binary64 (UnpackedFloat.pack Format.binary64 u) = u
  cases h with
  | notANumber => rfl
  | infinity s => cases s <;> rfl
  | zero s => cases s <;> rfl
  | @finite s m e hm =>
    have hlt := hm.lt
    by_cases hfull : 2 ^ 52 ≤ m
    · have hleast := hm.least
      have hmost := hm.most
      have hbias : (BitVec.ofNat 11 (e + 1075).toNat).toNat = (e + 1075).toNat := by
        rw [BitVec.toNat_ofNat]
        omega
      have hrest : (BitVec.ofNat 52 m).toNat = m - 2 ^ 52 := by
        rw [BitVec.toNat_ofNat]
        omega
      have hones : BitVec.ofNat 11 (e + 1075).toNat ≠ -1#11 := by
        rw [ne_eq, ← BitVec.toNat_inj, hbias]
        change ¬ (e + 1075).toNat = 2047
        omega
      have hzeros : BitVec.ofNat 11 (e + 1075).toNat ≠ 0#11 := by
        rw [ne_eq, ← BitVec.toNat_inj, hbias]
        change ¬ (e + 1075).toNat = 0
        omega
      rw [pack_normal s hm hfull, unpack_packComponents, if_neg hones, if_neg hzeros]
      congr 1
      · omega
      · omega
    · have hlt' : m < 2 ^ 52 := not_le.mp hfull
      have hpos := hm.pos
      obtain rfl : e = -1074 := hm.full.resolve_left hfull
      have hall : (BitVec.ofNat 52 m).toNat = m := by
        rw [BitVec.toNat_ofNat]
        omega
      have hzeros : BitVec.ofNat 52 m ≠ 0#52 := by
        rw [ne_eq, ← BitVec.toNat_inj, hall]
        change ¬ m = 0
        omega
      rw [pack_subnormal s hm hlt', unpack_packComponents, if_neg (by decide), if_pos rfl,
        dif_neg hzeros]
      congr 1

theorem neg_ofModel_pack {u : UnpackedFloat} {b : Binary} (h : Packs u b) :
    -Float.ofModel (.pack u) = .ofModel (.pack u.neg) := by
  change Float.ofModel (.pack (Float.Model.pack u).unpack.neg) = _
  rw [unpack_pack h]

/-! ### Values -/

/-- The value of a word of given parts. -/
theorem ofFloat_of_packComponents {x : Float} {s : Sign} {e : BitVec 11} {m : BitVec 52}
    (h : x.toModel.toBits.toBitVec = packComponents Format.binary64 s e m) :
    Binary.ofFloat x =
      if e.toNat = 2047 then
        if m.toNat = 0 then .infinite (isNegative s) else .notANumber
      else if e.toNat = 0 then
        .finite (isNegative s) m.toNat Binary.leastExponent
      else
        .finite (isNegative s) (Binary.fullMantissa + m.toNat)
          ((e.toNat : ℤ) + Binary.leastExponent - 1) := by
  have hword : x.toBits.toNat =
      (if isNegative s then 1 else 0) * 2 ^ 63 + e.toNat * 2 ^ 52 + m.toNat := by
    rw [← toNat_toBitVec, ← toNat_packComponents, ← h]
    rfl
  have he : e.toNat < 2 ^ 11 := e.isLt
  have hm : m.toNat < 2 ^ 52 := m.isLt
  have hexponent : x.toBits.toNat / Nat.pow 2 52 % Nat.pow 2 11 = e.toNat := by
    rw [hword, Nat.pow_eq, Nat.pow_eq]
    split <;> omega
  have hmantissa : x.toBits.toNat % Nat.pow 2 52 = m.toNat := by
    rw [hword, Nat.pow_eq]
    split <;> omega
  have hsign : (x.toBits.toNat / Nat.pow 2 63 == 1) = isNegative s := by
    rw [hword, Nat.pow_eq]
    cases isNegative s
    · exact beq_eq_false_iff_ne.mpr (by simp; omega)
    · exact beq_iff_eq.mpr (by simp; omega)
  rw [Binary.ofFloat]
  simp only [hexponent, hmantissa, hsign]

/-- Every float is packed from the form that has its value. -/
theorem exists_packs (x : Float) : ∃ u, Packs u (Binary.ofFloat x) ∧ x = .ofModel (.pack u) := by
  have hpack : ∀ u : UnpackedFloat, x.toModel.toBits.toBitVec =
      UnpackedFloat.pack Format.binary64 u → x = .ofModel (.pack u) := by
    intro u hu
    obtain ⟨⟨⟨bits⟩, valid⟩⟩ := x
    cases hu
    rfl
  obtain ⟨s, e, m, hword⟩ := exists_packComponents x.toModel.toBits.toBitVec
  have he : e.toNat < 2 ^ 11 := e.isLt
  have hm : m.toNat < 2 ^ 52 := m.isLt
  rw [ofFloat_of_packComponents hword]
  by_cases hones : e.toNat = 2047
  · obtain rfl : e = -1#11 := BitVec.eq_of_toNat_eq hones
    rw [if_pos hones]
    by_cases hzero : m.toNat = 0
    · obtain rfl : m = 0#52 := BitVec.eq_of_toNat_eq hzero
      rw [if_pos hzero]
      exact ⟨_, .infinity s, hpack _ hword⟩
    · rw [if_neg hzero]
      refine ⟨_, .notANumber, hpack _ (x.toModel.valid.eq_packedNaN ?_ ?_)⟩
      · rw [hword, unpackExponent_packComponents]
      · rw [hword, unpackMantissa_packComponents]
        rintro rfl
        exact hzero rfl
  rw [if_neg hones]
  by_cases hleast : e.toNat = 0
  · obtain rfl : e = 0#11 := BitVec.eq_of_toNat_eq hleast
    rw [if_pos hleast]
    by_cases hzero : m.toNat = 0
    · obtain rfl : m = 0#52 := BitVec.eq_of_toNat_eq hzero
      exact ⟨_, .zero s, hpack _ hword⟩
    · have hcanonical : Binary.IsCanonical m.toNat (-1074) :=
        ⟨Nat.pos_of_ne_zero hzero, by omega, le_rfl, by decide, .inr rfl⟩
      refine ⟨_, .finite s hcanonical, hpack _ ?_⟩
      rw [hword, pack_subnormal s hcanonical hm, BitVec.ofNat_toNat, BitVec.setWidth_eq]
  · rw [if_neg hleast]
    have hcanonical : Binary.IsCanonical (Binary.fullMantissa + m.toNat)
        ((e.toNat : ℤ) + Binary.leastExponent - 1) := by
      simp only [Binary.fullMantissa, Binary.leastExponent, Nat.pow_eq]
      refine ⟨?_, ?_, ?_, ?_, .inl ?_⟩ <;> omega
    refine ⟨_, .finite s hcanonical, hpack _ ?_⟩
    have hexponent : ((e.toNat : ℤ) + Binary.leastExponent - 1 + 1075).toNat = e.toNat := by
      simp only [Binary.leastExponent]
      omega
    have hmantissa : BitVec.ofNat 52 (Binary.fullMantissa + m.toNat) = m := by
      apply BitVec.eq_of_toNat_eq
      rw [BitVec.toNat_ofNat]
      simp only [Binary.fullMantissa, Nat.pow_eq]
      omega
    rw [hword, pack_normal s hcanonical (Nat.le_add_right _ _), hexponent, hmantissa,
      BitVec.ofNat_toNat, BitVec.setWidth_eq]

/-- The finite floats are those with a mantissa and an exponent. -/
theorem exists_ofFloat_eq_finite {x : Float} (h : x.isFinite = true) :
    ∃ negative m e, Binary.ofFloat x = .finite negative m e := by
  obtain ⟨u, hu, hpack⟩ := exists_packs x
  have hfinite : u.isFinite = true :=
    calc u.isFinite = (Float.Model.pack u).unpack.isFinite := by rw [unpack_pack hu]
      _ = x.isFinite := by rw [hpack]; rfl
      _ = true := h
  cases hx : Binary.ofFloat x with
  | notANumber =>
    rw [hx] at hu
    cases hu
    cases hfinite
  | infinite negative =>
    rw [hx] at hu
    cases hu
    cases hfinite
  | finite negative m e => exact ⟨negative, m, e, rfl⟩

end BenchLog.Number
