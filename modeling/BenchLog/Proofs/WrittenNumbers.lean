/-
# Numbers as written

A float is written as digits with a point, with an exponent, or with both; the
styles differ in where the point goes. Whatever the style does, the text is a
numeral (`NumeralText`) that stands for the decimal that was to be written, and
no whole number: a cell with it is one of floats. The decimal that was chosen
lies near its float, so every float is read back from its text.

Key definitions: `ExponentText`, `NumeralText`, `Numeral.rational`,
`NumeralText.Spells`.
Key theorems: `NumeralText.float?_text`, `NumeralText.kind_text`,
`Style.exists_spells_decimal`, `Style.float?_float`, `Style.kind_float`.
-/
import BenchLog.Number.Notation
import BenchLog.Proofs.ShortestDecimal
import BenchLog.Proofs.WrittenLog
import BenchLog.Table.Cell

namespace BenchLog

/-! ### Numerals -/

theorem Digits.isDecimalDigit_of_mem (ds : Digits) :
    ∀ c ∈ ds.chars, Text.isDecimalDigit c = true :=
  fun c hc => Text.isDecimalDigit_of_isDigit (List.all_eq_true.mp ds.all_isDigit c hc)

/-- What may stand between the letter and the digits of an exponent. -/
inductive ExponentSign where
  | none
  | plus
  | minus

/-- The text of the sign of an exponent. -/
def ExponentSign.text : ExponentSign → List Char
  | none => []
  | plus => ['+']
  | minus => ['-']

/-- An exponent as written. -/
structure ExponentText where
  sign : ExponentSign
  digits : Digits

/-- A numeral as written: a decimal, and an exponent if there is one. -/
structure NumeralText where
  decimal : DecimalText
  exponent : Option ExponentText

namespace ExponentText

/-- The text of an exponent: `e-7`. -/
def text (e : ExponentText) : List Char :=
  'e' :: (e.sign.text ++ e.digits.chars)

/-- The number that an exponent stands for. -/
def value (e : ExponentText) : ℤ :=
  match e.sign with
  | .minus => -(Number.natOf e.digits.chars : ℤ)
  | _ => Number.natOf e.digits.chars

theorem sign_chars (e : ExponentText) :
    Number.sign (e.sign.text ++ e.digits.chars) = (e.sign matches .minus, e.digits.chars) := by
  obtain ⟨sign, ⟨digits, hne, hall⟩⟩ := e
  obtain ⟨c, cs, rfl⟩ := List.exists_cons_of_ne_nil hne
  cases sign with
  | none =>
    have hdigit := Text.isDecimalDigit_of_isDigit (List.all_eq_true.mp hall c List.mem_cons_self)
    exact Number.sign_of_isDecimalDigit hdigit cs
  | plus => rfl
  | minus => rfl

theorem exponent?_text (e : ExponentText) : Number.exponent? e.text = some e.value := by
  rw [text, Number.exponent?, if_pos (.inl rfl), sign_chars]
  simp only [ne_eq, e.digits.ne_nil, not_false_eq_true, e.digits.all_isDigit, and_self, if_true]
  obtain ⟨sign, digits⟩ := e
  cases sign <;> rfl

theorem isExponent_text (e : ExponentText) : Cell.isExponent e.text = true := by
  have hdigits := List.all_eq_true.mpr e.digits.isDecimalDigit_of_mem
  rw [text, Cell.isExponent, sign_chars]
  simp [e.digits.ne_nil, hdigits]

end ExponentText

/-- The rational that a numeral stands for. -/
def Number.Numeral.rational (n : Number.Numeral) : ℚ :=
  Number.natOf (n.whole ++ n.fraction) * 10 ^ (n.exponent - n.fraction.length)

/-- A numeral has the value of the float that its rational is near to. -/
theorem Number.Numeral.value_of_absorbs {n : Number.Numeral} {m : ℕ} {e : ℤ}
    (h : Number.Binary.Absorbs m e n.rational) (hm : Number.Binary.IsCanonical m e) :
    n.value = .ofModel (.pack (.finite .positive m e hm.pos)) := by
  have hpos : 0 < Number.natOf (n.whole ++ n.fraction) := by
    by_contra hzero
    have hleast := h.pos hm
    rw [Numeral.rational, Nat.eq_zero_of_not_pos hzero, Nat.cast_zero, zero_mul] at hleast
    exact absurd hleast (not_le.mpr (by positivity))
  exact Number.ofScientific_of_absorbs hpos h hm

namespace NumeralText

/-- The text of a numeral. -/
def text (n : NumeralText) : List Char :=
  n.decimal.text ++ n.exponent.elim [] (·.text)

/-- The parts of a numeral. -/
def numeral (n : NumeralText) : Number.Numeral :=
  ⟨n.decimal.whole.chars, n.decimal.fraction.elim [] (·.chars), n.exponent.elim 0 (·.value)⟩

/-- Whether there is a point or an exponent. -/
def IsFloat (n : NumeralText) : Prop :=
  n.decimal.fraction.isSome ∨ n.exponent.isSome

/-- Whether no zero stands in front of another digit. -/
def HasPlainWhole (n : NumeralText) : Prop :=
  n.decimal.whole.chars = ['0'] ∨ n.decimal.whole.chars.head? ≠ some '0'

theorem exists_text_cons (n : NumeralText) : ∃ c cs, n.text = c :: cs ∧ c.isDigit = true := by
  obtain ⟨c, cs, hcs, hc⟩ := n.decimal.exists_text_cons
  exact ⟨c, cs ++ n.exponent.elim [] (·.text), by rw [text, hcs, List.cons_append], hc⟩

/-- No digit stands behind the digits. -/
theorem head?_exponent (e : Option ExponentText) :
    ∀ c, (e.elim [] (·.text)).head? = some c → c = 'e' := by
  cases e with
  | none => simp
  | some e => exact fun c hc => (Option.some.inj hc).symm

theorem numeral?_text (n : NumeralText) : Number.numeral? n.text = some n.numeral := by
  obtain ⟨⟨whole, fraction⟩, exponent⟩ := n
  have hwhole := List.all_eq_true.mp whole.all_isDigit
  have hexponent : Number.exponent? (exponent.elim [] (·.text)) =
      some (exponent.elim 0 (·.value)) := by
    cases exponent with
    | none => rfl
    | some e => exact e.exponent?_text
  have htail : ∀ c, (exponent.elim [] (·.text)).head? = some c → c.isDigit = false ∧ c ≠ '.' :=
    fun c hc => by rw [head?_exponent exponent c hc]; decide
  cases fraction with
  | none =>
    have hread := Number.numeral?_whole _ hwhole whole.ne_nil htail
    rw [hexponent] at hread
    simpa [text, DecimalText.text, numeral] using hread
  | some fraction =>
    have hread := Number.numeral?_point (exponent.elim [] (·.text)) hwhole
      (List.all_eq_true.mp fraction.all_isDigit) (by simp [whole.ne_nil])
      (fun c hc => (htail c hc).1)
    rw [hexponent] at hread
    simpa [text, DecimalText.text, numeral] using hread

/-- A numeral with its sign is read as the float nearest to it. -/
theorem float?_text (n : NumeralText) (negative : Bool) :
    Number.float? ((if negative then ['-'] else []) ++ n.text) =
      some (Number.signed negative n.numeral.value) := by
  obtain ⟨c, cs, hcs, hc⟩ := n.exists_text_cons
  have hdigit : Text.isDecimalDigit c = true := Text.isDecimalDigit_of_isDigit hc
  cases negative with
  | false =>
    rw [if_neg Bool.false_ne_true, List.nil_append, hcs, Number.float?_of_isDecimalDigit hdigit,
      ← hcs, numeral?_text]
    rfl
  | true =>
    rw [if_pos rfl, List.singleton_append, hcs, Number.float?_minus_of_isDecimalDigit hdigit,
      ← hcs, numeral?_text]
    rfl

/-! ### Cells -/

theorem dropMinus_text (n : NumeralText) (negative : Bool) :
    Cell.dropMinus ((if negative then ['-'] else []) ++ n.text) = n.text := by
  obtain ⟨c, cs, hcs, hc⟩ := n.exists_text_cons
  cases negative with
  | false =>
    have hminus : c ≠ '-' := Text.ne_of_isDigit hc (by decide)
    simp [hcs, Cell.dropMinus, hminus]
  | true => rfl

theorem hasBooleanForm_text (n : NumeralText) (negative : Bool) :
    Cell.hasBooleanForm ((if negative then ['-'] else []) ++ n.text) = false := by
  have hnone : ∀ c cs, Text.sameLetter 't' c = false → Text.sameLetter 'f' c = false →
      Cell.hasBooleanForm (c :: cs) = false := by
    intro c cs ht hf
    have htrue : Text.literalFold "true" (c :: cs) = none := if_neg (ht ▸ Bool.false_ne_true)
    have hfalse : Text.literalFold "false" (c :: cs) = none := if_neg (hf ▸ Bool.false_ne_true)
    rw [Cell.hasBooleanForm, htrue, hfalse]
    rfl
  obtain ⟨c, cs, hcs, hc⟩ := n.exists_text_cons
  cases negative with
  | false =>
    rw [if_neg Bool.false_ne_true, List.nil_append, hcs]
    exact hnone c cs
      (Bool.not_eq_true' _ |>.mp (Text.of_isDigit (fun c => !Text.sameLetter 't' c) (by decide) hc))
      (Bool.not_eq_true' _ |>.mp (Text.of_isDigit (fun c => !Text.sameLetter 'f' c) (by decide) hc))
  | true => exact hnone '-' n.text rfl rfl

/-- What stands behind the whole digits. -/
def tail (n : NumeralText) : List Char :=
  n.decimal.fraction.elim [] (fun ds => '.' :: ds.chars) ++ n.exponent.elim [] (·.text)

theorem text_eq_append (n : NumeralText) : n.text = n.decimal.whole.chars ++ n.tail :=
  List.append_assoc _ _ _

/-- A digit in any script is none of the characters behind the digits. -/
theorem isDecimalDigit_head?_tail {n : NumeralText} {c : Char} (h : n.tail.head? = some c) :
    Text.isDecimalDigit c = false := by
  obtain ⟨⟨whole, fraction⟩, exponent⟩ := n
  cases fraction with
  | none => rw [head?_exponent exponent c h]; decide
  | some fraction => rw [← Option.some.inj h]; decide

theorem span_text (n : NumeralText) :
    n.text.takeWhile Text.isDecimalDigit = n.decimal.whole.chars ∧
      n.text.dropWhile Text.isDecimalDigit = n.tail := by
  rw [text_eq_append]
  exact Text.span_append n.decimal.whole.isDecimalDigit_of_mem _ fun c hc =>
    isDecimalDigit_head?_tail hc

theorem hasIntegerForm_text {n : NumeralText} (h : n.IsFloat) (negative : Bool) :
    Cell.hasIntegerForm ((if negative then ['-'] else []) ++ n.text) = false := by
  obtain ⟨c, cs, hcs⟩ : ∃ c cs, n.tail = c :: cs := by
    obtain ⟨⟨whole, fraction⟩, exponent⟩ := n
    cases fraction with
    | some fraction => exact ⟨_, _, rfl⟩
    | none => cases exponent with
      | some exponent => exact ⟨_, _, rfl⟩
      | none => exact absurd h (by simp [IsFloat])
  have hc : Text.isDecimalDigit c = false := isDecimalDigit_head?_tail (by rw [hcs]; rfl)
  rw [Cell.hasIntegerForm, dropMinus_text, text_eq_append, hcs]
  simp [hc]

theorem hasDecimalForm_text {n : NumeralText} (h : n.IsFloat) (negative : Bool) :
    Cell.hasDecimalForm ((if negative then ['-'] else []) ++ n.text) = true := by
  obtain ⟨htake, hdrop⟩ := n.span_text
  simp only [Cell.hasDecimalForm, dropMinus_text, htake, hdrop]
  obtain ⟨⟨whole, fraction⟩, exponent⟩ := n
  cases fraction with
  | none => cases exponent with
    | none => exact absurd h (by simp [IsFloat])
    | some exponent =>
      change (!whole.chars.isEmpty && Cell.isExponent exponent.text) = true
      simp [whole.ne_nil, exponent.isExponent_text]
  | some fraction =>
    have htail : tail ⟨⟨whole, some fraction⟩, exponent⟩ =
      '.' :: (fraction.chars ++ exponent.elim [] (·.text)) := rfl
    obtain ⟨htake', hdrop'⟩ := Text.span_append fraction.isDecimalDigit_of_mem
      (exponent.elim [] (·.text)) fun c hc => by rw [head?_exponent exponent c hc]; decide
    rw [htail]
    simp only [htake', hdrop']
    cases exponent with
    | none => simp [whole.ne_nil]
    | some exponent => simp [whole.ne_nil, exponent.isExponent_text]

/-- A cell with a point or an exponent is one of floats. -/
theorem kind_text {n : NumeralText} (h : n.IsFloat) (negative : Bool) :
    Cell.kind ((if negative then ['-'] else []) ++ n.text) = .float64 := by
  rw [Cell.kind, hasBooleanForm_text, hasIntegerForm_text h, hasDecimalForm_text h]
  rfl

end NumeralText

/-! ### Digits of natural numbers -/

namespace Number

theorem isDigit_of_mem_replicate {count : ℕ} {c : Char} (h : c ∈ List.replicate count '0') :
    c.isDigit = true := by
  rw [List.eq_of_mem_replicate h]
  rfl

theorem natOf_replicate (count : ℕ) : natOf (List.replicate count '0') = 0 := by
  induction count with
  | zero => rfl
  | succ count ih => rw [List.replicate_succ', natOf_append, ih, Nat.zero_mul]; rfl

theorem natDigits_ne_nil (n : ℕ) : natDigits n ≠ [] :=
  Nat.toDigits_ne_nil

theorem natOf_natDigits (n : ℕ) : natOf (natDigits n) = n :=
  natOf_toDigits n

theorem isDigit_of_mem_natDigits {n : ℕ} {c : Char} (h : c ∈ natDigits n) : c.isDigit = true :=
  Nat.isDigit_of_mem_toDigits (by decide) (by decide) h

/-- The digits of a number begin with a zero only if the number is zero. -/
theorem head?_natDigits {n : ℕ} (h : 0 < n) : (natDigits n).head? ≠ some '0' := by
  induction n using Nat.strongRecOn with
  | _ n ih =>
    rcases Nat.lt_or_ge n 10 with hlt | hge
    · rw [natDigits, Nat.toDigits_of_lt_base hlt]
      interval_cases n <;> decide
    · rw [natDigits, Nat.toDigits_of_base_le (by decide) hge,
        List.head?_append_of_ne_nil _ Nat.toDigits_ne_nil]
      exact ih (n / 10) (by omega) (by omega)

end Number

/-- A natural number as a numeral. -/
def NumeralText.ofNat (n : ℕ) : NumeralText :=
  ⟨⟨.ofNat n, none⟩, none⟩

theorem NumeralText.text_ofNat (n : ℕ) : (ofNat n).text = Number.natDigits n := by
  simp [text, ofNat, DecimalText.text, Digits.ofNat, Number.natDigits]

theorem NumeralText.hasPlainWhole_ofNat (n : ℕ) : (ofNat n).HasPlainWhole := by
  rcases Nat.eq_zero_or_pos n with rfl | hn
  · exact .inl rfl
  · exact .inr (Number.head?_natDigits hn)

namespace Cell

theorem int64?_natDigits {n : ℕ} (h : n < Nat.pow 2 63) :
    int64? (Number.natDigits n) = some (n : ℤ) := by
  obtain ⟨c, cs, hcs, hc⟩ := (NumeralText.ofNat n).exists_text_cons
  rw [NumeralText.text_ofNat] at hcs
  have hbelow : Number.natBelow? (Nat.pow 2 63) (Number.natDigits n) = some n :=
    Number.natBelow?_toDigits h
  rw [int64?, hcs, Number.sign_of_isDecimalDigit (Text.isDecimalDigit_of_isDigit hc), ← hcs]
  simp only [Option.bind_eq_bind, Option.bind_some, Bool.false_eq_true, if_false, hbelow]

/-- A cell with a natural number is one of whole numbers. -/
theorem kind_natDigits {n : ℕ} (h : n < Nat.pow 2 63) : kind (Number.natDigits n) = .int64 := by
  have hboolean := (NumeralText.ofNat n).hasBooleanForm_text false
  have hminus := (NumeralText.ofNat n).dropMinus_text false
  rw [if_neg Bool.false_ne_true, List.nil_append, NumeralText.text_ofNat] at hboolean hminus
  have hinteger : hasIntegerForm (Number.natDigits n) = true := by
    have hdigits := List.all_eq_true.mpr (Digits.ofNat n).isDecimalDigit_of_mem
    change (Number.natDigits n).all Text.isDecimalDigit = true at hdigits
    simp [hasIntegerForm, hminus, Number.natDigits_ne_nil, hdigits]
  rw [kind, hboolean, hinteger, int64?_natDigits h]
  simp

end Cell

/-! ### Decimals in a style -/

/-- What a text for a positive rational is like: a numeral of this rational that
is seen to be no whole number. -/
structure NumeralText.Spells (n : NumeralText) (cs : List Char) (v : ℚ) : Prop where
  text_eq : n.text = cs
  rational_eq : n.numeral.rational = v
  isFloat : n.IsFloat
  hasPlainWhole : n.HasPlainWhole

namespace Number.Style

variable {c : ℕ} {k : ℤ}

/-- A run of digits with at least one in it. -/
def digitsOf (ds : List Char) (hne : ds ≠ []) (h : ∀ c ∈ ds, c.isDigit = true) : Digits :=
  ⟨ds, hne, List.all_eq_true.mpr h⟩

/-- The point stands in front of all digits. -/
theorem spells_front (zeros : ℕ) (hk : ((natDigits c).length : ℤ) + k = -zeros) :
    ∃ n : NumeralText, n.Spells (['0', '.'] ++ List.replicate zeros '0' ++ natDigits c)
      (c * 10 ^ k) := by
  have hfraction : ∀ d ∈ List.replicate zeros '0' ++ natDigits c, d.isDigit = true := by
    intro d hd
    rcases List.mem_append.mp hd with hd | hd
    · exact isDigit_of_mem_replicate hd
    · exact isDigit_of_mem_natDigits hd
  refine ⟨⟨⟨⟨['0'], by simp, rfl⟩,
    some (digitsOf _ (by simp [natDigits]) hfraction)⟩, none⟩, ?_, ?_, .inl rfl, .inl rfl⟩
  · simp [NumeralText.text, DecimalText.text, digitsOf]
  · have hvalue : natOf (['0'] ++ (List.replicate zeros '0' ++ natDigits c)) = c := by
      rw [natOf_append, natOf_append, natOf_replicate, natOf_natDigits]
      simp [natOf]
    simp only [NumeralText.numeral, Numeral.rational, digitsOf, Option.elim, hvalue]
    congr 2
    simp
    omega

/-- The point stands between two digits. -/
theorem spells_inside (hc : 0 < c) {point : ℕ} (hpos : 0 < point)
    (hlt : point < (natDigits c).length) (hk : ((natDigits c).length : ℤ) + k = point) :
    ∃ n : NumeralText, n.Spells ((natDigits c).take point ++ '.' :: (natDigits c).drop point)
      (c * 10 ^ k) := by
  have hwhole : (natDigits c).take point ≠ [] := by
    simp [natDigits, hpos.ne']
  have hfraction : (natDigits c).drop point ≠ [] := by
    simpa using hlt
  refine ⟨⟨⟨digitsOf _ hwhole fun d hd => isDigit_of_mem_natDigits (List.mem_of_mem_take hd),
    some (digitsOf _ hfraction fun d hd => isDigit_of_mem_natDigits (List.mem_of_mem_drop hd))⟩,
    none⟩, ?_, ?_, .inl rfl, .inr ?_⟩
  · simp [NumeralText.text, DecimalText.text, digitsOf]
  · simp only [NumeralText.numeral, Numeral.rational, digitsOf, Option.elim, List.take_append_drop,
      natOf_natDigits, List.length_drop]
    congr 2
    omega
  · change ((natDigits c).take point).head? ≠ some '0'
    rw [List.head?_take, if_neg hpos.ne']
    exact head?_natDigits hc

/-- The point stands behind all digits. -/
theorem spells_back (hc : 0 < c) (zeros : ℕ) :
    ∃ n : NumeralText, n.Spells (natDigits c ++ List.replicate zeros '0' ++ ['.', '0'])
      (c * 10 ^ (zeros : ℤ)) := by
  have hwhole : ∀ d ∈ natDigits c ++ List.replicate zeros '0', d.isDigit = true := by
    intro d hd
    rcases List.mem_append.mp hd with hd | hd
    · exact isDigit_of_mem_natDigits hd
    · exact isDigit_of_mem_replicate hd
  refine ⟨⟨⟨digitsOf _ (by simp [natDigits]) hwhole, some ⟨['0'], by simp, rfl⟩⟩, none⟩,
    ?_, ?_, .inl rfl, .inr ?_⟩
  · simp [NumeralText.text, DecimalText.text, digitsOf]
  · have hvalue : natOf (natDigits c ++ List.replicate zeros '0' ++ ['0']) =
        c * 10 ^ zeros * 10 := by
      rw [natOf_append, natOf_append, natOf_replicate, natOf_natDigits]
      simp [natOf]
    simp only [NumeralText.numeral, Numeral.rational, digitsOf, Option.elim, hvalue]
    push_cast
    rw [zpow_natCast, mul_assoc]
    norm_num
  · change (natDigits c ++ List.replicate zeros '0').head? ≠ some '0'
    rw [List.head?_append_of_ne_nil _ (natDigits_ne_nil c)]
    exact head?_natDigits hc

/-- An exponent in a style. -/
theorem exists_exponentText (style : Style) (x : ℤ) :
    ∃ e : ExponentText, e.text = 'e' :: ((if style.plusSign ∧ 0 < x then ['+'] else []) ++
      intDigits x) ∧ e.value = x := by
  have hvalue : natOf (Digits.ofNat x.natAbs).chars = x.natAbs := natOf_natDigits _
  by_cases hneg : x < 0
  · refine ⟨⟨.minus, Digits.ofNat x.natAbs⟩, ?_, ?_⟩
    · rw [if_neg (by omega), intDigits, if_pos hneg]
      rfl
    · simp only [ExponentText.value, hvalue]
      omega
  by_cases hplus : style.plusSign ∧ 0 < x
  · refine ⟨⟨.plus, Digits.ofNat x.natAbs⟩, ?_, ?_⟩
    · rw [if_pos hplus, intDigits, if_neg hneg]
      rfl
    · simp only [ExponentText.value, hvalue]
      omega
  · refine ⟨⟨.none, Digits.ofNat x.natAbs⟩, ?_, ?_⟩
    · rw [if_neg hplus, intDigits, if_neg hneg]
      rfl
    · simp only [ExponentText.value, hvalue]
      omega

/-- An exponent says where the point is. -/
theorem spells_exponent (style : Style) (hc : 0 < c) {x : ℤ}
    (hx : ((natDigits c).length : ℤ) + k - 1 = x) :
    ∃ n : NumeralText, n.Spells
      ((match natDigits c with
          | d :: e :: rest => d :: '.' :: e :: rest
          | short => short) ++
        'e' :: ((if style.plusSign ∧ 0 < x then ['+'] else []) ++ intDigits x))
      (c * 10 ^ k) := by
  obtain ⟨exponent, htext, hvalue⟩ := exists_exponentText style x
  have hdigits : ∀ d ∈ natDigits c, d.isDigit = true := fun _ => isDigit_of_mem_natDigits
  have hhead := head?_natDigits hc
  have hnat := natOf_natDigits c
  rw [← htext]
  match h : natDigits c with
  | [] => exact absurd h (natDigits_ne_nil c)
  | [d] =>
    rw [h] at hx hdigits hhead hnat
    refine ⟨⟨⟨digitsOf [d] (by simp) hdigits, none⟩, some exponent⟩, ?_, ?_, .inr rfl, .inr hhead⟩
    · simp [NumeralText.text, DecimalText.text, digitsOf]
    · simp only [NumeralText.numeral, Numeral.rational, digitsOf, Option.elim, List.append_nil,
        hnat, hvalue]
      congr 2
      simp only [List.length_singleton, List.length_nil] at hx ⊢
      omega
  | d :: e :: rest =>
    rw [h] at hx hdigits hhead hnat
    refine ⟨⟨⟨digitsOf [d] (by simp) fun _ hd => hdigits _ (by simp_all),
      some (digitsOf (e :: rest) (by simp) fun _ hd => hdigits _ (List.mem_cons_of_mem _ hd))⟩,
      some exponent⟩, ?_, ?_, .inl rfl, .inr hhead⟩
    · simp [NumeralText.text, DecimalText.text, digitsOf]
    · simp only [NumeralText.numeral, Numeral.rational, digitsOf, Option.elim,
        List.singleton_append, hnat, hvalue]
      congr 2
      simp only [List.length_cons] at hx ⊢
      omega

/-- A positive decimal is written as a numeral of its value. -/
theorem exists_spells_decimal (style : Style) {d : Decimal} (hd : 0 < d.coefficient) :
    ∃ n : NumeralText, n.Spells (style.decimal d) (d.coefficient * 10 ^ d.exponent) := by
  have hlength : 0 < (natDigits d.coefficient).length :=
    List.length_pos_of_ne_nil (natDigits_ne_nil _)
  rw [decimal]
  simp only
  split
  · split
    · exact spells_front _ (by omega)
    · split
      · exact spells_inside hd (by omega) (by omega) (by omega)
      · obtain ⟨n, hn⟩ := spells_back hd d.exponent.toNat
        rw [Int.toNat_of_nonneg (by omega)] at hn
        exact ⟨n, hn⟩
  · exact spells_exponent style hd rfl

/-! ### Floats in a style -/

/-- A finite float is written as a sign and a numeral that is read as the float. -/
theorem exists_text_float (style : Style) {x : Float} {negative : Bool} {m : ℕ} {e : ℤ}
    (hx : Binary.ofFloat x = .finite negative m e) :
    ∃ n : NumeralText, style.float x = (if negative then ['-'] else []) ++ n.text ∧
      n.IsFloat ∧ n.HasPlainWhole ∧ signed negative n.numeral.value = x := by
  obtain ⟨u, hu, hpack⟩ := exists_packs x
  rw [hx] at hu
  cases hu with
  | zero s =>
    refine ⟨⟨⟨⟨['0'], by simp, rfl⟩, some ⟨['0'], by simp, rfl⟩⟩, none⟩, ?_, .inl rfl, .inl rfl, ?_⟩
    · rw [float, hx]
      rfl
    · rw [hpack]
      cases s <;> decide +kernel
  | @finite s _ _ hm =>
    obtain ⟨n, hn⟩ := exists_spells_decimal style (coefficient_shortest_pos style.tie hm)
    refine ⟨n, ?_, hn.isFloat, hn.hasPlainWhole, ?_⟩
    · rw [float, hx, hn.text_eq]
      simp only
      rw [if_neg hm.pos.ne']
    · have habsorbs := absorbs_shortest style.tie hm
      rw [← hn.rational_eq] at habsorbs
      rw [Numeral.value_of_absorbs habsorbs hm, hpack]
      cases s with
      | positive => rfl
      | negative => exact neg_ofModel_pack (.finite .positive hm)

theorem float_notANumber (style : Style) {x : Float} (hx : Binary.ofFloat x = .notANumber) :
    style.float x = "NaN".toList := by
  rw [float, hx]
  rfl

theorem float_infinite (style : Style) {x : Float} {negative : Bool}
    (hx : Binary.ofFloat x = .infinite negative) :
    style.float x = (if negative then "-inf" else "inf").toList := by
  rw [float, hx]
  cases negative <;> rfl

/-- Every float is read back from its text. -/
theorem float?_float (style : Style) (x : Float) : float? (style.float x) = some x := by
  obtain ⟨u, hu, hpack⟩ := exists_packs x
  cases hx : Binary.ofFloat x with
  | notANumber =>
    rw [hx] at hu
    cases hu
    rw [style.float_notANumber hx, hpack]
    decide +kernel
  | infinite negative =>
    rw [hx] at hu
    cases hu with
    | infinity s =>
      rw [style.float_infinite hx, hpack]
      cases s <;> decide +kernel
  | finite negative m e =>
    obtain ⟨n, htext, -, -, hvalue⟩ := style.exists_text_float hx
    rw [htext, n.float?_text, hvalue]

/-- A cell with the text of a float is one of floats. -/
theorem kind_float (style : Style) (x : Float) : Cell.kind (style.float x) = .float64 := by
  cases hx : Binary.ofFloat x with
  | notANumber =>
    rw [style.float_notANumber hx]
    decide +kernel
  | infinite negative =>
    rw [style.float_infinite hx]
    cases negative <;> decide +kernel
  | finite negative m e =>
    obtain ⟨n, htext, hfloat, -⟩ := style.exists_text_float hx
    rw [htext, NumeralText.kind_text hfloat]

end Number.Style
end BenchLog
