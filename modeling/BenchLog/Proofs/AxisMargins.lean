/-
# The margins of an axis in exact arithmetic

Without rounding, an axis lies strictly around every finite value and reaches equally far beyond
the least and the greatest of them. What is infinite or no number has no part in it, and neither
have the order of the values and how often each occurs. Floats round sums, differences and parts
only: they find the same least and greatest value (`Arithmetic.float_agrees_exact`).

Key definitions: `Arithmetic.exact`, `Arithmetic.Agrees`, `AxisRange.ends?`,
`AxisRange.exactMargin`.
Key theorems: `AxisRange.ends?_map`, `AxisRange.exists_ends?_exact`,
`AxisRange.covering?_of_isLeast`, `AxisRange.exists_covering?_exact`,
`AxisRange.covering?_exact_congr`, `AxisRange.covering?_outcome`.
-/
import BenchLog.Chart.AxisRange
import BenchLog.Proofs.ExactValues
import BenchLog.Proofs.WholeFloats

namespace BenchLog

/-! ### Arithmetic without rounding -/

namespace Exact

def neg : Exact → Exact
  | number q => number (-q)
  | infinite negative => infinite !negative
  | notANumber => notANumber

/-- A sum. An infinity takes in all numbers, and opposite infinities have no sum. -/
def add : Exact → Exact → Exact
  | number a, number b => number (a + b)
  | number _, infinite negative | infinite negative, number _ => infinite negative
  | infinite a, infinite b => if a = b then infinite a else notANumber
  | notANumber, _ | _, notANumber => notANumber

/-- The distance from zero. -/
def size : Exact → Exact
  | number q => number |q|
  | infinite _ => infinite false
  | notANumber => notANumber

def twentieth : Exact → Exact
  | number q => number (q / 20)
  | infinite negative => infinite negative
  | notANumber => notANumber

variable {a b : ℚ}

theorem smaller_number : smaller (number a) (number b) = number (min a b) := by
  rcases lt_or_ge b a with h | h
  · simp [smaller, isNeither, isBelow, h, h.le]
  · simp [smaller, isNeither, isBelow, h, h.not_gt]

theorem larger_number : larger (number a) (number b) = number (max a b) := by
  rcases lt_or_ge a b with h | h
  · simp [larger, isNeither, isBelow, h, h.le]
  · simp [larger, isNeither, isBelow, h, h.not_gt]

/-- The numbers among some values. -/
def numbers (values : List Exact) : List ℚ :=
  values.filterMap fun
    | number q => some q
    | _ => none

theorem mem_numbers {values : List Exact} {q : ℚ} : q ∈ numbers values ↔ number q ∈ values := by
  rw [numbers, List.mem_filterMap]
  constructor
  · rintro ⟨_ | _ | _, hmem, hq⟩ <;> cases hq
    exact hmem
  · exact fun hmem => ⟨_, hmem, rfl⟩

theorem filter_isNumber (values : List Exact) :
    values.filter isNumber = (numbers values).map number := by
  induction values with
  | nil => rfl
  | cons v values ih =>
    cases v with
    | number q => exact congrArg (number q :: ·) ih
    | infinite negative => exact ih
    | notANumber => exact ih

end Exact

/-- The arithmetic of exact values. -/
def Arithmetic.exact : Arithmetic Exact where
  isFinite := Exact.isNumber
  smaller := Exact.smaller
  larger := Exact.larger
  add := Exact.add
  sub a b := a.add b.neg
  size := Exact.size
  twentieth := Exact.twentieth
  one := .number 1
  isTiny x := x.isBelow (.number (1 / 2 ^ 52))

/-! ### The floats and their values -/

/-- Whether two arithmetics do the same to values as far as nothing is rounded: all but their sums,
differences and parts. -/
structure Arithmetic.Agrees {α β : Type} (A : Arithmetic α) (B : Arithmetic β) (value : α → β) :
    Prop where
  isFinite (a : α) : B.isFinite (value a) = A.isFinite a
  smaller (a b : α) : B.smaller (value a) (value b) = value (A.smaller a b)
  larger (a b : α) : B.larger (value a) (value b) = value (A.larger a b)
  size (a : α) : B.size (value a) = value (A.size a)
  one : B.one = value A.one
  isTiny (a : α) : B.isTiny (value a) = A.isTiny a

namespace Exact

open Number Float.Model

theorem ofFloat_pack_abs {u : UnpackedFloat} {b : Binary} (h : Packs u b) :
    ofFloat (.ofModel (.pack u.abs)) = size (ofBinary b) := by
  rw [ofFloat]
  cases h with
  | notANumber => rw [UnpackedFloat.abs, Packs.notANumber.ofFloat_pack]; rfl
  | infinity s => rw [UnpackedFloat.abs, (Packs.infinity _).ofFloat_pack]; rfl
  | zero s =>
    rw [UnpackedFloat.abs, (Packs.zero _).ofFloat_pack, ofBinary_zero, ofBinary_zero, size,
      abs_zero]
  | @finite s m e hm =>
    rw [UnpackedFloat.abs, (Packs.finite _ hm).ofFloat_pack]
    have hpos := value_pos hm
    cases s with
    | positive => exact congrArg number (abs_of_pos hpos).symm
    | negative => exact congrArg number ((abs_neg _).trans (abs_of_pos hpos)).symm

theorem ofFloat_abs (x : Float) : ofFloat x.abs = size (ofFloat x) :=
  ofFloat_pack_abs (packs_unpack x)

theorem ofFloat_one : ofFloat 1 = number 1 := by
  have hbits : Binary.ofFloat 1 = .finite false (2 ^ 52) (-52) := by decide +kernel
  rw [ofFloat, hbits, ofBinary]
  norm_num

theorem ofFloat_precision :
    ofFloat (Float.ofScientific (Nat.pow 5 52) true 52) = number (1 / 2 ^ 52) := by
  have hbits : Binary.ofFloat (Float.ofScientific (Nat.pow 5 52) true 52) =
      .finite false (2 ^ 52) (-104) := by decide +kernel
  rw [ofFloat, hbits, ofBinary]
  norm_num

end Exact

/-- Floats and their values differ in nothing but what is rounded. -/
theorem Arithmetic.float_agrees_exact : Agrees .float .exact Exact.ofFloat where
  isFinite := Exact.isNumber_ofFloat
  smaller x y := (Exact.ofFloat_smaller x y).symm
  larger x y := (Exact.ofFloat_larger x y).symm
  size x := (Exact.ofFloat_abs x).symm
  one := Exact.ofFloat_one.symm
  isTiny x :=
    calc Arithmetic.exact.isTiny (Exact.ofFloat x)
        = (Exact.ofFloat x).isBelow
            (Exact.ofFloat (Float.ofScientific (Nat.pow 5 52) true 52)) := by
          rw [Exact.ofFloat_precision]
          rfl
      _ = Arithmetic.float.isTiny x := Exact.isBelow_ofFloat _ _

/-! ### The values that the margins lie beside -/

namespace AxisRange

section ends

variable {α β : Type} (A : Arithmetic α)

/-- The least and the greatest of the finite ones of some values. -/
def ends? (values : List α) : Option (α × α) :=
  match values.filter A.isFinite with
  | [] => none
  | v :: vs => some (vs.foldl A.smaller v, vs.foldl A.larger v)

/-- The range with a margin beyond its ends. -/
def around (ends : α × α) : AxisRange α :=
  ⟨A.sub ends.1 (margin A ends.1 ends.2), A.add ends.2 (margin A ends.1 ends.2)⟩

theorem covering?_eq_map_ends? (values : List α) :
    covering? A values = (ends? A values).map (around A) := by
  unfold covering? ends?
  cases values.filter A.isFinite <;> rfl

theorem foldl_map_of_commutes {f : α → β} {g : α → α → α} {g' : β → β → β}
    (h : ∀ a b, g' (f a) (f b) = f (g a b)) (v : α) (vs : List α) :
    (vs.map f).foldl g' (f v) = f (vs.foldl g v) := by
  rw [List.foldl_map]
  exact List.foldl_hom f h

/-- Where two arithmetics agree, they find the same least and greatest value. -/
theorem ends?_map {A : Arithmetic α} {B : Arithmetic β} {value : α → β} (h : A.Agrees B value)
    (values : List α) :
    ends? B (values.map value) = (ends? A values).map (Prod.map value value) := by
  have hfilter : (values.map value).filter B.isFinite = (values.filter A.isFinite).map value := by
    have hfinite : B.isFinite ∘ value = A.isFinite := funext h.isFinite
    rw [List.filter_map, hfinite]
  rw [ends?, ends?, hfilter]
  cases values.filter A.isFinite with
  | nil => rfl
  | cons v vs =>
    exact congrArg some (Prod.ext (foldl_map_of_commutes h.smaller v vs)
      (foldl_map_of_commutes h.larger v vs))

end ends

variable {values : List Exact} {least most : ℚ}

/-- If some value is a number, then the ends are the least and the greatest number. -/
theorem exists_ends?_exact {q : ℚ} (h : .number q ∈ values) :
    ∃ least most, ends? .exact values = some (.number least, .number most) ∧
      IsLeast {q | .number q ∈ values} least ∧ IsGreatest {q | .number q ∈ values} most := by
  obtain ⟨v, vs, hvs⟩ := List.exists_cons_of_ne_nil (List.ne_nil_of_mem (Exact.mem_numbers.mpr h))
  have hfilter : values.filter Arithmetic.exact.isFinite = (v :: vs).map .number :=
    (Exact.filter_isNumber values).trans (congrArg _ hvs)
  have hset : {q | .number q ∈ values} = {q | q ∈ v :: vs} := by
    ext q
    rw [Set.mem_ofPred_eq, Set.mem_ofPred_eq, ← hvs, Exact.mem_numbers]
  refine ⟨vs.foldl min v, vs.foldl max v, ?_, ?_, ?_⟩
  · rw [ends?, hfilter]
    exact congrArg some (Prod.ext (foldl_map_of_commutes (fun _ _ => Exact.smaller_number) v vs)
      (foldl_map_of_commutes (fun _ _ => Exact.larger_number) v vs))
  · rw [hset]
    exact List.min?_eq_some_iff.mp List.min?_cons'
  · rw [hset]
    exact List.max?_eq_some_iff.mp List.max?_cons'

/-! ### Margins -/

/-- A twentieth of the spread of the values, and of their size if they lie together, but then at
least one. -/
def exactMargin (least most : ℚ) : ℚ :=
  if most - least < 1 / 2 ^ 52 then max 1 (|most| / 20) else (most - least) / 20

theorem exactMargin_pos (least most : ℚ) : 0 < exactMargin least most := by
  rw [exactMargin]
  split
  case isTrue => exact zero_lt_one.trans_le (le_max_left _ _)
  case isFalse h =>
    have hspread : 0 < most - least := lt_of_lt_of_le (by positivity) (not_lt.mp h)
    positivity

theorem margin_exact (h : least ≤ most) :
    margin .exact (.number least) (.number most) = .number (exactMargin least most) := by
  have htiny : Arithmetic.exact.isTiny (.number |most + -least|) =
      decide (most - least < 1 / 2 ^ 52) := by
    rw [← sub_eq_add_neg, abs_of_nonneg (sub_nonneg.mpr h)]
    rfl
  have hlarger : Arithmetic.exact.larger (.number 1) (.number (|most| / 20)) =
      .number (max 1 (|most| / 20)) := Exact.larger_number
  change (if Arithmetic.exact.isTiny (.number |most + -least|) then
      Arithmetic.exact.larger (.number 1) (.number (|most| / 20))
    else .number ((most + -least) / 20)) = _
  rw [htiny, hlarger, exactMargin, apply_ite Exact.number, ← sub_eq_add_neg]
  simp only [decide_eq_true_eq]

theorem around_exact (h : least ≤ most) : around .exact (.number least, .number most) =
    ⟨.number (least - exactMargin least most), .number (most + exactMargin least most)⟩ := by
  rw [around, margin_exact h, sub_eq_add_neg]
  rfl

/-- The range is told by the least and the greatest number alone. -/
theorem covering?_of_isLeast (hleast : IsLeast {q | .number q ∈ values} least)
    (hmost : IsGreatest {q | .number q ∈ values} most) : covering? .exact values =
      some ⟨.number (least - exactMargin least most),
        .number (most + exactMargin least most)⟩ := by
  obtain ⟨least', most', hends, hleast', hmost'⟩ := exists_ends?_exact hleast.1
  obtain rfl := hleast.unique hleast'
  obtain rfl := hmost.unique hmost'
  rw [covering?_eq_map_ends?, hends, Option.map_some, around_exact (hleast.2 hmost.1)]

theorem covering?_exact_eq_none_iff :
    covering? .exact values = none ↔ ∀ q, .number q ∉ values := by
  rw [covering?_eq_none_iff]
  constructor
  · intro h q hq
    cases h _ hq
  · rintro h (q | negative | _) hmem
    · exact absurd hmem (h q)
    · rfl
    · rfl

/-- The range lies strictly around all numbers, with the same margin on both sides. -/
theorem exists_covering?_exact {q : ℚ} (h : .number q ∈ values) : ∃ start stop least most,
    covering? .exact values = some ⟨.number start, .number stop⟩ ∧
    IsLeast {q | .number q ∈ values} least ∧ IsGreatest {q | .number q ∈ values} most ∧
    least - start = exactMargin least most ∧ stop - most = exactMargin least most ∧
    ∀ q, .number q ∈ values → start < q ∧ q < stop := by
  obtain ⟨least, most, -, hleast, hmost⟩ := exists_ends?_exact h
  have hmargin := exactMargin_pos least most
  refine ⟨_, _, least, most, covering?_of_isLeast hleast hmost, hleast, hmost,
    sub_sub_cancel _ _, add_sub_cancel_left _ _, fun q hq => ⟨?_, ?_⟩⟩
  · exact (sub_lt_self _ hmargin).trans_le (hleast.2 hq)
  · exact (hmost.2 hq).trans_lt (lt_add_of_pos_right _ hmargin)

/-- Values with the same numbers have the same range. -/
theorem covering?_exact_congr {values' : List Exact}
    (h : ∀ q, .number q ∈ values' ↔ .number q ∈ values) :
    covering? .exact values' = covering? .exact values := by
  by_cases hnumber : ∃ q, .number q ∈ values
  · obtain ⟨q, hq⟩ := hnumber
    obtain ⟨least, most, -, hleast, hmost⟩ := exists_ends?_exact hq
    have hset : {q | .number q ∈ values'} = {q | .number q ∈ values} := Set.ext h
    rw [covering?_of_isLeast hleast hmost, covering?_of_isLeast (hset ▸ hleast) (hset ▸ hmost)]
  · have hnone := not_exists.mp hnumber
    rw [covering?_exact_eq_none_iff.mpr hnone,
      covering?_exact_eq_none_iff.mpr fun q hq => hnone q ((h q).mp hq)]

/-- **The range of an axis in exact arithmetic.** There is none if and only if no value is a
number. Otherwise it lies strictly around all numbers, with the same margin below the least and
above the greatest of them. It depends on which numbers there are and on nothing else, and the
least and the greatest of some floats are those of their values. -/
theorem covering?_outcome (values : List Exact) :
    (covering? .exact values = none ↔ ∀ q, .number q ∉ values) ∧
    ((∃ q, .number q ∈ values) → ∃ start stop least most,
      covering? .exact values = some ⟨.number start, .number stop⟩ ∧
      IsLeast {q | .number q ∈ values} least ∧ IsGreatest {q | .number q ∈ values} most ∧
      least - start = exactMargin least most ∧ stop - most = exactMargin least most ∧
      ∀ q, .number q ∈ values → start < q ∧ q < stop) ∧
    (∀ values', (∀ q, .number q ∈ values' ↔ .number q ∈ values) →
      covering? .exact values' = covering? .exact values) ∧
    ∀ xs : List Float, covering? .float xs = (ends? .float xs).map (around .float) ∧
      ends? .exact (xs.map .ofFloat) = (ends? .float xs).map (Prod.map .ofFloat .ofFloat) := by
  refine ⟨covering?_exact_eq_none_iff, ?_, fun values' => covering?_exact_congr, fun xs => ?_⟩
  · rintro ⟨q, hq⟩
    exact exists_covering?_exact hq
  · exact ⟨covering?_eq_map_ends? _ xs, ends?_map Arithmetic.float_agrees_exact xs⟩

/-- Values with gaps and with a number that occurs twice. -/
def gappyValues : List Exact :=
  [.notANumber, .number (-3), .infinite true, .number 5, .number (-3)]

/-- The numbers of `gappyValues`, in another order. -/
def gaplessValues : List Exact := [.number 5, .number (-3)]

theorem covering?_outcome_of_gappyValues :
    (∃ q, .number q ∈ gappyValues) ∧
    (∀ q, .number q ∈ gaplessValues ↔ .number q ∈ gappyValues) ∧
    covering? .exact gappyValues = some ⟨.number (-17 / 5), .number (27 / 5)⟩ ∧
    covering? .exact gaplessValues = covering? .exact gappyValues := by
  have hmem : ∀ q, .number q ∈ gappyValues ↔ q = -3 ∨ q = 5 := by
    grind [gappyValues]
  have hsame : ∀ q, .number q ∈ gaplessValues ↔ .number q ∈ gappyValues := by
    grind [gaplessValues]
  have hnumber : ∃ q, .number q ∈ gappyValues := ⟨5, (hmem 5).mpr (.inr rfl)⟩
  obtain ⟨-, hrange, hset, -⟩ := covering?_outcome gappyValues
  obtain ⟨start, stop, least, most, hcover, hleast, hmost, hstart, hstop, -⟩ := hrange hnumber
  have hthree : IsLeast {q | .number q ∈ gappyValues} (-3) := by
    refine ⟨(hmem _).mpr (.inl rfl), fun q hq => ?_⟩
    rcases (hmem q).mp hq with rfl | rfl <;> norm_num
  have hfive : IsGreatest {q | .number q ∈ gappyValues} 5 := by
    refine ⟨(hmem _).mpr (.inr rfl), fun q hq => ?_⟩
    rcases (hmem q).mp hq with rfl | rfl <;> norm_num
  have hmargin : exactMargin least most = 2 / 5 := by
    rw [hleast.unique hthree, hmost.unique hfive]
    norm_num [exactMargin]
  obtain rfl : start = -17 / 5 := by linarith [hleast.unique hthree]
  obtain rfl : stop = 27 / 5 := by linarith [hmost.unique hfive]
  exact ⟨hnumber, hsame, hcover, hset _ hsame⟩

end AxisRange
end BenchLog
