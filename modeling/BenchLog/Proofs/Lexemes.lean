/-
# Reading what was written

The readers of lexemes are deterministic, so what they take off a text is
settled by the lexeme and the character behind it: a word takes itself off, a
run of digits takes itself off unless a digit follows, and a search passes over
everything that cannot begin what it looks for. The lines of a text hold
nothing that the text does not hold, and writing lines with line feeds behind
them is undone by splitting.

Key theorems: `mapM_map_eq_ite`, `literalBy_prolong`, `run_append`,
`digits_append`, `search_append`, `lines_written`, `natBelow?_toDigits`,
`numeral?_point`, `numeral?_whole`, `float?_of_isDecimalDigit`.
-/
import Mathlib.Tactic.IntervalCases
import BenchLog.Number.Reading
import BenchLog.Text.Lines
import BenchLog.Text.Scan

namespace BenchLog

/-! ### Readers of parts -/

/-- A reader that succeeds hands on what it has read. -/
theorem bind_of_eq_some {r : Option α} {a : α} (h : r = some a) (f : α → Option β) :
    (r >>= f) = f a := by
  rw [h]
  rfl

theorem bind_ite {P : Prop} [Decidable P] (a : α) (f : α → Option β) :
    ((if P then some a else none) >>= f) = if P then f a else none := by
  split <;> rfl

/-- A list is read back if each of its members is, and is lost with any of them. -/
theorem mapM_map_eq_ite {f : β → Option α} {g : α → β} {P : α → Prop} [DecidablePred P] :
    ∀ {as : List α}, (∀ a ∈ as, f (g a) = if P a then some a else none) →
      (as.map g).mapM f = if ∀ a ∈ as, P a then some as else none
  | [], _ => by simp
  | a :: as, h => by
    have htail := mapM_map_eq_ite fun b hb => h b (List.mem_cons_of_mem _ hb)
    rw [List.map_cons, List.mapM_cons, h a List.mem_cons_self, htail]
    simp only [List.forall_mem_cons]
    by_cases ha : P a
    · by_cases has : ∀ b ∈ as, P b
      · rw [if_pos ha, if_pos has, if_pos ⟨ha, has⟩]
        rfl
      · rw [if_pos ha, if_neg has, if_neg (not_and_of_not_right _ has)]
        rfl
    · rw [if_neg ha, if_neg (not_and_of_not_left _ ha)]
      rfl

theorem mapM_map_eq_some {f : β → Option α} {g : α → β} {as : List α}
    (h : ∀ a ∈ as, f (g a) = some a) : (as.map g).mapM f = some as := by
  rw [mapM_map_eq_ite (P := fun _ => True) fun a ha => by rw [h a ha, if_pos trivial],
    if_pos fun _ _ => trivial]

namespace Text

/-! ### Digits -/

theorem mem_digits_of_isDigit {c : Char} (h : c.isDigit = true) : c ∈ "0123456789".toList := by
  simp only [Char.isDigit, Bool.and_eq_true, decide_eq_true_eq] at h
  obtain ⟨hlo, hhi⟩ := h
  have hlo' : 48 ≤ c.toNat := hlo
  have hhi' : c.toNat ≤ 57 := hhi
  rw [← Char.ofNat_toNat c]
  interval_cases c.toNat <;> decide

/-- What holds of the letters of a word holds of each. -/
theorem of_mem_word (p : Char → Bool) {word : String} (h : word.toList.all p = true) {c : Char}
    (hc : c ∈ word.toList) : p c = true :=
  List.all_eq_true.mp h c hc

/-- What holds of the ten digits holds of every digit. -/
theorem of_isDigit (p : Char → Bool) (h : "0123456789".toList.all p = true) {c : Char}
    (hc : c.isDigit = true) : p c = true :=
  of_mem_word p h (mem_digits_of_isDigit hc)

theorem toLower_of_isDigit {c : Char} (h : c.isDigit = true) : c.toLower = c :=
  beq_iff_eq.mp (of_isDigit (fun c => c.toLower == c) (by decide) h)

theorem ne_of_isDigit {c d : Char} (hc : c.isDigit = true) (hd : d.isDigit = false) : c ≠ d := by
  rintro rfl
  rw [hc] at hd
  cases hd

/-- No digit of any script has a case. -/
theorem toLower_of_isDecimalDigit {c : Char} (h : isDecimalDigit c = true) : c.toLower = c := by
  simp only [isDecimalDigit, Bool.or_eq_true, Bool.and_eq_true, decide_eq_true_eq] at h
  rcases h with h | ⟨hwide, -⟩
  · exact toLower_of_isDigit h
  · unfold Char.toLower
    refine dif_neg fun hupper => ?_
    have hle : c.toNat ≤ 90 := hupper.2
    omega

theorem ne_of_isDecimalDigit {c d : Char} (hc : isDecimalDigit c = true)
    (hd : isDecimalDigit d = false) : c ≠ d := by
  rintro rfl
  rw [hc] at hd
  cases hd

/-! ### Lexemes -/

/-- A reader of a word does not look behind the word. -/
theorem literalBy_prolong {same : Char → Char → Bool} (more : List Char) :
    ∀ {word cs rest : List Char}, literalBy same word cs = some rest →
      literalBy same word (cs ++ more) = some (rest ++ more)
  | [], _, _, h => by
    rw [literalBy, Option.some.injEq] at h
    rw [literalBy, h]
  | _ :: _, [], _, h => nomatch h
  | w :: word, c :: cs, rest, h => by
    rw [literalBy] at h
    rw [List.cons_append, literalBy]
    split at h
    · rename_i hwc
      rw [if_pos hwc, literalBy_prolong more h]
    · cases h

theorem literalFold_append {word : String} {cs : List Char}
    (h : literalFold word cs = some []) (more : List Char) :
    literalFold word (cs ++ more) = some more :=
  literalBy_prolong more h

/-- A text is cut behind its front of a class. -/
theorem span_append {p : Char → Bool} {ds : List Char} (hds : ∀ c ∈ ds, p c = true)
    (rest : List Char) (hrest : ∀ c, rest.head? = some c → p c = false) :
    (ds ++ rest).takeWhile p = ds ∧ (ds ++ rest).dropWhile p = rest := by
  rw [List.takeWhile_append_of_pos hds, List.dropWhile_append_of_pos hds]
  cases rest with
  | nil => simp
  | cons c rest => simp [hrest c rfl]

theorem run_append {p : Char → Bool} {ds rest : List Char} (hne : ds ≠ [])
    (hds : ∀ c ∈ ds, p c = true) (hrest : ∀ c, rest.head? = some c → p c = false) :
    run p (ds ++ rest) = some (ds, rest) :=
  run_eq_some_iff.mpr ⟨hne, rfl, hds, hrest⟩

theorem digits_append {ds rest : List Char} (hne : ds ≠ []) (hds : ds.all Char.isDigit = true)
    (hrest : ∀ c, rest.head? = some c → isDecimalDigit c = false) :
    digits (ds ++ rest) = some (ds, rest) :=
  run_append hne (fun c hc => isDecimalDigit_of_isDigit (List.all_eq_true.mp hds c hc)) hrest

theorem trimStart_blank {c : Char} (h : isBlank c = true) (cs : List Char) :
    trimStart (c :: cs) = trimStart cs :=
  List.dropWhile_cons_of_pos h

theorem trimStart_of_head {cs : List Char} (h : ∀ c, cs.head? = some c → isBlank c = false) :
    trimStart cs = cs := by
  cases cs with
  | nil => rfl
  | cons c cs => exact List.dropWhile_cons_of_neg (by simp [h c rfl])

theorem trimStart_of_no_blank {cs : List Char} (h : ∀ c ∈ cs, isBlank c = false) :
    trimStart cs = cs :=
  trimStart_of_head fun c hc => h c (List.mem_of_mem_head? hc)

/-! ### Searching -/

/-- A reader that fails wherever a character of the front stands looks behind
the front only. -/
theorem search_append {reader : Option Char → List Char → Option α} {rest : List Char} :
    ∀ {front : List Char} {before : Option Char},
      (∀ c ∈ front, ∀ before cs, reader before (c :: cs) = none) →
      search reader before (front ++ rest) = search reader (front.getLast?.or before) rest
  | [], before, _ => by simp
  | c :: front, before, h => by
    rw [List.cons_append, search, h c List.mem_cons_self]
    simp only
    rw [search_append fun d hd => h d (List.mem_cons_of_mem _ hd)]
    cases front <;> simp [List.getLast?_cons]

theorem search_of_reader {reader : Option Char → List Char → Option α} {before : Option Char}
    {cs : List Char} {a : α} (h : reader before cs = some a) : search reader before cs = some a := by
  cases cs with
  | nil => exact h
  | cons c cs => rw [search, h]

/-! ### Lines -/

theorem mem_of_mem_dropReturn {l : List Char} {c : Char} (h : c ∈ dropReturn l) : c ∈ l := by
  unfold dropReturn at h
  split at h
  · exact (List.dropLast_sublist l).subset h
  · exact h

theorem mem_of_mem_closeLines {l : List Char} {c : Char} (hc : c ∈ l) :
    ∀ {others : List (List Char)} {first : List Char}, l ∈ closeLines first others →
      c ∈ first ∨ ∃ other ∈ others, c ∈ other
  | [], first, h => by
    unfold closeLines at h
    split at h
    · cases h
    · exact .inl (List.mem_singleton.mp h ▸ hc)
  | next :: others, first, h => by
    rcases List.mem_cons.mp h with rfl | h
    · exact .inl (mem_of_mem_dropReturn hc)
    · rcases mem_of_mem_closeLines hc h with hnext | ⟨other, hother, hm⟩
      · exact .inr ⟨next, List.mem_cons_self, hnext⟩
      · exact .inr ⟨other, List.mem_cons_of_mem _ hother, hm⟩

theorem mem_of_mem_segments {c : Char} : ∀ {cs : List Char},
    (c ∈ (segments cs).1 ∨ ∃ l ∈ (segments cs).2, c ∈ l) → c ∈ cs
  | [], h => by simp [segments] at h
  | d :: cs, h => by
    have ih : _ → c ∈ cs := mem_of_mem_segments
    have hsegments : segments (d :: cs) =
        if d = '\n' then ([], (segments cs).1 :: (segments cs).2)
        else (d :: (segments cs).1, (segments cs).2) := rfl
    rw [hsegments] at h
    split at h
    · exact List.mem_cons_of_mem _ (ih (by simpa using h))
    · simp only [List.mem_cons] at h ⊢
      rcases h with (rfl | h) | h
      · exact .inl rfl
      · exact .inr (ih (.inl h))
      · exact .inr (ih (.inr h))

/-- What a line holds, the text holds. -/
theorem mem_of_mem_lines {cs l : List Char} {c : Char} (hl : l ∈ lines cs) (hc : c ∈ l) :
    c ∈ cs :=
  mem_of_mem_segments (mem_of_mem_closeLines hc hl)

/-- A text with something on a line that is no blank is not blank. -/
theorem isBlankText_of_mem_lines {cs l : List Char} {c : Char} (hl : l ∈ lines cs) (hc : c ∈ l)
    (h : isBlank c = false) : isBlankText cs = false := by
  by_contra hblank
  rw [Bool.not_eq_false, isBlankText, List.all_eq_true] at hblank
  rw [hblank c (mem_of_mem_lines hl hc)] at h
  cases h

/-- Whether a character neither ends a line nor stands in front of its end. -/
def isLineCharacter (c : Char) : Bool := c != '\n' && c != '\r'

theorem isLineCharacter_of_isDigit {c : Char} (h : c.isDigit = true) : isLineCharacter c = true :=
  of_isDigit isLineCharacter (by decide) h

theorem isLineCharacter_of_not_isBlank {c : Char} (h : isBlank c = false) :
    isLineCharacter c = true := by
  have hfeed : c ≠ '\n' := by rintro rfl; exact absurd h (by decide)
  have hreturn : c ≠ '\r' := by rintro rfl; exact absurd h (by decide)
  simp [isLineCharacter, hfeed, hreturn]

/-- Lines with a line feed behind each. -/
def written (ls : List (List Char)) : List Char :=
  ls.flatMap fun l => l ++ ['\n']

/-- What was written as lines is read as these lines. -/
theorem lines_written {ls : List (List Char)}
    (h : ∀ l ∈ ls, ∀ c ∈ l, isLineCharacter c = true) : lines (written ls) = ls := by
  induction ls with
  | nil => rfl
  | cons l ls ih =>
    have hl := h l List.mem_cons_self
    have hfeed : '\n' ∉ l := fun hm => absurd (hl _ hm) (by decide)
    have hreturn : l.getLast? ≠ some '\r' := fun he =>
      absurd (hl _ (List.mem_of_getLast? he)) (by decide)
    rw [written, List.flatMap_cons, List.append_assoc, List.singleton_append,
      lines_append_feed hfeed, dropReturn, if_neg hreturn]
    exact congrArg _ (ih fun k hk => h k (List.mem_cons_of_mem _ hk))

end Text

/-! ### Numbers -/

namespace Number

theorem natOf_toDigits (n : ℕ) : natOf (Nat.toDigits 10 n) = n := by
  have h : natOf (Nat.toDigits 10 n) = Nat.ofDigitChars 10 (Nat.toDigits 10 n) 0 := by
    simp only [natOf, Nat.ofDigitChars_eq_foldl, Nat.mul_comm]
  rw [h, Nat.ofDigitChars_ten_toDigits]

/-- A number below a bound is read back from its digits. -/
theorem natBelow?_toDigits {n bound : ℕ} (h : n < bound) :
    natBelow? bound (Nat.toDigits 10 n) = some n :=
  natBelow?_eq_some_iff.mpr ⟨⟨Nat.toDigits_ne_nil,
    List.all_eq_true.mpr fun _ hc => Nat.isDigit_of_mem_toDigits (by decide) (by decide) hc,
    (natOf_toDigits n).symm ▸ h⟩, natOf_toDigits n⟩

/-- A number of thirty-two bits is read back from its digits. -/
theorem word?_toDigits (n : UInt32) : word? (Nat.toDigits 10 n.toNat) = some n := by
  rw [word?, natBelow?_toDigits n.toNat_lt, Option.map_some, UInt32.ofNat_toNat]

/-- A numeral with a point is cut behind the digits after the point. -/
theorem numeral?_point {whole fraction : List Char} (tail : List Char)
    (hwhole : ∀ c ∈ whole, c.isDigit = true) (hfraction : ∀ c ∈ fraction, c.isDigit = true)
    (hne : whole ++ fraction ≠ []) (htail : ∀ c, tail.head? = some c → c.isDigit = false) :
    numeral? (whole ++ '.' :: (fraction ++ tail)) =
      (exponent? tail).map fun e => ⟨whole, fraction, e⟩ := by
  obtain ⟨htake, hdrop⟩ := Text.span_append hwhole ('.' :: (fraction ++ tail)) (by simp)
  obtain ⟨htake', hdrop'⟩ := Text.span_append hfraction tail htail
  have hpointed : pointed? (whole ++ '.' :: (fraction ++ tail)) = some (whole, fraction, tail) := by
    simp only [pointed?, htake, hdrop, htake', hdrop']
    rw [if_neg]
    simpa [List.isEmpty_iff] using hne
  simp only [numeral?, hpointed, Option.bind_eq_bind, Option.bind_some]
  exact Option.map_eq_bind.symm

/-- A numeral without a point is cut behind its digits. -/
theorem numeral?_whole {whole : List Char} (tail : List Char)
    (hwhole : ∀ c ∈ whole, c.isDigit = true) (hne : whole ≠ [])
    (htail : ∀ c, tail.head? = some c → c.isDigit = false ∧ c ≠ '.') :
    numeral? (whole ++ tail) = (exponent? tail).map fun e => ⟨whole, [], e⟩ := by
  obtain ⟨htake, hdrop⟩ := Text.span_append hwhole tail fun c hc => (htail c hc).1
  have hpointed : pointed? (whole ++ tail) = some (whole, [], tail) := by
    simp only [pointed?, htake, hdrop]
    cases tail with
    | nil => simp [hne]
    | cons c tail => simp [hne, (htail c rfl).2]
  simp only [numeral?, hpointed, Option.bind_eq_bind, Option.bind_some]
  exact Option.map_eq_bind.symm

/-! ### Signs and words -/

theorem sign_of_isDecimalDigit {c : Char} (hc : Text.isDecimalDigit c = true) (cs : List Char) :
    sign (c :: cs) = (false, c :: cs) := by
  have hminus : c ≠ '-' := Text.ne_of_isDecimalDigit hc (by decide)
  have hplus : c ≠ '+' := Text.ne_of_isDecimalDigit hc (by decide)
  simp [sign, hminus, hplus]

/-- No word begins with a digit. -/
theorem wordValue?_of_isDecimalDigit {c : Char} (hc : Text.isDecimalDigit c = true)
    (cs : List Char) : wordValue? (c :: cs) = none := by
  have hi : c ≠ 'i' := Text.ne_of_isDecimalDigit hc (by decide)
  have hn : c ≠ 'n' := Text.ne_of_isDecimalDigit hc (by decide)
  have hhead : ∀ word : String, String.ofList ((c :: cs).map Char.toLower) = word →
      word.toList.head? = some c := by
    rintro word rfl
    simp [Text.toLower_of_isDecimalDigit hc]
  have hinf : ¬(String.ofList ((c :: cs).map Char.toLower) = "inf" ∨
      String.ofList ((c :: cs).map Char.toLower) = "infinity") := by
    rintro (he | he) <;> exact hi (Option.some.inj (hhead _ he)).symm
  have hnan : String.ofList ((c :: cs).map Char.toLower) ≠ "nan" := fun he =>
    hn (Option.some.inj (hhead _ he)).symm
  simp only [wordValue?, if_neg hinf, if_neg hnan]

/-- What begins with a digit, or with a minus and a digit, is a numeral or no float. -/
theorem float?_of_isDecimalDigit {c : Char} (hc : Text.isDecimalDigit c = true) (cs : List Char) :
    float? (c :: cs) = (numeral? (c :: cs)).map Numeral.value := by
  simp only [float?, sign_of_isDecimalDigit hc, wordValue?_of_isDecimalDigit hc]
  rfl

theorem float?_minus_of_isDecimalDigit {c : Char} (hc : Text.isDecimalDigit c = true)
    (cs : List Char) : float? ('-' :: c :: cs) = (numeral? (c :: cs)).map fun n => -n.value := by
  simp only [float?, sign, wordValue?_of_isDecimalDigit hc]
  rfl

end Number
end BenchLog
