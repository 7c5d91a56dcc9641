/-
# Phrases of the log of memory usage

The grammar of a record, apart from the readers: words in any case, runs of digits of any script,
and gaps of blanks. A phrase is a text that carries why it fits. A reader finds something at the
front of a text if and only if a phrase stands there, and what it finds are the captures of the
phrase. So what is captured at a place does not depend on how the text is cut into a phrase.

Key definitions: `Text.Spelled`, `Text.Gap`, `Text.DigitRun`, `Text.DecimalRun`, `MarkerPhrase`,
`UsagePhrase`, `RamPhrase`.
Key theorems: `Text.literalFold_eq_some_iff`, `Text.exists_of_decimal`, `Marker.scan_eq_some_iff`,
`RamReading.usage?_eq_some_iff`, `RamReading.scan_eq_some_iff`.
-/
import Mathlib.Data.Option.Basic
import BenchLog.Proofs.LineEnds

namespace BenchLog

namespace Text

/-! ### Letters in any case -/

/-- What a letter may be written as. -/
theorem mem_of_foldLetter (c : Char) :
    c ∈ [foldLetter c, (foldLetter c).toUpper, '\u017F', '\u212A'] := by
  unfold foldLetter
  by_cases hs : c = '\u017F'
  · simp [hs]
  · by_cases hk : c = '\u212A'
    · simp [hk]
    · rw [if_neg hs, if_neg hk]
      by_cases hupper : 65 ≤ c.toNat ∧ c.toNat ≤ 90
      · obtain ⟨hlo, hhi⟩ := hupper
        rw [← Char.ofNat_toNat c]
        interval_cases c.toNat <;> decide
      · have hlower : c.toLower = c := by
          unfold Char.toLower
          exact dif_neg fun h => hupper ⟨h.1, h.2⟩
        rw [hlower]
        exact List.mem_cons_self

/-- What holds of all characters that stand for a letter, seen from the letter. -/
theorem of_foldLetter (p : Char → Bool) {c d : Char} (hc : foldLetter c = d)
    (h : [d, d.toUpper, '\u017F', '\u212A'].all (fun a => foldLetter a != d || p a) = true) :
    p c = true := by
  have hmem := mem_of_foldLetter c
  rw [hc] at hmem
  have hp := List.all_eq_true.mp h c hmem
  rw [hc] at hp
  simpa using hp

/-! ### Words -/

/-- A text that spells a word, its letters in any case. -/
structure Spelled (word : String) where
  chars : List Char
  folds : chars.map foldLetter = word.toList.map foldLetter

theorem literalBy_sameLetter_eq_some_iff {word cs rest : List Char} :
    literalBy sameLetter word cs = some rest ↔
      ∃ text : List Char, text.map foldLetter = word.map foldLetter ∧ cs = text ++ rest := by
  induction word generalizing cs with
  | nil => simp [literalBy, eq_comm]
  | cons w word ih =>
    cases cs with
    | nil => simp [literalBy]
    | cons c cs =>
      rw [literalBy]
      by_cases hc : sameLetter w c = true
      · rw [if_pos hc, ih]
        have hfold : foldLetter c = foldLetter w := (beq_iff_eq.mp hc).symm
        constructor
        · rintro ⟨text, htext, rfl⟩
          exact ⟨c :: text, by rw [List.map_cons, List.map_cons, htext, hfold], rfl⟩
        · rintro ⟨text, htext, hcs⟩
          cases text with
          | nil => cases htext
          | cons d text =>
            obtain ⟨-, htext⟩ := List.cons.inj htext
            obtain ⟨-, rfl⟩ := List.cons.inj hcs
            exact ⟨text, htext, rfl⟩
      · rw [if_neg hc]
        constructor
        · intro h
          cases h
        · rintro ⟨text, htext, hcs⟩
          cases text with
          | nil => cases htext
          | cons d text =>
            obtain ⟨hd, -⟩ := List.cons.inj htext
            obtain ⟨rfl, -⟩ := List.cons.inj hcs
            exact absurd (beq_iff_eq.mpr hd.symm) hc

variable {word other : String}

/-- A word is taken off a text that begins with a spelling of it. -/
theorem literalFold_eq_some_iff {cs rest : List Char} :
    literalFold word cs = some rest ↔ ∃ s : Spelled word, cs = s.chars ++ rest := by
  unfold literalFold
  rw [literalBy_sameLetter_eq_some_iff]
  constructor
  · rintro ⟨text, htext, hcs⟩
    exact ⟨⟨text, htext⟩, hcs⟩
  · rintro ⟨s, hcs⟩
    exact ⟨s.chars, s.folds, hcs⟩

namespace Spelled

theorem literalFold_append (s : Spelled word) (rest : List Char) :
    literalFold word (s.chars ++ rest) = some rest :=
  literalFold_eq_some_iff.mpr ⟨s, rfl⟩

theorem length_eq (s : Spelled word) : s.chars.length = word.toList.length := by
  rw [← List.length_map foldLetter, s.folds, List.length_map]

/-- A word is not found where another is spelled, unless one begins with the other. -/
theorem literalFold_append_other (s : Spelled other)
    (h : ¬ word.toList.map foldLetter <+: other.toList.map foldLetter)
    (h' : ¬ other.toList.map foldLetter <+: word.toList.map foldLetter) (rest : List Char) :
    literalFold word (s.chars ++ rest) = none := by
  rw [Option.eq_none_iff_forall_ne_some]
  intro rest' hrest
  obtain ⟨s', heq⟩ := literalFold_eq_some_iff.mp hrest
  have hprefix : s'.chars <+: s.chars ++ rest := ⟨rest', heq.symm⟩
  rcases List.prefix_or_prefix_of_prefix hprefix (List.prefix_append s.chars rest) with hs | hs
  · have hmap := hs.map foldLetter
    rw [s'.folds, s.folds] at hmap
    exact h hmap
  · have hmap := hs.map foldLetter
    rw [s'.folds, s.folds] at hmap
    exact h' hmap

/-- What holds of all characters that stand for the first letter of a word holds of the first
character of its spellings. -/
theorem of_head? (s : Spelled word) (p : Char → Bool) {w : Char}
    (hword : word.toList.head? = some w)
    (h : [foldLetter w, (foldLetter w).toUpper, '\u017F', '\u212A'].all
      (fun a => foldLetter a != foldLetter w || p a) = true)
    {rest : List Char} {c : Char} (hc : (s.chars ++ rest).head? = some c) : p c = true := by
  obtain ⟨ws, hws⟩ := List.head?_eq_some_iff.mp hword
  have hfolds := s.folds
  rw [hws] at hfolds
  obtain ⟨d, ds, hds, hd, -⟩ := List.map_eq_cons_iff.mp hfolds
  rw [hds] at hc
  obtain rfl := Option.some.inj hc
  exact of_foldLetter p hd h

end Spelled

/-! ### Gaps -/

/-- Blanks, or none. -/
structure Gap where
  chars : List Char
  blank : ∀ c ∈ chars, isBlank c = true

theorem exists_gap (cs : List Char) : ∃ g : Gap, cs = g.chars ++ trimStart cs :=
  ⟨⟨cs.takeWhile isBlank, List.all_eq_true.mp List.all_takeWhile⟩,
    List.takeWhile_append_dropWhile.symm⟩

theorem Gap.trimStart_append (g : Gap) {rest : List Char}
    (h : ∀ c, rest.head? = some c → isBlank c = false) : trimStart (g.chars ++ rest) = rest :=
  (span_append g.blank rest h).2

/-! ### Digits of any script -/

/-- A run of decimal digits. -/
structure DigitRun where
  chars : List Char
  ne_nil : chars ≠ []
  digit : ∀ c ∈ chars, isDecimalDigit c = true

/-- Digits, and digits after a point if there is one. -/
structure DecimalRun where
  whole : DigitRun
  fraction : Option DigitRun

/-- The text of a decimal. -/
def DecimalRun.chars (d : DecimalRun) : List Char :=
  d.whole.chars ++ d.fraction.elim [] fun ds => '.' :: ds.chars

theorem exists_of_digits {cs ds rest : List Char} (h : digits cs = some (ds, rest)) :
    ∃ d : DigitRun, d.chars = ds ∧ cs = d.chars ++ rest := by
  obtain ⟨hne, hcs, hds, -⟩ := run_eq_some_iff.mp h
  exact ⟨⟨ds, hne, hds⟩, rfl, hcs⟩

theorem DigitRun.digits_append (d : DigitRun) {rest : List Char}
    (h : ∀ c, rest.head? = some c → isDecimalDigit c = false) :
    digits (d.chars ++ rest) = some (d.chars, rest) :=
  run_append d.ne_nil d.digit h

theorem exists_of_decimal {cs ds rest : List Char} (h : decimal cs = some (ds, rest)) :
    ∃ d : DecimalRun, d.chars = ds ∧ cs = d.chars ++ rest := by
  unfold decimal at h
  split at h
  · cases h
  · rename_i whole rest' hwhole
    obtain ⟨w, rfl, rfl⟩ := exists_of_digits hwhole
    split at h
    · rename_i fraction rest'' hfraction
      obtain ⟨f, rfl, rfl⟩ := exists_of_digits hfraction
      obtain ⟨rfl, rfl⟩ := Prod.mk.inj (Option.some.inj h)
      exact ⟨⟨w, some f⟩, rfl, by simp [DecimalRun.chars]⟩
    · obtain ⟨rfl, rfl⟩ := Prod.mk.inj (Option.some.inj h)
      exact ⟨⟨w, none⟩, by simp [DecimalRun.chars], by simp [DecimalRun.chars]⟩
  · rename_i whole rest' _ hwhole
    obtain ⟨w, rfl, rfl⟩ := exists_of_digits hwhole
    obtain ⟨rfl, rfl⟩ := Prod.mk.inj (Option.some.inj h)
    exact ⟨⟨w, none⟩, by simp [DecimalRun.chars], by simp [DecimalRun.chars]⟩

/-- A decimal begins with no blank. -/
theorem DecimalRun.isBlank_of_head? (d : DecimalRun) {rest : List Char} :
    ∀ c, (d.chars ++ rest).head? = some c → isBlank c = false := by
  intro c hc
  obtain ⟨e, es, hwhole⟩ := List.exists_cons_of_ne_nil d.whole.ne_nil
  have he := d.whole.digit e (hwhole ▸ List.mem_cons_self)
  rw [chars, hwhole] at hc
  obtain rfl := Option.some.inj hc
  by_contra hblank
  have hnot := of_isBlank (!isDecimalDigit ·) (by decide) (Bool.not_eq_false _ |>.mp hblank)
  rw [he] at hnot
  cases hnot

theorem DecimalRun.decimal_append (d : DecimalRun) {rest : List Char}
    (h : ∀ c, rest.head? = some c → isDecimalDigit c = false ∧ c ≠ '.') :
    decimal (d.chars ++ rest) = some (d.chars, rest) := by
  have hdigit : ∀ c, rest.head? = some c → isDecimalDigit c = false := fun c hc => (h c hc).1
  obtain ⟨w, fraction⟩ := d
  cases fraction with
  | none =>
    have hchars : chars ⟨w, none⟩ = w.chars := List.append_nil w.chars
    rw [hchars, decimal, w.digits_append hdigit]
    cases rest with
    | nil => rfl
    | cons c rest => simp [(h c rfl).2]
  | some f =>
    have hw : digits (w.chars ++ '.' :: (f.chars ++ rest)) =
        some (w.chars, '.' :: (f.chars ++ rest)) :=
      w.digits_append (by simp; decide)
    have hf : digits (f.chars ++ rest) = some (f.chars, rest) := f.digits_append hdigit
    simp [chars, decimal, hw, hf]

end Text

/-! ### Markers -/

/-- A marker in any case, with a number in any script. -/
structure MarkerPhrase where
  side : Side
  keyword : Text.Spelled side.keyword
  joint : Text.Spelled " of "
  spelling : Spelling
  word : Text.Spelled spelling.word
  number : Text.DigitRun

namespace MarkerPhrase

/-- The text up to the colon. -/
def lead (p : MarkerPhrase) : List Char :=
  p.keyword.chars ++ (p.joint.chars ++ (p.word.chars ++ (" ".toList ++ p.number.chars)))

/-- The text with the colon. -/
def text (p : MarkerPhrase) : List Char := p.lead ++ ":".toList

/-- What is captured. -/
def marker (p : MarkerPhrase) : Marker := ⟨p.keyword.chars, p.number.chars⟩

end MarkerPhrase

namespace Marker

theorem keyword?_eq_some_iff {cs keyword rest : List Char} :
    keyword? cs = some (keyword, rest) ↔
      ∃ (side : Side) (s : Text.Spelled side.keyword),
        s.chars = keyword ∧ cs = keyword ++ rest := by
  unfold keyword?
  constructor
  · intro h
    split at h
    · rename_i rest' hstart
      obtain ⟨rfl, rfl⟩ := Prod.mk.inj (Option.some.inj h)
      obtain ⟨s, rfl⟩ := Text.literalFold_eq_some_iff.mp hstart
      have htake : (s.chars ++ rest').take 5 = s.chars := List.take_left' s.length_eq
      rw [htake]
      exact ⟨.start, ⟨s.chars, s.folds⟩, rfl, rfl⟩
    · obtain ⟨rest', hend, h⟩ := Option.map_eq_some_iff.mp h
      obtain ⟨rfl, rfl⟩ := Prod.mk.inj h
      obtain ⟨s, rfl⟩ := Text.literalFold_eq_some_iff.mp hend
      have htake : (s.chars ++ rest').take 3 = s.chars := List.take_left' s.length_eq
      rw [htake]
      exact ⟨.finish, ⟨s.chars, s.folds⟩, rfl, rfl⟩
  · rintro ⟨side, s, rfl, rfl⟩
    cases side with
    | start =>
      have hread : Text.literalFold "start" (s.chars ++ rest) = some rest :=
        Text.literalFold_eq_some_iff.mpr ⟨⟨s.chars, s.folds⟩, rfl⟩
      have htake : (s.chars ++ rest).take 5 = s.chars := List.take_left' s.length_eq
      rw [hread, htake]
    | finish =>
      have hread : Text.literalFold "end" (s.chars ++ rest) = some rest :=
        Text.literalFold_eq_some_iff.mpr ⟨⟨s.chars, s.folds⟩, rfl⟩
      have htake : (s.chars ++ rest).take 3 = s.chars := List.take_left' s.length_eq
      rw [s.literalFold_append_other (by decide) (by decide), hread, htake]
      rfl

theorem spelling?_eq_some_iff {cs rest : List Char} :
    spelling? cs = some rest ↔
      ∃ (spelling : Spelling) (s : Text.Spelled spelling.word), cs = s.chars ++ rest := by
  unfold spelling?
  constructor
  · intro h
    obtain ⟨word, hword, hread⟩ := List.exists_of_findSome?_eq_some h
    obtain ⟨s, rfl⟩ := Text.literalFold_eq_some_iff.mp hread
    simp only [List.mem_cons, List.not_mem_nil, or_false] at hword
    rcases hword with rfl | rfl | rfl
    · exact ⟨.repetition, s, rfl⟩
    · exact ⟨.repitition, s, rfl⟩
    · exact ⟨.repition, s, rfl⟩
  · rintro ⟨spelling, s, rfl⟩
    have hread : Text.literalFold spelling.word (s.chars ++ rest) = some rest :=
      s.literalFold_append rest
    simp only [List.findSome?_cons]
    cases spelling with
    | repetition => rw [show Text.literalFold "repetition" _ = _ from hread]
    | repitition =>
      rw [s.literalFold_append_other (by decide) (by decide),
        show Text.literalFold "repitition" _ = _ from hread]
    | repition =>
      rw [s.literalFold_append_other (by decide) (by decide),
        s.literalFold_append_other (by decide) (by decide),
        show Text.literalFold "repition" _ = _ from hread]

/-- A marker is found where its phrase stands, at the edge of a word. -/
theorem scan_eq_some_iff {before : Option Char} {cs rest : List Char} {m : Marker} :
    scan before cs = some (m, rest) ↔
      isWordEdge before = true ∧ ∃ p : MarkerPhrase, p.marker = m ∧ cs = p.text ++ rest := by
  constructor
  · intro h
    simp only [scan, Option.bind_eq_bind, Option.bind_eq_some_iff, Prod.exists] at h
    obtain ⟨_, hguard, keyword, rest₁, hkeyword, rest₂, hjoint, rest₃, hword, rest₄, hspace,
      number, rest₅, hnumber, rest₆, hcolon, h⟩ := h
    obtain ⟨rfl, rfl⟩ := Prod.mk.inj (Option.some.inj h)
    obtain ⟨side, keyword, rfl, rfl⟩ := keyword?_eq_some_iff.mp hkeyword
    obtain ⟨joint, rfl⟩ := Text.literalFold_eq_some_iff.mp hjoint
    obtain ⟨spelling, word, rfl⟩ := spelling?_eq_some_iff.mp hword
    obtain rfl := Text.literal_eq_some_iff.mp hspace
    obtain ⟨number, rfl, rfl⟩ := Text.exists_of_digits hnumber
    obtain rfl := Text.literal_eq_some_iff.mp hcolon
    refine ⟨(Option.guard_eq_some' _).mp hguard, ⟨side, keyword, joint, spelling, word, number⟩,
      rfl, ?_⟩
    simp only [MarkerPhrase.text, MarkerPhrase.lead, List.append_assoc]
  · rintro ⟨hedge, p, rfl, rfl⟩
    have hkeyword : ∀ rest, keyword? (p.keyword.chars ++ rest) = some (p.keyword.chars, rest) :=
      fun rest => keyword?_eq_some_iff.mpr ⟨p.side, p.keyword, rfl, rfl⟩
    have hword : ∀ rest, spelling? (p.word.chars ++ rest) = some rest :=
      fun rest => spelling?_eq_some_iff.mpr ⟨p.spelling, p.word, rfl⟩
    have hnumber : Text.digits (p.number.chars ++ (":".toList ++ rest)) =
        some (p.number.chars, ":".toList ++ rest) :=
      p.number.digits_append (by simp; decide)
    simp only [MarkerPhrase.text, MarkerPhrase.lead, List.append_assoc]
    simp only [scan, hedge, guard, if_true, hkeyword, p.joint.literalFold_append, hword,
      Text.literal_append, hnumber, Option.pure_def, Option.bind_eq_bind, Option.bind_some]
    rfl

end Marker

/-! ### Usage -/

/-- What stands behind the marker of a record. -/
structure UsagePhrase where
  before : Text.Gap
  heading : Text.Spelled "RAM Usage:"
  between : Text.Gap
  value : Text.DecimalRun
  behind : Text.Gap
  unit : Text.Spelled "MB"

/-- The text of the memory usage. -/
def UsagePhrase.text (p : UsagePhrase) : List Char :=
  p.before.chars ++ (p.heading.chars ++ (p.between.chars ++ (p.value.chars ++
    (p.behind.chars ++ p.unit.chars))))

/-- The memory usage at the front of the text, and the rest. -/
def RamReading.usage? (cs : List Char) : Option (List Char × List Char) := do
  let rest ← Text.literalFold "RAM Usage:" (Text.trimStart cs)
  let (value, rest) ← Text.decimal (Text.trimStart rest)
  let rest ← Text.literalFold "MB" (Text.trimStart rest)
  some (value, rest)

/-- A number ends in front of a gap and of a unit. -/
theorem UsagePhrase.endsNumber_behind (p : UsagePhrase) {rest : List Char} :
    ∀ c, (p.behind.chars ++ (p.unit.chars ++ rest)).head? = some c →
      Text.isDecimalDigit c = false ∧ c ≠ '.' := by
  intro c hc
  have hends : (!Text.isDecimalDigit c && c != '.') = true := by
    cases hbehind : p.behind.chars with
    | nil =>
      rw [hbehind] at hc
      exact p.unit.of_head? (fun c => !Text.isDecimalDigit c && c != '.') rfl (by decide) hc
    | cons d ds =>
      rw [hbehind] at hc
      obtain rfl := Option.some.inj hc
      have hblank := p.behind.blank d (hbehind ▸ List.mem_cons_self)
      exact Text.of_isBlank (fun c => !Text.isDecimalDigit c && c != '.') (by decide) hblank
  simpa using hends

theorem RamReading.usage?_eq_some_iff {cs value rest : List Char} :
    usage? cs = some (value, rest) ↔
      ∃ p : UsagePhrase, p.value.chars = value ∧ cs = p.text ++ rest := by
  constructor
  · intro h
    simp only [usage?, Option.bind_eq_bind, Option.bind_eq_some_iff, Prod.exists] at h
    obtain ⟨rest₁, hheading, value', rest₂, hvalue, rest₃, hunit, h⟩ := h
    obtain ⟨rfl, rfl⟩ := Prod.mk.inj (Option.some.inj h)
    obtain ⟨before, hbefore⟩ := Text.exists_gap cs
    obtain ⟨heading, hheading'⟩ := Text.literalFold_eq_some_iff.mp hheading
    obtain ⟨between, hbetween⟩ := Text.exists_gap rest₁
    obtain ⟨value, hchars, hvalue'⟩ := Text.exists_of_decimal hvalue
    obtain ⟨behind, hbehind⟩ := Text.exists_gap rest₂
    obtain ⟨unit, hunit'⟩ := Text.literalFold_eq_some_iff.mp hunit
    refine ⟨⟨before, heading, between, value, behind, unit⟩, hchars, ?_⟩
    rw [hbefore, hheading', hbetween, hvalue', hbehind, hunit']
    simp only [UsagePhrase.text, List.append_assoc]
  · rintro ⟨p, rfl, rfl⟩
    have hheading : ∀ c, (p.heading.chars ++ (p.between.chars ++ (p.value.chars ++
        (p.behind.chars ++ (p.unit.chars ++ rest))))).head? = some c → Text.isBlank c = false := by
      intro c hc
      simpa using p.heading.of_head? (!Text.isBlank ·) rfl (by decide) hc
    have hunit : ∀ c, (p.unit.chars ++ rest).head? = some c → Text.isBlank c = false := by
      intro c hc
      simpa using p.unit.of_head? (!Text.isBlank ·) rfl (by decide) hc
    simp only [UsagePhrase.text, List.append_assoc]
    simp only [usage?, p.before.trimStart_append hheading, p.heading.literalFold_append,
      p.between.trimStart_append p.value.isBlank_of_head?,
      p.value.decimal_append p.endsNumber_behind, p.behind.trimStart_append hunit,
      p.unit.literalFold_append, Option.bind_eq_bind, Option.bind_some]

/-! ### Records -/

/-- A record in any case, with numbers in any script. -/
structure RamPhrase where
  marker : MarkerPhrase
  usage : UsagePhrase

namespace RamPhrase

/-- The text from the first word to the unit. -/
def text (p : RamPhrase) : List Char := p.marker.text ++ p.usage.text

/-- What is captured. -/
def reading (p : RamPhrase) : RamReading := ⟨p.marker.marker, p.usage.value.chars⟩

end RamPhrase

theorem RamReading.scan_eq_bind (before : Option Char) (cs : List Char) :
    scan before cs = (Marker.scan before cs).bind fun m =>
      (usage? m.2).map fun u => ⟨m.1, u.1⟩ := by
  simp only [scan, usage?, Option.bind_eq_bind, Option.map_bind, Function.comp_def, Option.map_some]

/-- A record is found where its phrase stands, at the edge of a word. -/
theorem RamReading.scan_eq_some_iff {before : Option Char} {cs : List Char} {r : RamReading} :
    scan before cs = some r ↔ Marker.isWordEdge before = true ∧
      ∃ (p : RamPhrase) (rest : List Char), p.reading = r ∧ cs = p.text ++ rest := by
  rw [scan_eq_bind, Option.bind_eq_some_iff]
  constructor
  · rintro ⟨⟨m, rest⟩, hmarker, husage⟩
    obtain ⟨⟨value, rest'⟩, hvalue, rfl⟩ := Option.map_eq_some_iff.mp husage
    obtain ⟨hedge, marker, rfl, rfl⟩ := Marker.scan_eq_some_iff.mp hmarker
    obtain ⟨usage, rfl, rfl⟩ := usage?_eq_some_iff.mp hvalue
    exact ⟨hedge, ⟨marker, usage⟩, rest', rfl, (List.append_assoc _ _ _).symm⟩
  · rintro ⟨hedge, p, rest, rfl, rfl⟩
    have hmarker : Marker.scan before (p.text ++ rest) =
        some (p.marker.marker, p.usage.text ++ rest) :=
      Marker.scan_eq_some_iff.mpr ⟨hedge, p.marker, rfl, List.append_assoc _ _ _⟩
    have husage : usage? (p.usage.text ++ rest) = some (p.usage.value.chars, rest) :=
      usage?_eq_some_iff.mpr ⟨p.usage, rfl, rfl⟩
    exact ⟨_, hmarker, Option.map_eq_some_iff.mpr ⟨_, husage, rfl⟩⟩

end BenchLog
