/-
# The first reading of a line

A line is searched for the first place at which a phrase of the log of memory usage stands and no
word goes on. What stands there is the record or nothing is: a number that cannot be converted
makes the line one without a record, even if another phrase follows. No phrase reaches from in
front of another beyond its end, as both have two colons; so text behind the first phrase brings
up no earlier one.

Key definitions: `Text.InsideWord`, `RamPhrase.StandsIn`, `RamPhrase.IsFirstIn`,
`RamPhrase.IsConvertible`, `RamPhrase.record`.
Key theorems: `RamPhrase.eq_nil_of_overlap`, `RamPhrase.IsFirstIn.change_after`,
`RamPhrase.record?_eq_some_iff`, `Record.ofLine?_outcome`.
-/
import BenchLog.Proofs.Phrases

namespace BenchLog

/-! ### Numbers of other scripts -/

namespace Number

/-- What numerals are made of. -/
def isNumeralCharacter (c : Char) : Bool :=
  c.isDigit || ".eE+-".toList.contains c

theorem isNumeralCharacter_of_isDigit {c : Char} (h : c.isDigit = true) :
    isNumeralCharacter c = true := by
  rw [isNumeralCharacter, h, Bool.true_or]

theorem mem_sign {cs : List Char} {c : Char} (h : c ∈ cs) :
    c ∈ (sign cs).2 ∨ c = '-' ∨ c = '+' := by
  unfold sign
  split
  · exact (List.mem_cons.mp h).symm.imp_right .inl
  · exact (List.mem_cons.mp h).symm.imp_right .inr
  · exact .inl h

theorem isNumeralCharacter_of_exponent? {cs : List Char} {e : ℤ} (h : exponent? cs = some e) :
    ∀ c ∈ cs, isNumeralCharacter c = true := by
  cases cs with
  | nil => exact nofun
  | cons d cs =>
    rw [exponent?] at h
    by_cases hd : d = 'e' ∨ d = 'E'
    · rw [if_pos hd] at h
      cases hsign : sign cs with
      | mk negative ds =>
        rw [hsign] at h
        by_cases hds : ds ≠ [] ∧ ds.all Char.isDigit = true
        · intro c hc
          rcases List.mem_cons.mp hc with rfl | hc
          · rcases hd with rfl | rfl <;> decide
          · rcases mem_sign hc with hc | rfl | rfl
            · rw [hsign] at hc
              exact isNumeralCharacter_of_isDigit (List.all_eq_true.mp hds.2 c hc)
            · decide
            · decide
        · simp only [if_neg hds] at h
          cases h
    · rw [if_neg hd] at h
      cases h

/-- A text that is read as a numeral has no other characters. -/
theorem isNumeralCharacter_of_numeral? {cs : List Char} {n : Numeral} (h : numeral? cs = some n) :
    ∀ c ∈ cs, isNumeralCharacter c = true := by
  have hdigits : ∀ ds : List Char, ∀ c ∈ ds.takeWhile Char.isDigit, isNumeralCharacter c = true :=
    fun ds c hc => isNumeralCharacter_of_isDigit (List.all_eq_true.mp List.all_takeWhile c hc)
  obtain ⟨⟨whole, fraction, tail⟩, hpointed, hn⟩ := Option.bind_eq_some_iff.mp h
  obtain ⟨e, he, -⟩ := Option.bind_eq_some_iff.mp hn
  have htail := isNumeralCharacter_of_exponent? he
  intro c hc
  rw [← List.takeWhile_append_dropWhile (p := Char.isDigit) (l := cs)] at hc
  rw [pointed?] at hpointed
  split at hpointed
  rename_i fraction' tail' hparts
  split at hpointed
  · cases hpointed
  cases hpointed
  rcases List.mem_append.mp hc with hc | hc
  · exact hdigits cs c hc
  split at hparts
  · rename_i rest hrest
    cases hparts
    rw [hrest] at hc
    rcases List.mem_cons.mp hc with rfl | hc
    · decide
    · rw [← List.takeWhile_append_dropWhile (p := Char.isDigit) (l := rest)] at hc
      exact (List.mem_append.mp hc).elim (hdigits rest c) (htail c)
  · cases hparts
    exact htail c hc

/-- The only digits in numerals are those of ASCII. -/
theorem isDigit_of_isNumeralCharacter {c : Char} (h : isNumeralCharacter c = true)
    (hdigit : Text.isDecimalDigit c = true) : c.isDigit = true := by
  rcases Bool.or_eq_true _ _ |>.mp h with h | h
  · exact h
  · have hnot := Text.of_mem_word (!Text.isDecimalDigit ·) (by decide) (List.contains_iff_mem.mp h)
    rw [hdigit] at hnot
    cases hnot

end Number

namespace Text

/-- All digits are those of ASCII. -/
def DigitRun.IsAscii (d : DigitRun) : Prop := d.chars.all Char.isDigit = true

namespace DecimalRun

/-- All digits are those of ASCII. -/
def IsAscii (d : DecimalRun) : Prop :=
  d.whole.IsAscii ∧ ∀ ds ∈ d.fraction, ds.IsAscii

/-- The float nearest to a decimal. -/
def value (d : DecimalRun) : Float :=
  Number.Numeral.value ⟨d.whole.chars, d.fraction.elim [] (·.chars), 0⟩

theorem float?_of_isAscii {d : DecimalRun} (h : d.IsAscii) :
    Number.float? d.chars = some d.value := by
  obtain ⟨whole, fraction⟩ := d
  obtain ⟨hwhole, hfraction⟩ := h
  cases fraction with
  | none => exact DecimalText.float?_text ⟨⟨whole.chars, whole.ne_nil, hwhole⟩, none⟩
  | some ds =>
    have hds : ds.IsAscii := hfraction ds rfl
    exact DecimalText.float?_text
      ⟨⟨whole.chars, whole.ne_nil, hwhole⟩, some ⟨ds.chars, ds.ne_nil, hds⟩⟩

theorem isAscii_of_float? {d : DecimalRun} {x : Float} (h : Number.float? d.chars = some x) :
    d.IsAscii := by
  obtain ⟨whole, fraction⟩ := d
  obtain ⟨c, cs, hcs⟩ := List.exists_cons_of_ne_nil whole.ne_nil
  have hc : isDecimalDigit c = true := whole.digit c (hcs ▸ List.mem_cons_self)
  obtain ⟨tail, htail⟩ : ∃ tail, chars ⟨whole, fraction⟩ = c :: tail := by
    rw [chars, hcs]
    exact ⟨_, rfl⟩
  rw [htail, Number.float?_of_isDecimalDigit hc, ← htail] at h
  obtain ⟨n, hn, -⟩ := Option.map_eq_some_iff.mp h
  have hall := Number.isNumeralCharacter_of_numeral? hn
  have hrun : ∀ ds : DigitRun, (∀ e ∈ ds.chars, e ∈ chars ⟨whole, fraction⟩) → ds.IsAscii :=
    fun ds hds => List.all_eq_true.mpr fun e he =>
      Number.isDigit_of_isNumeralCharacter (hall e (hds e he)) (ds.digit e he)
  refine ⟨hrun whole fun e he => List.mem_append_left _ he, fun ds hds => hrun ds fun e he => ?_⟩
  obtain rfl := Option.mem_def.mp hds
  exact List.mem_append_right _ (List.mem_cons_of_mem _ he)

/-- A decimal of ASCII is read as the float nearest to it, and no other is a float. -/
theorem float?_eq_some_iff {d : DecimalRun} {x : Float} :
    Number.float? d.chars = some x ↔ d.IsAscii ∧ d.value = x := by
  constructor
  · intro h
    have hascii := isAscii_of_float? h
    rw [float?_of_isAscii hascii] at h
    exact ⟨hascii, Option.some.inj h⟩
  · rintro ⟨hascii, rfl⟩
    exact float?_of_isAscii hascii

end DecimalRun

/-- A run of ASCII digits is a number of thirty-two bits if it is not too large. -/
theorem DigitRun.word?_eq_some_iff {d : DigitRun} {n : UInt32} :
    Number.word? d.chars = some n ↔
      d.IsAscii ∧ Number.natOf d.chars ≤ 2 ^ 32 - 1 ∧ UInt32.ofNat (Number.natOf d.chars) = n := by
  have hsize : UInt32.size = 2 ^ 32 := rfl
  rw [Number.word?, Option.map_eq_some_iff]
  constructor
  · rintro ⟨k, hk, rfl⟩
    obtain ⟨⟨-, hascii, hlt⟩, rfl⟩ := Number.natBelow?_eq_some_iff.mp hk
    exact ⟨hascii, by omega, rfl⟩
  · rintro ⟨hascii, hle, rfl⟩
    exact ⟨_, Number.natBelow?_eq_some_iff.mpr ⟨⟨d.ne_nil, hascii, by omega⟩, rfl⟩, rfl⟩

end Text

/-! ### Converting a phrase -/

/-- A spelling is not taken for a word of another length. -/
theorem Text.Spelled.map_toLower_ne {word : String} (s : Spelled word) (other : String)
    (h : other.toList.length ≠ word.toList.length) : s.chars.map Char.toLower ≠ other.toList := by
  intro heq
  rw [← heq, List.length_map, s.length_eq] at h
  exact h rfl

/-- The first word of a marker in lower case. -/
def Side.word : Side → String
  | .start => "start"
  | .finish => "end"

namespace MarkerPhrase

/-- The first word is that of its side up to the case of ASCII letters. -/
def IsPlain (p : MarkerPhrase) : Prop :=
  p.keyword.chars.map Char.toLower = p.side.word.toList

instance (p : MarkerPhrase) : Decidable p.IsPlain :=
  inferInstanceAs (Decidable (_ = _))

theorem side?_eq (p : MarkerPhrase) : p.marker.side? = if p.IsPlain then some p.side else none := by
  have hofList : ∀ {cs : List Char} {word : String}, String.ofList cs = word ↔ cs = word.toList :=
    ⟨fun h => by rw [← h, String.toList_ofList], fun h => by rw [h, String.ofList_toList]⟩
  obtain ⟨side, keyword, joint, spelling, word, number⟩ := p
  simp only [Marker.side?, marker, hofList]
  cases side with
  | start =>
    rw [if_neg (keyword.map_toLower_ne "end" (by decide))]
    rfl
  | finish =>
    rw [if_neg (keyword.map_toLower_ne "start" (by decide))]
    rfl

theorem side?_eq_some_iff {p : MarkerPhrase} {side : Side} :
    p.marker.side? = some side ↔ p.IsPlain ∧ p.side = side := by
  rw [side?_eq]
  by_cases hplain : p.IsPlain
  · simp [hplain]
  · simp [hplain]

end MarkerPhrase

namespace RamPhrase

/-- The captures are a side, a number of thirty-two bits and a decimal, all of ASCII. -/
structure IsConvertible (p : RamPhrase) : Prop where
  keyword : p.marker.IsPlain
  number : p.marker.number.IsAscii
  number_le : Number.natOf p.marker.number.chars ≤ 2 ^ 32 - 1
  value : p.usage.value.IsAscii

/-- The record that the captures stand for on a line of some index. -/
def record (p : RamPhrase) (index : ℕ) : Record :=
  ⟨p.marker.side, UInt32.ofNat (Number.natOf p.marker.number.chars), p.usage.value.value, index⟩

theorem record?_eq_some_iff {p : RamPhrase} {index : ℕ} {r : Record} :
    p.reading.record? index = some r ↔ p.IsConvertible ∧ p.record index = r := by
  simp only [RamReading.record?, Option.bind_eq_bind, Option.bind_eq_some_iff]
  constructor
  · rintro ⟨side, hside, repetition, hrepetition, value, hvalue, hr⟩
    obtain ⟨hkeyword, hside⟩ := MarkerPhrase.side?_eq_some_iff.mp hside
    obtain ⟨hnumber, hle, hrepetition⟩ := Text.DigitRun.word?_eq_some_iff.mp hrepetition
    obtain ⟨hascii, hvalue⟩ := Text.DecimalRun.float?_eq_some_iff.mp hvalue
    refine ⟨⟨hkeyword, hnumber, hle, hascii⟩, ?_⟩
    rw [record, hside, hrepetition, hvalue]
    exact Option.some.inj hr
  · rintro ⟨⟨hkeyword, hnumber, hle, hascii⟩, rfl⟩
    exact ⟨_, MarkerPhrase.side?_eq_some_iff.mpr ⟨hkeyword, rfl⟩,
      _, Text.DigitRun.word?_eq_some_iff.mpr ⟨hnumber, hle, rfl⟩,
      _, Text.DecimalRun.float?_eq_some_iff.mpr ⟨hascii, rfl⟩, rfl⟩

end RamPhrase

/-! ### Places -/

/-- Whether a word goes on from the front of a line to the rest. -/
def Text.InsideWord (front rest : List Char) : Prop :=
  front.getLast?.any isWordCharacter = true ∧ rest.head?.any isWordCharacter = true

namespace RamPhrase

/-- A phrase in a line, behind some text and in front of some. -/
structure StandsIn (p : RamPhrase) (line front after : List Char) : Prop where
  line_eq : line = front ++ (p.text ++ after)
  not_inside : ¬ Text.InsideWord front (p.text ++ after)

/-- No phrase begins further to the front. -/
structure IsFirstIn (p : RamPhrase) (line front after : List Char) : Prop where
  standsIn : p.StandsIn line front after
  first : ∀ {q : RamPhrase} {front' after' : List Char},
    q.StandsIn line front' after' → front.length ≤ front'.length

theorem exists_head? (p : RamPhrase) (after : List Char) :
    ∃ c, (p.text ++ after).head? = some c ∧ Text.isWordCharacter c = true := by
  have hne : p.text ++ after ≠ [] := by
    simp [text, MarkerPhrase.text]
  obtain ⟨c, cs, hcs⟩ := List.exists_cons_of_ne_nil hne
  have hc : (p.text ++ after).head? = some c := by
    rw [hcs]
    rfl
  refine ⟨c, hc, ?_⟩
  obtain ⟨⟨side, keyword, joint, spelling, word, number⟩, usage⟩ := p
  simp only [text, MarkerPhrase.text, MarkerPhrase.lead, List.append_assoc] at hc
  cases side with
  | start => exact keyword.of_head? Text.isWordCharacter rfl (by decide) hc
  | finish => exact keyword.of_head? Text.isWordCharacter rfl (by decide) hc

/-- A phrase begins with a letter, so a word goes on if the text in front ends in one. -/
theorem isWordEdge_iff (p : RamPhrase) {front after : List Char} :
    Marker.isWordEdge front.getLast? = true ↔ ¬ Text.InsideWord front (p.text ++ after) := by
  obtain ⟨c, hhead, hc⟩ := p.exists_head? after
  rw [Text.InsideWord, hhead, Option.any_some, hc, Marker.isWordEdge]
  simp

/-- What is read at a place is what a phrase has captured that stands there. -/
theorem scan_eq_some_iff {line front rest : List Char} {r : RamReading}
    (h : line = front ++ rest) :
    RamReading.scan front.getLast? rest = some r ↔
      ∃ (p : RamPhrase) (after : List Char), p.StandsIn line front after ∧ p.reading = r := by
  rw [RamReading.scan_eq_some_iff]
  constructor
  · rintro ⟨hedge, p, after, hr, rfl⟩
    exact ⟨p, after, ⟨h, p.isWordEdge_iff.mp hedge⟩, hr⟩
  · rintro ⟨p, after, ⟨hline, hinside⟩, hr⟩
    obtain rfl := List.append_cancel_left (h.symm.trans hline)
    exact ⟨p.isWordEdge_iff.mpr hinside, p, after, hr, rfl⟩

/-- What is between an earlier place and a later one belongs to the text of the earlier one. -/
theorem StandsIn.exists_between {q : RamPhrase} {line front front' rest after' : List Char}
    (hq : q.StandsIn line front' after') (h : line = front ++ rest)
    (hlt : front'.length < front.length) :
    ∃ g, g ≠ [] ∧ front = front' ++ g ∧ g ++ rest = q.text ++ after' := by
  have hprefix : front' <+: front :=
    List.prefix_of_prefix_length_le ⟨_, hq.line_eq.symm⟩ ⟨_, h.symm⟩ hlt.le
  obtain ⟨g, rfl⟩ := hprefix
  refine ⟨g, ?_, rfl, ?_⟩
  · rintro rfl
    rw [List.append_nil] at hlt
    exact lt_irrefl _ hlt
  · rw [List.append_assoc] at h
    exact List.append_cancel_left (h.symm.trans hq.line_eq)

/-- The captures at a place and the end of the phrase are unique. -/
theorem StandsIn.unique {p q : RamPhrase} {line front after after' : List Char}
    (h : p.StandsIn line front after) (h' : q.StandsIn line front after') :
    p.reading = q.reading ∧ after = after' := by
  have hsame : p.text ++ after = q.text ++ after' :=
    List.append_cancel_left (h.line_eq.symm.trans h'.line_eq)
  have hedge := p.isWordEdge_iff.mpr h.not_inside
  have hread : ∀ {r : RamPhrase} {rest : List Char}, p.text ++ after = r.text ++ rest →
      Marker.scan front.getLast? (p.text ++ after) =
          some (r.marker.marker, r.usage.text ++ rest) ∧
        RamReading.usage? (r.usage.text ++ rest) = some (r.usage.value.chars, rest) := by
    intro r rest heq
    rw [heq]
    exact ⟨Marker.scan_eq_some_iff.mpr ⟨hedge, r.marker, rfl, List.append_assoc _ _ _⟩,
      RamReading.usage?_eq_some_iff.mpr ⟨r.usage, rfl, rfl⟩⟩
  obtain ⟨hmarker, husage⟩ := hread rfl
  obtain ⟨hmarker', husage'⟩ := hread hsame
  obtain ⟨hm, hrest⟩ := Prod.mk.inj (Option.some.inj (hmarker.symm.trans hmarker'))
  rw [← hrest] at husage'
  obtain ⟨hv, hafter⟩ := Prod.mk.inj (Option.some.inj (husage.symm.trans husage'))
  exact ⟨by rw [reading, reading, hm, hv], hafter⟩

end RamPhrase

/-! ### Colons -/

namespace Text

theorem count_colon_map_foldLetter (cs : List Char) :
    (cs.map foldLetter).count ':' = cs.count ':' := by
  have hcolon : ∀ c, (foldLetter c == ':') = (c == ':') := by
    intro c
    by_cases hc : foldLetter c = ':'
    · have heq : (c == ':') = true := of_foldLetter (· == ':') hc (by decide)
      rw [hc, heq]
      rfl
    · have hne : c ≠ ':' := by
        rintro rfl
        exact hc rfl
      rw [beq_eq_false_iff_ne.mpr hc, beq_eq_false_iff_ne.mpr hne]
  rw [List.count_eq_countP, List.countP_map, List.count_eq_countP]
  exact List.countP_congr fun c _ => by simp [hcolon c]

/-- A spelling has the colons of its word. -/
theorem Spelled.count_colon {word : String} (s : Spelled word) :
    s.chars.count ':' = word.toList.count ':' := by
  rw [← count_colon_map_foldLetter, s.folds, count_colon_map_foldLetter]

theorem Gap.count_colon (g : Gap) : g.chars.count ':' = 0 := by
  rw [List.count_eq_zero]
  intro hmem
  exact absurd (g.blank _ hmem) (by decide)

theorem DigitRun.count_colon (d : DigitRun) : d.chars.count ':' = 0 := by
  rw [List.count_eq_zero]
  intro hmem
  exact absurd (d.digit _ hmem) (by decide)

theorem DecimalRun.count_colon (d : DecimalRun) : d.chars.count ':' = 0 := by
  obtain ⟨whole, fraction⟩ := d
  cases fraction with
  | none => simp [chars, whole.count_colon]
  | some ds => simp [chars, whole.count_colon, ds.count_colon]

end Text

theorem MarkerPhrase.count_colon_lead (p : MarkerPhrase) : p.lead.count ':' = 0 := by
  have hkeyword : p.side.keyword.toList.count ':' = 0 := by
    cases p.side <;> rfl
  have hword : p.spelling.word.toList.count ':' = 0 := by
    cases p.spelling <;> rfl
  simp only [lead, List.count_append, Text.Spelled.count_colon, Text.DigitRun.count_colon,
    hkeyword, hword]
  rfl

theorem UsagePhrase.count_colon (p : UsagePhrase) : p.text.count ':' = 1 := by
  simp only [text, List.count_append, Text.Gap.count_colon, Text.Spelled.count_colon,
    Text.DecimalRun.count_colon]
  rfl

namespace RamPhrase

/-- A phrase has two colons. -/
theorem count_colon (p : RamPhrase) : p.text.count ':' = 2 := by
  simp only [text, MarkerPhrase.text, List.count_append, MarkerPhrase.count_colon_lead,
    UsagePhrase.count_colon]
  rfl

/-- What stands behind the first colon of a text that begins with a phrase. -/
theorem dropWhile_text (p : RamPhrase) {front : List Char} (h : front.count ':' = 0)
    (after : List Char) :
    (front ++ (p.text ++ after)).dropWhile (· != ':') =
      ':' :: (p.usage.text ++ after) := by
  have hlead : ∀ c ∈ front ++ p.marker.lead, (c != ':') = true := by
    intro c hc
    have hcount : (front ++ p.marker.lead).count ':' = 0 := by
      rw [List.count_append, h, p.marker.count_colon_lead]
    rw [bne_iff_ne]
    rintro rfl
    exact List.count_eq_zero.mp hcount hc
  have hspan := Text.span_append hlead (':' :: (p.usage.text ++ after)) (by simp)
  simpa [text, MarkerPhrase.text] using hspan.2

/-- A phrase that another one stands in ends where the other one ends. -/
theorem eq_nil_of_overlap {p q : RamPhrase} {front after : List Char}
    (h : q.text = front ++ (p.text ++ after)) : after = [] := by
  have hcolons : front.count ':' = 0 := by
    have hcount := congrArg (List.count ':') h
    rw [List.count_append, List.count_append, p.count_colon, q.count_colon] at hcount
    omega
  have hdrop : q.text.dropWhile (· != ':') = ':' :: q.usage.text := by
    have hnil := q.dropWhile_text List.count_nil []
    rwa [List.nil_append, List.append_nil, List.append_nil] at hnil
  rw [h, p.dropWhile_text hcolons] at hdrop
  obtain ⟨-, husage⟩ := List.cons.inj hdrop
  have hread : RamReading.usage? (p.usage.text ++ after) = some (p.usage.value.chars, after) :=
    RamReading.usage?_eq_some_iff.mpr ⟨p.usage, rfl, rfl⟩
  have hread' : RamReading.usage? q.usage.text = some (q.usage.value.chars, []) :=
    RamReading.usage?_eq_some_iff.mpr ⟨q.usage, rfl, (List.append_nil _).symm⟩
  rw [husage, hread'] at hread
  exact (Prod.mk.inj (Option.some.inj hread)).2.symm

end RamPhrase

/-! ### The first place -/

/-- A search finds what its reader reads behind a front in which it reads nothing. -/
theorem Text.search_append_of_none {reader : Option Char → List Char → Option α} {a : α}
    {rest : List Char} : ∀ {front : List Char} {before : Option Char},
      reader (front.getLast?.or before) rest = some a →
      (∀ f g, front = f ++ g → g ≠ [] → reader (f.getLast?.or before) (g ++ rest) = none) →
        search reader before (front ++ rest) = some a
  | [], _, h, _ => search_of_reader h
  | c :: front, before, h, hnone => by
    have hhere : reader before (c :: (front ++ rest)) = none :=
      hnone [] (c :: front) rfl (List.cons_ne_nil c front)
    rw [List.cons_append, search, hhere]
    simp only
    apply search_append_of_none
    · cases front <;> simpa [List.getLast?_cons] using h
    · rintro f g rfl hg
      have hlater := hnone (c :: f) g rfl hg
      cases f <;> simpa [List.getLast?_cons] using hlater

namespace RamPhrase

variable {p : RamPhrase} {line front after : List Char}

theorem IsFirstIn.search_eq (h : p.IsFirstIn line front after) :
    Text.search RamReading.scan none line = some p.reading := by
  have hline := h.standsIn.line_eq
  rw [hline]
  apply Text.search_append_of_none
  · rw [Option.or_none]
    exact (scan_eq_some_iff hline).mpr ⟨p, after, h.standsIn, rfl⟩
  · intro f g hfg hg
    rw [Option.or_none, Option.eq_none_iff_forall_ne_some]
    intro r hr
    have hcut : line = f ++ (g ++ (p.text ++ after)) := by
      rw [hline, hfg, List.append_assoc]
    obtain ⟨q, after', hq, -⟩ := (scan_eq_some_iff hcut).mp hr
    have hle := h.first hq
    have hpos := List.length_pos_iff.mpr hg
    rw [hfg, List.length_append] at hle
    omega

theorem exists_isFirstIn {r : RamReading}
    (h : Text.search RamReading.scan none line = some r) :
    ∃ (p : RamPhrase) (front after : List Char), p.IsFirstIn line front after ∧ p.reading = r := by
  obtain ⟨front, rest, hline, hread, hnone⟩ := Text.search_eq_some h
  rw [Option.or_none] at hread
  obtain ⟨p, after, hp, hr⟩ := (scan_eq_some_iff hline).mp hread
  refine ⟨p, front, after, ⟨hp, fun {q front' after'} hq => ?_⟩, hr⟩
  by_contra hlt
  obtain ⟨g, hg, rfl, -⟩ := hq.exists_between hline (by omega)
  have hcut : line = front' ++ (g ++ rest) := by
    rw [hline, List.append_assoc]
  have hread' := (scan_eq_some_iff hcut).mpr ⟨q, after', hq, rfl⟩
  have hnone' := hnone front' g rfl hg
  rw [Option.or_none, hread'] at hnone'
  cases hnone'

/-- The first phrase stays the first one whatever is put behind it. -/
theorem IsFirstIn.change_after (h : p.IsFirstIn line front after) (after' : List Char) :
    p.IsFirstIn (front ++ (p.text ++ after')) front after' := by
  have hedge := p.isWordEdge_iff.mpr h.standsIn.not_inside
  refine ⟨⟨rfl, p.isWordEdge_iff.mp hedge⟩, fun {q front' rest} hq => ?_⟩
  by_contra hlt
  obtain ⟨g, -, rfl, hsame⟩ := hq.exists_between rfl (by omega)
  -- The other phrase ends with the first one at the latest, so it stood in the line before.
  have hwithin : ∃ more, g ++ p.text = q.text ++ more := by
    rw [← List.append_assoc] at hsame
    rcases List.append_eq_append_iff.mp hsame with ⟨more, hmore, -⟩ | ⟨more, hmore, -⟩
    · rw [List.append_assoc] at hmore
      obtain rfl := eq_nil_of_overlap hmore
      exact ⟨[], by rw [hmore, List.append_nil, List.append_nil]⟩
    · exact ⟨more, hmore⟩
  obtain ⟨more, hmore⟩ := hwithin
  have hline : line = front' ++ (q.text ++ (more ++ after)) := by
    rw [h.standsIn.line_eq, List.append_assoc, ← List.append_assoc g, hmore, List.append_assoc]
  have hq' : q.StandsIn line front' (more ++ after) :=
    ⟨hline, q.isWordEdge_iff.mp (q.isWordEdge_iff.mpr hq.not_inside)⟩
  exact hlt (h.first hq')

theorem IsFirstIn.ofLine?_eq (h : p.IsFirstIn line front after) (index : ℕ) :
    Record.ofLine? line index = p.reading.record? index := by
  rw [Record.ofLine?, h.search_eq]
  rfl

end RamPhrase

/-- **A line has a record if and only if the first phrase in it can be converted.** The record has
the captures of this phrase and the index of the line. The captures at a place are unique, and so
is what stands behind them. If the first phrase cannot be converted there is no record, whatever
follows. The phrase stays the first one with any other text behind it, and as long as it is the
first one the text around it does not matter. -/
theorem Record.ofLine?_outcome (line : List Char) (index : ℕ) :
    (∀ r, ofLine? line index = some r ↔
      ∃ (p : RamPhrase) (front after : List Char),
        p.IsFirstIn line front after ∧ p.IsConvertible ∧ p.record index = r) ∧
    (∀ {p q : RamPhrase} {front after after' : List Char},
      p.StandsIn line front after → q.StandsIn line front after' →
        p.reading = q.reading ∧ after = after') ∧
    ∀ {p : RamPhrase} {front after : List Char}, p.IsFirstIn line front after →
      (¬ p.IsConvertible → ofLine? line index = none) ∧
      (∀ after', p.IsFirstIn (front ++ (p.text ++ after')) front after') ∧
      ∀ {front' after' : List Char}, p.IsFirstIn (front' ++ (p.text ++ after')) front' after' →
        ofLine? (front' ++ (p.text ++ after')) index = ofLine? line index := by
  refine ⟨fun r => ⟨fun hr => ?_, ?_⟩, RamPhrase.StandsIn.unique, fun {p front after} hp =>
    ⟨fun hnot => ?_, hp.change_after, fun {front' after'} hp' => ?_⟩⟩
  · obtain ⟨reading, hreading, hrecord⟩ := Option.bind_eq_some_iff.mp hr
    obtain ⟨p, front, after, hp, rfl⟩ := RamPhrase.exists_isFirstIn hreading
    exact ⟨p, front, after, hp, RamPhrase.record?_eq_some_iff.mp hrecord⟩
  · rintro ⟨p, front, after, hp, hrecord⟩
    rw [hp.ofLine?_eq]
    exact RamPhrase.record?_eq_some_iff.mpr hrecord
  · rw [hp.ofLine?_eq, Option.eq_none_iff_forall_ne_some]
    intro r hr
    exact hnot (RamPhrase.record?_eq_some_iff.mp hr).1
  · rw [hp'.ofLine?_eq, hp.ofLine?_eq]

example : (Record.ofLine? ("Start of repetition 4294967296: RAM Usage: 1 MB, " ++
    "End of repetition 1: RAM Usage: 2 MB").toList 0).isNone = true := by
  decide +kernel

end BenchLog
