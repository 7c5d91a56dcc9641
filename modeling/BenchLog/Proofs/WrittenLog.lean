/-
# Logs as the benchmarks write them

The events of a log are written one a line: a marker with the memory usage, or a
marker with the first of a block of samples and a line for each further one. The
texts in an event carry what makes them readable, digits that are digits and a
number that fits, so an event can always be written and every line of a written
log is read back as the event it came from.

Key definitions: `Digits`, `DecimalText`, `MarkerText`, `RamEvent`, `CpuEvent`,
`DurationText`.
Key theorems: `MarkerText.scan_text`, `RamEvent.ofLine?_line`,
`CpuEvent.ofLine?_opening`, `CpuEvent.ofLine?_sampleLine`,
`Record.ofLog_of_events`, `CpuBlock.ofLog_of_events`,
`ExecutionTime.ofLog_of_durations`.
-/
import BenchLog.Log.Cpu
import BenchLog.Log.ExecutionTime
import BenchLog.Log.Ram
import BenchLog.Proofs.Lexemes

namespace BenchLog

/-! ### Decimals -/

/-- A run of ASCII digits. -/
structure Digits where
  chars : List Char
  ne_nil : chars ≠ []
  all_isDigit : chars.all Char.isDigit = true

/-- The digits of a natural number. -/
def Digits.ofNat (n : ℕ) : Digits where
  chars := Nat.toDigits 10 n
  ne_nil := Nat.toDigits_ne_nil
  all_isDigit := List.all_eq_true.mpr fun _ hc =>
    Nat.isDigit_of_mem_toDigits (by decide) (by decide) hc

/-- A decimal as written: digits, and digits after a point if there is one. -/
structure DecimalText where
  whole : Digits
  fraction : Option Digits

namespace DecimalText

/-- The text of a decimal. -/
def text (d : DecimalText) : List Char :=
  d.whole.chars ++ d.fraction.elim [] fun ds => '.' :: ds.chars

/-- The float nearest to a decimal. -/
def value (d : DecimalText) : Float :=
  Number.Numeral.value ⟨d.whole.chars, d.fraction.elim [] (·.chars), 0⟩

theorem decimal_text (d : DecimalText) {c : Char} (rest : List Char)
    (hdigit : Text.isDecimalDigit c = false) (hpoint : c ≠ '.') :
    Text.decimal (d.text ++ c :: rest) = some (d.text, c :: rest) := by
  obtain ⟨whole, fraction⟩ := d
  cases fraction with
  | none =>
    have hw : Text.digits (whole.chars ++ c :: rest) = some (whole.chars, c :: rest) :=
      Text.digits_append whole.ne_nil whole.all_isDigit (by simpa using hdigit)
    simp [text, Text.decimal, hw, hpoint]
  | some fraction =>
    have hw : Text.digits (whole.chars ++ '.' :: (fraction.chars ++ c :: rest)) =
        some (whole.chars, '.' :: (fraction.chars ++ c :: rest)) :=
      Text.digits_append whole.ne_nil whole.all_isDigit (by simp; decide)
    have hf : Text.digits (fraction.chars ++ c :: rest) = some (fraction.chars, c :: rest) :=
      Text.digits_append fraction.ne_nil fraction.all_isDigit (by simpa using hdigit)
    simp [text, Text.decimal, hw, hf]

theorem exists_text_cons (d : DecimalText) : ∃ c cs, d.text = c :: cs ∧ c.isDigit = true := by
  obtain ⟨⟨whole, hne, hall⟩, fraction⟩ := d
  obtain ⟨c, cs, rfl⟩ := List.exists_cons_of_ne_nil hne
  exact ⟨c, _, rfl, List.all_eq_true.mp hall c List.mem_cons_self⟩

/-- A decimal begins with no blank. -/
theorem trimStart_text (d : DecimalText) (rest : List Char) :
    Text.trimStart (" ".toList ++ (d.text ++ rest)) = d.text ++ rest := by
  obtain ⟨c, cs, hcs, hc⟩ := d.exists_text_cons
  have hblank : Text.isBlank c = false :=
    Bool.not_eq_true' _ |>.mp (Text.of_isDigit (fun c => !Text.isBlank c) (by decide) hc)
  rw [hcs]
  exact (Text.trimStart_blank (by decide) _).trans
    (Text.trimStart_of_head fun d hd => Option.some.inj hd ▸ hblank)

theorem mem_text {d : DecimalText} {c : Char} (h : c ∈ d.text) : c.isDigit = true ∨ c = '.' := by
  obtain ⟨whole, fraction⟩ := d
  rcases List.mem_append.mp h with h | h
  · exact .inl (List.all_eq_true.mp whole.all_isDigit c h)
  · cases fraction with
    | none => cases h
    | some fraction =>
      rcases List.mem_cons.mp h with rfl | h
      · exact .inr rfl
      · exact .inl (List.all_eq_true.mp fraction.all_isDigit c h)

theorem isLineCharacter_of_mem_text {d : DecimalText} {c : Char} (h : c ∈ d.text) :
    Text.isLineCharacter c = true := by
  rcases mem_text h with h | rfl
  · exact Text.isLineCharacter_of_isDigit h
  · decide

theorem numeral?_text (d : DecimalText) :
    Number.numeral? d.text = some ⟨d.whole.chars, d.fraction.elim [] (·.chars), 0⟩ := by
  obtain ⟨whole, fraction⟩ := d
  have hwhole := List.all_eq_true.mp whole.all_isDigit
  cases fraction with
  | none => exact Number.numeral?_whole [] hwhole whole.ne_nil (by simp)
  | some fraction =>
    have hread := Number.numeral?_point [] hwhole (List.all_eq_true.mp fraction.all_isDigit)
      (by simp [whole.ne_nil]) (by simp)
    rw [List.append_nil] at hread
    exact hread

/-- A decimal is read as the float nearest to it. -/
theorem float?_text (d : DecimalText) : Number.float? d.text = some d.value := by
  obtain ⟨c, cs, hcs, hc⟩ := d.exists_text_cons
  rw [hcs, Number.float?_of_isDecimalDigit (Text.isDecimalDigit_of_isDigit hc), ← hcs,
    numeral?_text]
  rfl

end DecimalText

/-! ### Markers -/

/-- The spellings of the word in use. -/
inductive Spelling where
  | repetition
  | repitition
  | repition
  deriving DecidableEq, Repr

/-- The word of a spelling. -/
def Spelling.word : Spelling → String
  | repetition => "repetition"
  | repitition => "repitition"
  | repition => "repition"

/-- The first word of a marker. -/
def Side.keyword : Side → String
  | .start => "Start"
  | .finish => "End"

/-- A marker as written, with the number that its digits stand for. -/
structure MarkerText where
  side : Side
  spelling : Spelling
  number : Digits
  repetition : UInt32
  reads : Number.word? number.chars = some repetition

namespace MarkerText

/-- The text of a marker: `Start of repetition 3:`. -/
def text (m : MarkerText) : List Char :=
  m.side.keyword.toList ++ (" of ".toList ++ (m.spelling.word.toList ++ (" ".toList ++
    (m.number.chars ++ ":".toList))))

/-- The marker of a repetition whose number is written without leading zeros. -/
def ofRepetition (side : Side) (spelling : Spelling) (repetition : UInt32) : MarkerText where
  side
  spelling
  number := .ofNat repetition.toNat
  repetition
  reads := Number.word?_toDigits repetition

/-- What a marker marks. -/
def mark (m : MarkerText) : Side × UInt32 := (m.side, m.repetition)

theorem keyword?_append (side : Side) (rest : List Char) :
    Marker.keyword? (side.keyword.toList ++ rest) = some (side.keyword.toList, rest) := by
  cases side <;> rfl

theorem spelling?_append (spelling : Spelling) (rest : List Char) :
    Marker.spelling? (spelling.word.toList ++ rest) = some rest := by
  cases spelling <;> rfl

theorem side?_keyword (side : Side) (number : List Char) :
    Marker.side? ⟨side.keyword.toList, number⟩ = some side := by
  cases side <;> rfl

/-- A marker at the front of a line is read as written. -/
theorem scan_text (m : MarkerText) (rest : List Char) :
    Marker.scan none (m.text ++ rest) =
      some (⟨m.side.keyword.toList, m.number.chars⟩, rest) := by
  have hof : Text.literalFold " of " (" of ".toList ++ (m.spelling.word.toList ++ (" ".toList ++
      (m.number.chars ++ (":".toList ++ rest))))) = some (m.spelling.word.toList ++ (" ".toList ++
      (m.number.chars ++ (":".toList ++ rest)))) :=
    Text.literalFold_append rfl _
  have hdigits : Text.digits (m.number.chars ++ (":".toList ++ rest)) =
      some (m.number.chars, ":".toList ++ rest) :=
    Text.digits_append m.number.ne_nil m.number.all_isDigit (by simp; decide)
  simp only [text, List.append_assoc]
  simp only [Marker.scan, keyword?_append, hof, spelling?_append, Text.literal_append, hdigits,
    Option.bind_eq_bind, Option.bind_some]
  rfl

theorem scan_of_keyword?_eq_none {cs : List Char} (h : Marker.keyword? cs = none)
    (before : Option Char) : Marker.scan before cs = none := by
  simp [Marker.scan, h]

theorem mem_text {m : MarkerText} {c : Char} (h : c ∈ m.text) :
    c.isDigit = true ∨ c ∈ "StartEnd of repitition:".toList := by
  obtain ⟨side, spelling, number, repetition, reads⟩ := m
  have hword : ∀ {word : String}, word.toList.all "StartEnd of repitition:".toList.contains = true →
      c ∈ word.toList → c ∈ "StartEnd of repitition:".toList := fun hall hc =>
    List.contains_iff_mem.mp (Text.of_mem_word _ hall hc)
  simp only [text, List.mem_append] at h
  rcases h with h | h | h | h | h | h
  · exact .inr (hword (by cases side <;> rfl) h)
  · exact .inr (hword rfl h)
  · exact .inr (hword (by cases spelling <;> rfl) h)
  · exact .inr (hword rfl h)
  · exact .inl (List.all_eq_true.mp number.all_isDigit c h)
  · exact .inr (hword rfl h)

theorem isLineCharacter_of_mem_text {m : MarkerText} {c : Char} (h : c ∈ m.text) :
    Text.isLineCharacter c = true := by
  rcases mem_text h with h | h
  · exact Text.isLineCharacter_of_isDigit h
  · exact Text.of_mem_word Text.isLineCharacter rfl h

end MarkerText

/-! ### The log of memory usage -/

/-- One side of a repetition in the log of memory usage. -/
structure RamEvent where
  marker : MarkerText
  usage : DecimalText

namespace RamEvent

/-- What an event marks. -/
def mark (e : RamEvent) : Side × UInt32 := e.marker.mark

/-- The line of an event: `Start of repetition 3: RAM Usage: 7450 MB`. -/
def line (e : RamEvent) : List Char :=
  e.marker.text ++ (" RAM Usage: ".toList ++ (e.usage.text ++ " MB".toList))

/-- The record of an event on a line of some index. -/
def record (e : RamEvent) (index : ℕ) : Record :=
  ⟨e.marker.side, e.marker.repetition, e.usage.value, index⟩

theorem isLineCharacter_of_mem_line {e : RamEvent} {c : Char} (h : c ∈ e.line) :
    Text.isLineCharacter c = true := by
  simp only [line, List.mem_append] at h
  rcases h with h | h | h | h
  · exact MarkerText.isLineCharacter_of_mem_text h
  · exact Text.of_mem_word Text.isLineCharacter rfl h
  · exact DecimalText.isLineCharacter_of_mem_text h
  · exact Text.of_mem_word Text.isLineCharacter rfl h

/-- What was written as events is read as their lines. -/
theorem lines_written (events : List RamEvent) :
    Text.lines (Text.written (events.map line)) = events.map line := by
  refine Text.lines_written fun l hl c hc => ?_
  obtain ⟨e, -, rfl⟩ := List.mem_map.mp hl
  exact isLineCharacter_of_mem_line hc

theorem scan_line (e : RamEvent) :
    RamReading.scan none e.line =
      some ⟨⟨e.marker.side.keyword.toList, e.marker.number.chars⟩, e.usage.text⟩ := by
  have hheading : Text.trimStart (" RAM Usage: ".toList ++ (e.usage.text ++ " MB".toList)) =
      "RAM Usage:".toList ++ (" ".toList ++ (e.usage.text ++ " MB".toList)) := rfl
  have hword : Text.literalFold "RAM Usage:"
      ("RAM Usage:".toList ++ (" ".toList ++ (e.usage.text ++ " MB".toList))) =
        some (" ".toList ++ (e.usage.text ++ " MB".toList)) :=
    Text.literalFold_append rfl _
  have hvalue : Text.decimal (e.usage.text ++ " MB".toList) = some (e.usage.text, " MB".toList) :=
    e.usage.decimal_text _ (by decide) (by decide)
  have hunit : Text.literalFold "MB" (Text.trimStart " MB".toList) = some [] := rfl
  rw [line, RamReading.scan]
  simp only [MarkerText.scan_text, Option.bind_eq_bind, Option.bind_some, hheading, hword,
    e.usage.trimStart_text, hvalue, hunit]

/-- The line of an event is read as its record. -/
theorem ofLine?_line (e : RamEvent) (index : ℕ) :
    Record.ofLine? e.line index = some (e.record index) := by
  rw [Record.ofLine?, Text.search_of_reader e.scan_line, Option.bind_some, RamReading.record?]
  simp only [MarkerText.side?_keyword, Marker.repetition?, e.marker.reads, e.usage.float?_text,
    Option.bind_eq_bind, Option.bind_some, record]

end RamEvent

/-- The records of a written log are those of its events. -/
theorem Record.ofLog_of_events {text : List Char} {events : List RamEvent}
    (h : Text.lines text = events.map RamEvent.line) :
    Record.ofLog text = events.zipIdx.map fun e => e.1.record e.2 := by
  have hread : ((fun l : List Char × ℕ => Record.ofLine? l.1 l.2) ∘ Prod.map RamEvent.line id) =
      fun e => some (e.1.record e.2) :=
    funext fun e => e.1.ofLine?_line e.2
  rw [Record.ofLog, Record.ofNumberedLines, h, List.zipIdx_map, List.filterMap_map, hread]
  exact congrFun List.filterMap_eq_map' _

/-! ### The log of the processor's usage -/

/-- One side of a repetition in the log of the processor's usage, with the
samples of its block. -/
structure CpuEvent where
  marker : MarkerText
  first : DecimalText
  further : List DecimalText

namespace CpuEvent

/-- What an event marks. -/
def mark (e : CpuEvent) : Side × UInt32 := e.marker.mark

/-- A sample as written: `Cpu(s): 12.5 us`. -/
def sampleText (d : DecimalText) : List Char :=
  "Cpu(s): ".toList ++ (d.text ++ " us".toList)

/-- The line that opens the block of an event. -/
def opening (e : CpuEvent) : List Char :=
  e.marker.text ++ (" Goroutines: %".toList ++ sampleText e.first)

/-- The line of a further sample. -/
def sampleLine (d : DecimalText) : List Char :=
  "%".toList ++ sampleText d

/-- The lines of an event. -/
def lines (e : CpuEvent) : List (List Char) :=
  e.opening :: e.further.map sampleLine

/-- The largest sample of an event. -/
def largest (e : CpuEvent) : Float :=
  e.further.foldl (fun x d => Number.larger x d.value) e.first.value

/-- The row of an event: its repetition and the largest of its samples. -/
def row (e : CpuEvent) : UInt32 × Float := (e.marker.repetition, e.largest)

theorem isLineCharacter_of_mem_sampleText {d : DecimalText} {c : Char} (h : c ∈ sampleText d) :
    Text.isLineCharacter c = true := by
  rcases List.mem_append.mp h with h | h
  · exact Text.of_mem_word Text.isLineCharacter rfl h
  · rcases List.mem_append.mp h with h | h
    · exact DecimalText.isLineCharacter_of_mem_text h
    · exact Text.of_mem_word Text.isLineCharacter rfl h

theorem isLineCharacter_of_mem_lines {e : CpuEvent} {l : List Char} (hl : l ∈ e.lines) {c : Char}
    (h : c ∈ l) : Text.isLineCharacter c = true := by
  rcases List.mem_cons.mp hl with rfl | hl
  · rcases List.mem_append.mp h with h | h
    · exact MarkerText.isLineCharacter_of_mem_text h
    · rcases List.mem_append.mp h with h | h
      · exact Text.of_mem_word Text.isLineCharacter rfl h
      · exact isLineCharacter_of_mem_sampleText h
  · obtain ⟨d, -, rfl⟩ := List.mem_map.mp hl
    rcases List.mem_append.mp h with h | h
    · exact Text.of_mem_word Text.isLineCharacter rfl h
    · exact isLineCharacter_of_mem_sampleText h

theorem lines_written (events : List CpuEvent) :
    Text.lines (Text.written (events.flatMap lines)) = events.flatMap lines := by
  refine Text.lines_written fun l hl c hc => ?_
  obtain ⟨e, -, hl⟩ := List.mem_flatMap.mp hl
  exact isLineCharacter_of_mem_lines hl hc

theorem scanSample_sampleText (d : DecimalText) :
    CpuLine.scanSample (sampleText d) = some d.text := by
  have hheading : Text.literal "Cpu(s):" (sampleText d) =
      some (" ".toList ++ (d.text ++ " us".toList)) :=
    Text.literal_eq_some_iff.mpr rfl
  have hvalue : Text.decimal (d.text ++ " us".toList) = some (d.text, " us".toList) :=
    d.decimal_text _ (by decide) (by decide)
  have hunit : Text.literal "us" (Text.trimStart " us".toList) = some [] := rfl
  simp only [CpuLine.scanSample, hheading, Option.bind_eq_bind, Option.bind_some,
    d.trimStart_text, hvalue, hunit]

/-- A sample behind a text without a capital C is found. -/
theorem sampleOfLine?_append {front : List Char} (h : front.all (· != 'C') = true)
    (d : DecimalText) :
    CpuLine.sampleOfLine? (front ++ sampleText d) = some d.value := by
  have hfront : ∀ c ∈ front, ∀ (_ : Option Char) (cs : List Char),
      CpuLine.scanSample (c :: cs) = none := by
    intro c hc _ cs
    cases hword : Text.literal "Cpu(s):" (c :: cs) with
    | none => simp [CpuLine.scanSample, hword]
    | some rest =>
      have hne : c ≠ 'C' := bne_iff_ne.mp (List.all_eq_true.mp h c hc)
      exact absurd (List.cons.inj (Text.literal_eq_some_iff.mp hword)).1 hne
  rw [CpuLine.sampleOfLine?, Text.search_append hfront,
    Text.search_of_reader (scanSample_sampleText d), Option.bind_some, d.float?_text]

/-- A line that opens a block is read as its marker and its sample. -/
theorem ofLine?_opening (e : CpuEvent) :
    CpuLine.ofLine? e.opening =
      some (.marker e.marker.side e.marker.repetition (some e.first.value)) := by
  have hsample : CpuLine.sampleOfLine? e.opening = some e.first.value := by
    rw [opening, ← List.append_assoc]
    refine sampleOfLine?_append (List.all_eq_true.mpr fun c hc => ?_) e.first
    rcases List.mem_append.mp hc with hc | hc
    · rcases MarkerText.mem_text hc with hc | hc
      · exact bne_iff_ne.mpr (Text.ne_of_isDigit hc (by decide))
      · exact Text.of_mem_word (· != 'C') rfl hc
    · exact Text.of_mem_word (· != 'C') rfl hc
  have hmarker : CpuLine.markerOfLine? e.opening =
      some ⟨e.marker.side.keyword.toList, e.marker.number.chars⟩ :=
    Text.search_of_reader (by rw [opening, e.marker.scan_text]; rfl)
  simp only [CpuLine.ofLine?, hsample, hmarker, MarkerText.side?_keyword, Marker.repetition?,
    e.marker.reads, Option.bind_eq_bind, Option.bind_some]

/-- Whether a letter begins neither of the first words of markers. -/
def beginsNoMarker (c : Char) : Bool :=
  !Text.sameLetter 's' c && !Text.sameLetter 'e' c

theorem keyword?_cons_eq_none {c : Char} (h : beginsNoMarker c = true) (cs : List Char) :
    Marker.keyword? (c :: cs) = none := by
  simp only [beginsNoMarker, Bool.and_eq_true, Bool.not_eq_true'] at h
  obtain ⟨hs, he⟩ := h
  have hstart : Text.literalFold "start" (c :: cs) = none := by
    rw [Text.literalFold, show "start".toList = ['s', 't', 'a', 'r', 't'] from rfl,
      Text.literalBy, hs]
    rfl
  have hend : Text.literalFold "end" (c :: cs) = none := by
    rw [Text.literalFold, show "end".toList = ['e', 'n', 'd'] from rfl, Text.literalBy, he]
    rfl
  simp [Marker.keyword?, hstart, hend]

/-- The first marker in a text behind a character. -/
abbrev searchMarker (before : Option Char) (cs : List Char) : Option Marker :=
  Text.search (fun before cs => (Marker.scan before cs).map (·.1)) before cs

theorem searchMarker_cons {c : Char} {cs : List Char} (h : Marker.keyword? (c :: cs) = none)
    (before : Option Char) : searchMarker before (c :: cs) = searchMarker (some c) cs := by
  rw [searchMarker, Text.search, MarkerText.scan_of_keyword?_eq_none h]
  rfl

/-- A search for a marker passes over letters that begin no marker. -/
theorem searchMarker_append {front : List Char} (h : front.all beginsNoMarker = true)
    (before : Option Char) (rest : List Char) :
    searchMarker before (front ++ rest) = searchMarker (front.getLast?.or before) rest :=
  Text.search_append fun c hc before cs => by
    have hnone := keyword?_cons_eq_none (List.all_eq_true.mp h c hc) cs
    rw [MarkerText.scan_of_keyword?_eq_none hnone]
    rfl

/-- No marker stands on the line of a sample. -/
theorem markerOfLine?_sampleLine (d : DecimalText) :
    CpuLine.markerOfLine? (sampleLine d) = none := by
  -- The only letters of the line that begin a first word are the s of `(s)` and of `us`.
  have hsplit : sampleLine d =
      "%Cpu(".toList ++ ('s' :: (("): ".toList ++ (d.text ++ " u".toList)) ++ ['s'])) := by
    rw [List.append_assoc, List.append_assoc]
    rfl
  have hmiddle : ("): ".toList ++ (d.text ++ " u".toList)).all beginsNoMarker = true := by
    refine List.all_eq_true.mpr fun c hc => ?_
    simp only [List.mem_append] at hc
    rcases hc with hc | hc | hc
    · exact Text.of_mem_word beginsNoMarker rfl hc
    · rcases d.mem_text hc with hc | rfl
      · exact Text.of_isDigit beginsNoMarker rfl hc
      · decide
    · exact Text.of_mem_word beginsNoMarker rfl hc
  calc CpuLine.markerOfLine? (sampleLine d)
      = searchMarker (some '(')
          ('s' :: (("): ".toList ++ (d.text ++ " u".toList)) ++ ['s'])) := by
        rw [CpuLine.markerOfLine?, hsplit]
        exact searchMarker_append rfl none _
    _ = searchMarker (some 's') (("): ".toList ++ (d.text ++ " u".toList)) ++ ['s']) :=
        searchMarker_cons rfl _
    _ = searchMarker _ ['s'] := searchMarker_append hmiddle _ _
    _ = searchMarker (some 's') [] := searchMarker_cons rfl _
    _ = none := rfl

/-- The line of a further sample is read as its value. -/
theorem ofLine?_sampleLine (d : DecimalText) :
    CpuLine.ofLine? (sampleLine d) = some (.sample d.value) := by
  have hsample : CpuLine.sampleOfLine? (sampleLine d) = some d.value :=
    sampleOfLine?_append rfl d
  simp only [CpuLine.ofLine?, hsample, markerOfLine?_sampleLine, Option.map_some]

/-- What the lines of an event are. -/
def readings (e : CpuEvent) : List (Option CpuLine) :=
  some (.marker e.marker.side e.marker.repetition (some e.first.value)) ::
    e.further.map fun d => some (.sample d.value)

theorem map_ofLine?_lines (e : CpuEvent) : e.lines.map CpuLine.ofLine? = e.readings := by
  rw [lines, readings, List.map_cons, e.ofLine?_opening, List.map_map]
  congr 1
  exact List.map_congr_left fun d _ => ofLine?_sampleLine d

/-- Further samples raise the largest one of the open block. -/
theorem rows_samples (repetition : UInt32) (rest : List (Option CpuLine)) :
    ∀ (further : List DecimalText) (x : Float),
      CpuBlock.rows (some ⟨repetition, some x⟩)
          (further.map (fun d => some (.sample d.value)) ++ rest) =
        CpuBlock.rows
          (some ⟨repetition, some (further.foldl (fun x d => Number.larger x d.value) x)⟩) rest
  | [], _ => rfl
  | d :: further, x => by
    rw [List.map_cons, List.cons_append, CpuBlock.rows_sample, List.foldl_cons]
    exact rows_samples repetition rest further (Number.larger x d.value)

/-- Each event closes the block in front of it and leaves its own. -/
theorem rows_readings : ∀ (events : List CpuEvent) (block : Option CpuBlock),
    CpuBlock.rows block (events.flatMap readings) =
      (block.bind CpuBlock.row?).toList ++ events.map row
  | [], block => by simp [CpuBlock.rows]
  | e :: events, block => by
    rw [List.flatMap_cons, readings, List.cons_append, CpuBlock.rows_marker, rows_samples,
      rows_readings events]
    rfl

end CpuEvent

/-- The blocks of a written log are those of its events. -/
theorem CpuBlock.ofLog_of_events {text : List Char} {events : List CpuEvent}
    (h : Text.lines text = events.flatMap CpuEvent.lines) :
    CpuBlock.ofLog text = events.map CpuEvent.row := by
  rw [CpuBlock.ofLog, h, List.map_flatMap]
  simp only [CpuEvent.map_ofLine?_lines]
  rw [CpuEvent.rows_readings]
  rfl

/-! ### The log of execution times -/

/-- A duration as written, without blanks, with the milliseconds it stands for. -/
structure DurationText where
  text : List Char
  no_blank : text.any Text.isBlank = false
  milliseconds : Float
  reads : Duration.milliseconds text = .ok milliseconds

namespace DurationText

/-- The line of a duration. -/
def line (d : DurationText) : List Char :=
  "Execution Time: ".toList ++ d.text

theorem isBlank_of_mem_text {d : DurationText} {c : Char} (h : c ∈ d.text) :
    Text.isBlank c = false := by
  simpa using List.any_eq_false.mp d.no_blank c h

theorem isLineCharacter_of_mem_line {d : DurationText} {c : Char} (h : c ∈ d.line) :
    Text.isLineCharacter c = true := by
  rcases List.mem_append.mp h with h | h
  · exact Text.of_mem_word Text.isLineCharacter rfl h
  · exact Text.isLineCharacter_of_not_isBlank (isBlank_of_mem_text h)

theorem lines_written (durations : List DurationText) :
    Text.lines (Text.written (durations.map line)) = durations.map line := by
  refine Text.lines_written fun l hl c hc => ?_
  obtain ⟨d, -, rfl⟩ := List.mem_map.mp hl
  exact isLineCharacter_of_mem_line hc

theorem text_ne_nil (d : DurationText) : d.text ≠ [] := by
  intro hnil
  have hreads := d.reads
  rw [hnil] at hreads
  cases hreads

/-- The line of a duration is read as its milliseconds. -/
theorem ofLine?_line (d : DurationText) :
    ExecutionTime.ofLine? d.line = some (.ok d.milliseconds) := by
  have hheading : Text.literal "Execution Time:" d.line = some (" ".toList ++ d.text) :=
    Text.literal_eq_some_iff.mpr rfl
  have htrim : Text.trimStart (" ".toList ++ d.text) = d.text :=
    (Text.trimStart_blank (by decide) _).trans (Text.trimStart_of_no_blank fun c => isBlank_of_mem_text)
  have htoken : Text.run (fun c => !Text.isBlank c) d.text = some (d.text, []) :=
    Text.run_eq_some_iff.mpr ⟨d.text_ne_nil, by simp, fun c hc => by simp [isBlank_of_mem_text hc], by simp⟩
  have hscan : ExecutionTime.scan d.line = some d.text := by
    simp only [ExecutionTime.scan, hheading, Option.bind_eq_bind, Option.bind_some, htrim, htoken]
  rw [ExecutionTime.ofLine?, Text.search_of_reader hscan, Option.map_some, d.reads]

end DurationText

/-- The execution times of a written log are those of its durations. -/
theorem ExecutionTime.ofLog_of_durations {text : List Char} {durations : List DurationText}
    (h : Text.lines text = durations.map DurationText.line) :
    ExecutionTime.ofLog text = .ok (durations.map (·.milliseconds)) := by
  have hread : ExecutionTime.ofLine? ∘ DurationText.line = fun d => some (.ok d.milliseconds) :=
    funext DurationText.ofLine?_line
  rw [ExecutionTime.ofLog, h, List.filterMap_map, hread, List.filterMap_eq_map', List.mapM_map]
  exact List.mapM_pure

end BenchLog
