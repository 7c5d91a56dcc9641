/-
# What the readers of lines do not see

A carriage return at the end of a line is not seen. No lexeme of the log
grammars holds one, and the text of a lexeme ends in front of it where it would
end at the end of the line; the blanks that are passed over may hold it, but
what has to follow them is missing either way. So every reader, with a carriage
return behind its text, reads the same and leaves the carriage return in its
rest (`literal_return`, `run_return` and so on).

A blank line is not seen either, as no grammar begins with a blank. So the
readers that look for their form anywhere in a line read the same with a
carriage return at its end, and nothing in a blank line (`LineGrammar`). What the
lines of a text say is then the same with or without carriage returns, and what
stands behind a line feed is read for itself.

Key definitions: `Text.LineReader`, `LineGrammar`, `Text.readings`,
`Text.withReturns`.
Key theorems: `Text.reader_trimStart_return`, `Text.LineReader.lineGrammar`,
`LineGrammar.readings_append`, `LineGrammar.readings_withReturns`,
`Record.lineGrammar`, `CpuLine.lineGrammar`, `ExecutionTime.lineGrammar`,
`PreprocessingEvent.lineGrammar`.
-/
import Mathlib.Data.List.Basic
import BenchLog.Log.Preprocessing
import BenchLog.Proofs.WrittenLog

namespace BenchLog

namespace Text

/-! ### Lexemes in front of a carriage return -/

theorem literalBy_return {same : Char → Char → Bool} :
    ∀ {word : List Char}, word.all (fun w => !same w '\r') = true → ∀ cs : List Char,
      literalBy same word (cs ++ ['\r']) = (literalBy same word cs).map (· ++ ['\r'])
  | [], _, _ => rfl
  | w :: word, h, [] => by
    rw [List.all_cons, Bool.and_eq_true, Bool.not_eq_true'] at h
    rw [List.nil_append, literalBy, h.1]
    rfl
  | w :: word, h, c :: cs => by
    rw [List.all_cons, Bool.and_eq_true] at h
    rw [List.cons_append, literalBy, literalBy, literalBy_return h.2]
    split <;> rfl

/-- A text that begins with a word is at least as long as the word. -/
theorem length_le_of_literalBy {same : Char → Char → Bool} :
    ∀ {word cs rest : List Char}, literalBy same word cs = some rest → word.length ≤ cs.length
  | [], cs, _, _ => Nat.zero_le cs.length
  | _ :: _, [], _, h => nomatch h
  | w :: word, c :: cs, rest, h => by
    rw [literalBy] at h
    split at h
    · exact Nat.succ_le_succ (length_le_of_literalBy h)
    · cases h

theorem literal_return {word : String} (h : word.toList.all (fun w => !(w == '\r')) = true)
    (cs : List Char) : literal word (cs ++ ['\r']) = (literal word cs).map (· ++ ['\r']) :=
  literalBy_return h cs

theorem literalFold_return {word : String}
    (h : word.toList.all (fun w => !sameLetter w '\r') = true) (cs : List Char) :
    literalFold word (cs ++ ['\r']) = (literalFold word cs).map (· ++ ['\r']) :=
  literalBy_return h cs

theorem run_return {p : Char → Bool} (h : p '\r' = false) (cs : List Char) :
    run p (cs ++ ['\r']) = (run p cs).map fun r => (r.1, r.2 ++ ['\r']) := by
  have htake : (cs ++ ['\r']).takeWhile p = cs.takeWhile p := by
    rw [List.takeWhile_append]
    split
    · rename_i hall
      rw [List.takeWhile_cons_of_neg (by simp [h]), List.append_nil]
      exact ((List.takeWhile_prefix p).eq_of_length hall).symm
    · rfl
  have hdrop : (cs ++ ['\r']).dropWhile p = cs.dropWhile p ++ ['\r'] := by
    have hboth : cs.takeWhile p ++ (cs ++ ['\r']).dropWhile p =
        cs.takeWhile p ++ (cs.dropWhile p ++ ['\r']) := by
      rw [← List.append_assoc, List.takeWhile_append_dropWhile, ← htake,
        List.takeWhile_append_dropWhile]
    exact List.append_cancel_left hboth
  rw [run, run, htake, hdrop]
  cases cs.takeWhile p <;> rfl

theorem digits_return (cs : List Char) :
    digits (cs ++ ['\r']) = (digits cs).map fun r => (r.1, r.2 ++ ['\r']) :=
  run_return (by decide) cs

theorem fixedDigits_return (count : ℕ) (cs : List Char) :
    fixedDigits count (cs ++ ['\r']) =
      (fixedDigits count cs).map fun r => (r.1, r.2 ++ ['\r']) := by
  by_cases hlength : count ≤ cs.length
  · rw [fixedDigits, fixedDigits, List.take_append_of_le_length hlength,
      List.drop_append_of_le_length hlength]
    split <;> rfl
  · -- Too short a text is prolonged by something that is no digit.
    have hshort : (cs.take count).length ≠ count := by
      rw [List.length_take]
      omega
    have hmem : '\r' ∈ (cs ++ ['\r']).take count := by
      have hall : (cs ++ ['\r']).take count = cs ++ ['\r'] :=
        List.take_of_length_le (by rw [List.length_append]; simp; omega)
      rw [hall]
      exact List.mem_append_right _ List.mem_cons_self
    have hnot : ((cs ++ ['\r']).take count).all isDecimalDigit = false :=
      List.all_eq_false.mpr ⟨'\r', hmem, by decide⟩
    simp only [fixedDigits, hshort, hnot, Bool.false_eq_true, and_false, false_and, if_false,
      Option.map_none]

theorem decimal_return (cs : List Char) :
    decimal (cs ++ ['\r']) = (decimal cs).map fun r => (r.1, r.2 ++ ['\r']) := by
  rw [decimal, decimal, digits_return]
  cases hwhole : digits cs with
  | none => rfl
  | some r =>
    obtain ⟨whole, rest⟩ := r
    cases rest with
    | nil => rfl
    | cons c rest =>
      by_cases hc : c = '.'
      · subst hc
        simp only [Option.map_some, List.cons_append, digits_return]
        cases digits rest <;> rfl
      · simp [hc]

/-- A reader that fails at the end of the text may pass over blanks first. -/
theorem reader_trimStart_return {reader : List Char → Option β} {prolong : β → β}
    (hnil : reader [] = none)
    (hreader : ∀ cs, reader (cs ++ ['\r']) = (reader cs).map prolong) (cs : List Char) :
    reader (trimStart (cs ++ ['\r'])) = (reader (trimStart cs)).map prolong := by
  have htrim : trimStart (cs ++ ['\r']) =
      if trimStart cs = [] then [] else trimStart cs ++ ['\r'] := by
    rw [trimStart, List.dropWhile_append, ← trimStart]
    by_cases h : trimStart cs = []
    · simp [h, show isBlank '\r' = true from by decide]
    · simp [h]
  rw [htrim]
  split
  · rename_i h
    rw [h, hnil]
    rfl
  · exact hreader _

/-- Readers in sequence prolong the rest if each of them does. -/
theorem bind_return {read readReturn : Option β} {prolong : β → β} {next : β → Option γ}
    {prolong' : γ → γ} (hread : readReturn = read.map prolong)
    (hnext : ∀ b, next (prolong b) = (next b).map prolong') :
    readReturn.bind next = (read.bind next).map prolong' := by
  rw [hread]
  cases read with
  | none => rfl
  | some b => exact hnext b

/-! ### Blanks -/

/-- The code points of all blanks. -/
def blankCodes : List ℕ :=
  [0x09, 0x0A, 0x0B, 0x0C, 0x0D, 0x20, 0x85, 0xA0, 0x1680, 0x2000, 0x2001, 0x2002, 0x2003, 0x2004,
   0x2005, 0x2006, 0x2007, 0x2008, 0x2009, 0x200A, 0x2028, 0x2029, 0x202F, 0x205F, 0x3000]

/-- All blanks. -/
def blanks : List Char := blankCodes.map Char.ofNat

theorem mem_blanks_of_isBlank {c : Char} (h : isBlank c = true) : c ∈ blanks := by
  have hcode : c.toNat = 0x20 ∨ (0x09 ≤ c.toNat ∧ c.toNat ≤ 0x0D) ∨
      ∃ r ∈ wideBlanks, r.1 ≤ c.toNat ∧ c.toNat ≤ r.2 := by
    simp only [isBlank, Bool.or_eq_true, Bool.and_eq_true, beq_iff_eq, decide_eq_true_eq,
      Ranges.mem_iff] at h
    rcases h with (rfl | h) | h
    · exact .inl rfl
    · exact .inr (.inl h)
    · exact .inr (.inr h)
  refine List.mem_map.mpr ⟨c.toNat, ?_, Char.ofNat_toNat c⟩
  simp only [wideBlanks, List.mem_cons, List.not_mem_nil, or_false, exists_eq_or_imp,
    exists_eq_left] at hcode
  simp only [blankCodes, List.mem_cons, List.not_mem_nil, or_false]
  omega

/-- What holds of all blanks holds of each. -/
theorem of_isBlank (p : Char → Bool) (h : blanks.all p = true) {c : Char}
    (hc : isBlank c = true) : p c = true :=
  List.all_eq_true.mp h c (mem_blanks_of_isBlank hc)

/-- A word does not begin with a letter that its first one is not. -/
theorem literalBy_cons_eq_none {same : Char → Char → Bool} {w c : Char}
    (h : (!same w c) = true) (word cs : List Char) :
    literalBy same (w :: word) (c :: cs) = none := by
  rw [literalBy, Bool.not_eq_true' _ |>.mp h]
  rfl

/-! ### Readers that look anywhere in a line -/

/-- A reader of places in a line: it does not see a carriage return at the end of
the text, and what it reads does not begin with a blank. -/
structure LineReader (reader : Option Char → List Char → Option α) : Prop where
  return_end : ∀ before cs, reader before (cs ++ ['\r']) = reader before cs
  nil : ∀ before, reader before [] = none
  blank : ∀ before {c : Char} cs, isBlank c = true → reader before (c :: cs) = none

theorem LineReader.search_return {reader : Option Char → List Char → Option α}
    (h : LineReader reader) : ∀ (before : Option Char) (cs : List Char),
      search reader before (cs ++ ['\r']) = search reader before cs
  | before, [] => by
    have hreturn : reader before ['\r'] = none := (h.return_end before []).trans (h.nil before)
    have hpass : search reader before ['\r'] = reader (some '\r') [] := by
      rw [search, hreturn, search]
    rw [List.nil_append, hpass, search, h.nil, h.nil]
  | before, c :: cs => by
    have htail := h.search_return (some c) cs
    have hhead : reader before (c :: (cs ++ ['\r'])) = reader before (c :: cs) :=
      h.return_end before (c :: cs)
    rw [List.cons_append, search, search, hhead, htail]

theorem LineReader.search_blank {reader : Option Char → List Char → Option α}
    (h : LineReader reader) (before : Option Char) {l : List Char} (hl : isBlankText l = true) :
    search reader before l = none := by
  have hpass : search reader before (l ++ []) = search reader (l.getLast?.or before) [] :=
    search_append fun c hc before cs => h.blank before cs (List.all_eq_true.mp hl c hc)
  rw [List.append_nil, search, h.nil] at hpass
  exact hpass

end Text

/-- What reads the lines of a log: it does not see a carriage return at the end
of a line, and blank lines say nothing. -/
structure LineGrammar (parse : List Char → Option α) : Prop where
  return_end : ∀ l, parse (l ++ ['\r']) = parse l
  blank : ∀ {l}, Text.isBlankText l = true → parse l = none

theorem LineGrammar.nil {parse : List Char → Option α} (h : LineGrammar parse) : parse [] = none :=
  h.blank rfl

theorem LineGrammar.bind {parse : List Char → Option α} (h : LineGrammar parse) (f : α → Option β) :
    LineGrammar fun l => (parse l).bind f where
  return_end l := by rw [h.return_end]
  blank hl := by rw [h.blank hl]; rfl

theorem LineGrammar.map {parse : List Char → Option α} (h : LineGrammar parse) (f : α → β) :
    LineGrammar fun l => (parse l).map f where
  return_end l := by rw [h.return_end]
  blank hl := by rw [h.blank hl]; rfl

/-- Looking for the first place in a line. -/
theorem Text.LineReader.lineGrammar {reader : Option Char → List Char → Option α}
    (h : LineReader reader) : LineGrammar (search reader none) where
  return_end := h.search_return none
  blank hl := h.search_blank none hl

/-! ### The lines of a text -/

namespace Text

/-- A text is a line in front of a text, or has no line feed. -/
theorem lines_induction {motive : List Char → Prop} (last : ∀ cs, '\n' ∉ cs → motive cs)
    (line : ∀ l cs, '\n' ∉ l → motive cs → motive (l ++ '\n' :: cs)) (cs : List Char) :
    motive cs := by
  by_cases h : '\n' ∈ cs
  · obtain ⟨l, rest, rfl, hl⟩ := List.eq_append_cons_of_mem h
    exact line l rest hl (lines_induction last line rest)
  · exact last cs h
termination_by cs.length

/-- The lines of a text behind a finished line are lines of their own. -/
theorem lines_append (as bs : List Char) :
    lines (as ++ '\n' :: bs) = lines (as ++ ['\n']) ++ lines bs := by
  induction as using lines_induction with
  | last cs h =>
    rw [lines_append_feed h, lines_append_feed h]
    rfl
  | line l cs hl ih =>
    rw [List.append_assoc, List.append_assoc, List.cons_append, List.cons_append,
      lines_append_feed hl, lines_append_feed hl, ih, List.cons_append]

/-- What the lines of a text say. -/
def readings (parse : List Char → Option α) (cs : List Char) : List α :=
  (lines cs).filterMap parse

/-- The text with a carriage return in front of each line feed. -/
def withReturns (cs : List Char) : List Char :=
  cs.flatMap fun c => if c = '\n' then ['\r', '\n'] else [c]

theorem withReturns_of_no_feed {cs : List Char} (h : '\n' ∉ cs) : withReturns cs = cs := by
  have hcongr : withReturns cs = cs.flatMap fun c => [c] :=
    List.flatMap_congr fun c hc => if_neg fun (he : c = '\n') => h (he ▸ hc)
  rw [hcongr, List.flatMap_singleton']

theorem withReturns_append_feed {l : List Char} (h : '\n' ∉ l) (cs : List Char) :
    withReturns (l ++ '\n' :: cs) = (l ++ ['\r']) ++ '\n' :: withReturns cs := by
  have hl := withReturns_of_no_feed h
  rw [withReturns] at hl ⊢
  rw [List.flatMap_append, hl, List.flatMap_cons, List.append_assoc]
  rfl

end Text

namespace LineGrammar

variable {parse : List Char → Option α} (h : LineGrammar parse)
include h

theorem parse_dropReturn (l : List Char) : parse (Text.dropReturn l) = parse l := by
  unfold Text.dropReturn
  split
  · rename_i hlast
    obtain ⟨front, rfl⟩ := List.getLast?_eq_some_iff.mp hlast
    rw [List.dropLast_concat, h.return_end]
  · rfl

theorem readings_of_no_feed {l : List Char} (hl : '\n' ∉ l) :
    Text.readings parse l = (parse l).toList := by
  by_cases hnil : l = []
  · rw [hnil, h.nil]
    rfl
  · rw [Text.readings, Text.lines_of_no_feed hl hnil, List.filterMap_cons]
    cases parse l <;> rfl

/-- What stands behind a line feed is read for itself. -/
theorem readings_append (as bs : List Char) :
    Text.readings parse (as ++ '\n' :: bs) = Text.readings parse as ++ Text.readings parse bs := by
  have hline : ∀ {l : List Char} (cs : List Char), '\n' ∉ l →
      Text.readings parse (l ++ '\n' :: cs) = (parse l).toList ++ Text.readings parse cs := by
    intro l cs hl
    rw [Text.readings, Text.lines_append_feed hl, List.filterMap_cons, h.parse_dropReturn]
    cases parse l <;> rfl
  induction as using Text.lines_induction with
  | last cs hcs => rw [hline bs hcs, h.readings_of_no_feed hcs]
  | line l cs hl ih =>
    rw [List.append_assoc, List.cons_append, hline _ hl, hline _ hl, ih, List.append_assoc]

/-- Nothing is read in a blank text. -/
theorem readings_of_blank {cs : List Char} (hcs : Text.isBlankText cs = true) :
    Text.readings parse cs = [] := by
  refine List.filterMap_eq_nil_iff.mpr fun l hl => h.blank (List.all_eq_true.mpr fun c hc => ?_)
  exact List.all_eq_true.mp hcs c (Text.mem_of_mem_lines hl hc)

theorem readings_withReturns (cs : List Char) :
    Text.readings parse (Text.withReturns cs) = Text.readings parse cs := by
  induction cs using Text.lines_induction with
  | last cs hcs => rw [Text.withReturns_of_no_feed hcs]
  | line l cs hl ih =>
    have hreturn : '\n' ∉ l ++ ['\r'] := by simpa using hl
    rw [Text.withReturns_append_feed hl, h.readings_append, h.readings_append, ih,
      h.readings_of_no_feed hreturn, h.readings_of_no_feed hl, h.return_end]

end LineGrammar

/-! ### Markers -/

namespace Marker

theorem keyword?_return (cs : List Char) :
    keyword? (cs ++ ['\r']) = (keyword? cs).map fun r => (r.1, r.2 ++ ['\r']) := by
  have hword : ∀ {word : String} {rest : List Char}, Text.literalFold word cs = some rest →
      (cs ++ ['\r']).take word.toList.length = cs.take word.toList.length := fun h =>
    List.take_append_of_le_length (Text.length_le_of_literalBy h)
  rw [keyword?, keyword?, Text.literalFold_return rfl, Text.literalFold_return rfl]
  cases hstart : Text.literalFold "start" cs with
  | some rest =>
    have htake : (cs ++ ['\r']).take 5 = cs.take 5 := hword hstart
    simp only [Option.map_some, htake]
  | none =>
    cases hend : Text.literalFold "end" cs with
    | none => rfl
    | some rest =>
      have htake : (cs ++ ['\r']).take 3 = cs.take 3 := hword hend
      simp only [Option.map_none, Option.map_some, htake]

theorem spelling?_return (cs : List Char) :
    spelling? (cs ++ ['\r']) = (spelling? cs).map (· ++ ['\r']) := by
  simp only [spelling?, List.findSome?_cons, List.findSome?_nil]
  rw [Text.literalFold_return rfl, Text.literalFold_return rfl, Text.literalFold_return rfl]
  cases Text.literalFold "repetition" cs <;> cases Text.literalFold "repitition" cs <;>
    cases Text.literalFold "repition" cs <;> rfl

theorem scan_return (before : Option Char) (cs : List Char) :
    scan before (cs ++ ['\r']) = (scan before cs).map fun r => (r.1, r.2 ++ ['\r']) := by
  cases hedge : isWordEdge before with
  | false => simp [scan, hedge]
  | true =>
    simp only [scan, hedge, guard, if_true, Option.bind_eq_bind, Option.pure_def, Option.bind_some]
    refine Text.bind_return (keyword?_return cs) fun _ => ?_
    refine Text.bind_return (Text.literalFold_return rfl _) fun _ => ?_
    refine Text.bind_return (spelling?_return _) fun _ => ?_
    refine Text.bind_return (Text.literal_return rfl _) fun _ => ?_
    refine Text.bind_return (Text.digits_return _) fun _ => ?_
    exact Text.bind_return (Text.literal_return rfl _) fun _ => rfl

/-- No marker begins with a blank. -/
theorem scan_blank (before : Option Char) {c : Char} (cs : List Char)
    (hc : Text.isBlank c = true) : scan before (c :: cs) = none :=
  MarkerText.scan_of_keyword?_eq_none
    (CpuEvent.keyword?_cons_eq_none (Text.of_isBlank CpuEvent.beginsNoMarker (by decide) hc) cs)
    before

theorem scan_nil (before : Option Char) : scan before [] = none :=
  MarkerText.scan_of_keyword?_eq_none rfl before

end Marker

/-! ### The log of memory usage -/

theorem RamReading.scan_return (before : Option Char) (cs : List Char) :
    scan before (cs ++ ['\r']) = scan before cs := by
  have hmap : scan before (cs ++ ['\r']) = (scan before cs).map id := by
    refine Text.bind_return (Marker.scan_return before cs) fun _ => ?_
    refine Text.bind_return
      (Text.reader_trimStart_return rfl (Text.literalFold_return rfl) _) fun _ => ?_
    refine Text.bind_return (Text.reader_trimStart_return rfl Text.decimal_return _) fun _ => ?_
    exact Text.bind_return
      (Text.reader_trimStart_return rfl (Text.literalFold_return rfl) _) fun _ => rfl
  exact hmap.trans (congrFun Option.map_id _)

theorem RamReading.lineReader : Text.LineReader scan where
  return_end := scan_return
  nil before := by rw [scan, Marker.scan_nil]; rfl
  blank before c cs hc := by rw [scan, Marker.scan_blank before cs hc]; rfl

/-- The lines of the log of memory usage. -/
theorem Record.lineGrammar (index : ℕ) : LineGrammar (ofLine? · index) :=
  RamReading.lineReader.lineGrammar.bind (·.record? index)

/-! ### The log of the processor's usage -/

namespace CpuLine

theorem scanSample_return (cs : List Char) : scanSample (cs ++ ['\r']) = scanSample cs := by
  have hmap : scanSample (cs ++ ['\r']) = (scanSample cs).map id := by
    refine Text.bind_return (Text.literal_return rfl cs) fun _ => ?_
    refine Text.bind_return (Text.reader_trimStart_return rfl Text.decimal_return _) fun _ => ?_
    exact Text.bind_return
      (Text.reader_trimStart_return rfl (Text.literal_return rfl) _) fun _ => rfl
  exact hmap.trans (congrFun Option.map_id _)

theorem lineReader_sample : Text.LineReader fun _ => scanSample where
  return_end _ := scanSample_return
  nil _ := rfl
  blank _ c cs hc := by
    have hword : Text.literal "Cpu(s):" (c :: cs) = none :=
      Text.literalBy_cons_eq_none (Text.of_isBlank (fun c => !('C' == c)) (by decide) hc) _ cs
    rw [scanSample, hword]
    rfl

theorem lineReader_marker :
    Text.LineReader fun before cs => (Marker.scan before cs).map (·.1) where
  return_end before cs := by rw [Marker.scan_return, Option.map_map]; rfl
  nil before := by rw [Marker.scan_nil]; rfl
  blank before c cs hc := by rw [Marker.scan_blank before cs hc]; rfl

/-- The lines of the log of the processor's usage. -/
theorem lineGrammar : LineGrammar ofLine? := by
  have hsample : LineGrammar sampleOfLine? := lineReader_sample.lineGrammar.bind Number.float?
  have hmarker : LineGrammar markerOfLine? := lineReader_marker.lineGrammar
  refine ⟨fun l => ?_, fun hl => ?_⟩
  · rw [ofLine?, ofLine?, hsample.return_end, hmarker.return_end]
  · rw [ofLine?, hsample.blank hl, hmarker.blank hl]
    rfl

end CpuLine

/-! ### The log of execution times -/

namespace ExecutionTime

theorem scan_return (cs : List Char) : scan (cs ++ ['\r']) = scan cs := by
  have hmap : scan (cs ++ ['\r']) = (scan cs).map id := by
    refine Text.bind_return (Text.literal_return rfl cs) fun _ => ?_
    exact Text.bind_return
      (Text.reader_trimStart_return rfl (Text.run_return (by decide)) _) fun _ => rfl
  exact hmap.trans (congrFun Option.map_id _)

theorem lineReader : Text.LineReader fun _ => scan where
  return_end _ := scan_return
  nil _ := rfl
  blank _ c cs hc := by
    have hword : Text.literal "Execution Time:" (c :: cs) = none :=
      Text.literalBy_cons_eq_none (Text.of_isBlank (fun c => !('E' == c)) (by decide) hc) _ cs
    rw [scan, hword]
    rfl

/-- The lines of the log of execution times. -/
theorem lineGrammar : LineGrammar ofLine? :=
  lineReader.lineGrammar.map Duration.milliseconds

end ExecutionTime

/-! ### The log of preprocessing -/

namespace Stamp

theorem scan_return (cs : List Char) :
    scan (cs ++ ['\r']) = (scan cs).map fun r => (r.1, r.2 ++ ['\r']) := by
  refine Text.bind_return (Text.fixedDigits_return 4 cs) fun _ => ?_
  refine Text.bind_return (Text.literal_return rfl _) fun _ => ?_
  refine Text.bind_return (Text.fixedDigits_return 2 _) fun _ => ?_
  refine Text.bind_return (Text.literal_return rfl _) fun _ => ?_
  refine Text.bind_return (Text.fixedDigits_return 2 _) fun _ => ?_
  refine Text.bind_return (Text.literal_return rfl _) fun _ => ?_
  refine Text.bind_return (Text.fixedDigits_return 2 _) fun _ => ?_
  refine Text.bind_return (Text.literal_return rfl _) fun _ => ?_
  refine Text.bind_return (Text.fixedDigits_return 2 _) fun _ => ?_
  refine Text.bind_return (Text.literal_return rfl _) fun _ => ?_
  exact Text.bind_return (Text.fixedDigits_return 2 _) fun _ => rfl

/-- No timestamp begins with a blank. -/
theorem scan_blank {c : Char} (cs : List Char) (hc : Text.isBlank c = true) :
    scan (c :: cs) = none := by
  have hdigit : Text.isDecimalDigit c = false :=
    Bool.not_eq_true' _ |>.mp (Text.of_isBlank (fun c => !Text.isDecimalDigit c) (by decide) hc)
  have hyear : Text.fixedDigits 4 (c :: cs) = none := by
    simp [Text.fixedDigits, hdigit]
  rw [scan, hyear]
  rfl

end Stamp

namespace PreprocessingEvent

theorem lineReader_evaluation : Text.LineReader fun _ => scanEvaluation where
  return_end _ cs := by
    have hmap : scanEvaluation (cs ++ ['\r']) = (scanEvaluation cs).map id := by
      refine Text.bind_return (Stamp.scan_return cs) fun _ => ?_
      refine Text.bind_return (Text.literal_return rfl _) fun _ => ?_
      refine Text.bind_return (Text.digits_return _) fun _ => ?_
      exact Text.bind_return (Text.literal_return rfl _) fun _ => rfl
    exact hmap.trans (congrFun Option.map_id _)
  nil _ := rfl
  blank _ c cs hc := by rw [scanEvaluation, Stamp.scan_blank cs hc]; rfl

theorem lineReader_termination : Text.LineReader fun _ => scanTermination where
  return_end _ cs := by
    have hmap : scanTermination (cs ++ ['\r']) = (scanTermination cs).map id := by
      refine Text.bind_return (Stamp.scan_return cs) fun _ => ?_
      exact Text.bind_return (Text.literal_return rfl _) fun _ => rfl
    exact hmap.trans (congrFun Option.map_id _)
  nil _ := rfl
  blank _ c cs hc := by rw [scanTermination, Stamp.scan_blank cs hc]; rfl

/-- The lines of the log of preprocessing. -/
theorem lineGrammar : LineGrammar ofLine? := by
  have hevaluation : LineGrammar evaluationOfLine? :=
    lineReader_evaluation.lineGrammar.bind _
  have htermination : LineGrammar terminationOfLine? :=
    lineReader_termination.lineGrammar.bind Stamp.moment?
  refine ⟨fun l => ?_, fun hl => ?_⟩
  · rw [ofLine?, ofLine?, hevaluation.return_end, htermination.return_end]
  · rw [ofLine?, hevaluation.blank hl, htermination.blank hl]
    rfl

/-- A line is no event if and only if neither kind of event is on it. -/
theorem ofLine?_eq_none_iff {l : List Char} :
    ofLine? l = none ↔ evaluationOfLine? l = none ∧ terminationOfLine? l = none := by
  rw [ofLine?]
  cases evaluationOfLine? l <;> cases terminationOfLine? l <;> simp

end PreprocessingEvent
end BenchLog
