/-
# Noise and line ends do not matter

A line that the parser of a log does not know may stand anywhere in the log, any
number of times, and lines may end with a carriage return and a line feed: the
dataset is aligned to the same tables and the same summary, or fails for the
same reason. The same holds of the timeline of preprocessing.

What is made of a log is made of what its lines say, and one disturbance leaves
this as it was (`Text.Disturbed.readings_eq`). For memory usage it depends on the
places of the lines as well, but only on their order.

Key definitions: `Text.Disturbed`, `LogDisturbed`, `DatasetDisturbed`.
Key theorems: `Text.Disturbed.readings_eq`, `alignRam_of_disturbed`,
`outcomes_of_disturbed`.
-/
import BenchLog.Proofs.AlignedLogs

namespace BenchLog

/-! ### Disturbed texts -/

namespace Text

/-- Whether what follows the text begins a line. -/
def EndsLine (front : List Char) : Prop :=
  front = [] ∨ ∃ before, front = before ++ ['\n']

/-- The text may become the other one by lines of noise that are put in and by
carriage returns in front of its line feeds. -/
inductive Disturbed (noise : List Char → Prop) (text : List Char) : List Char → Prop
  | same : Disturbed noise text text
  /-- One more line in front of a line or at the end. -/
  | line {front l back : List Char} : Disturbed noise text (front ++ back) → EndsLine front →
      '\n' ∉ l → noise l → Disturbed noise text (front ++ (l ++ '\n' :: back))
  /-- One more line at the end, which no line feed follows. -/
  | lastLine {front l : List Char} : Disturbed noise text front → EndsLine front →
      '\n' ∉ l → noise l → Disturbed noise text (front ++ l)
  /-- A line feed at the end, so that further lines can follow. -/
  | feed {other : List Char} : Disturbed noise text other → Disturbed noise text (other ++ ['\n'])
  /-- A carriage return in front of each line feed. -/
  | returns {other : List Char} : Disturbed noise text other →
      Disturbed noise text (withReturns other)

end Text

theorem LineGrammar.readings_append_of_endsLine {parse : List Char → Option α}
    (h : LineGrammar parse) {front : List Char} (hfront : Text.EndsLine front)
    (back : List Char) :
    Text.readings parse (front ++ back) =
      Text.readings parse front ++ Text.readings parse back := by
  have hnil : Text.readings parse [] = [] := rfl
  obtain rfl | ⟨before, rfl⟩ := hfront
  · rfl
  · rw [List.append_assoc, List.singleton_append, h.readings_append, h.readings_append, hnil,
      List.append_nil]

/-- A disturbance leaves what the lines of a text say as it was. -/
theorem Text.Disturbed.readings_eq {noise : List Char → Prop} {text other : List Char}
    (hd : Disturbed noise text other) {parse : List Char → Option α} (hparse : LineGrammar parse)
    (hnoise : ∀ l, noise l → parse l = none) : readings parse other = readings parse text := by
  have hsilent : ∀ l, '\n' ∉ l → noise l → readings parse l = [] := by
    intro l hl hn
    rw [hparse.readings_of_no_feed hl, hnoise l hn]
    rfl
  induction hd with
  | same => rfl
  | @line front l back _ hfront hl hn ih =>
    calc readings parse (front ++ (l ++ '\n' :: back))
        = readings parse front ++ (readings parse l ++ readings parse back) := by
          rw [hparse.readings_append_of_endsLine hfront, hparse.readings_append]
      _ = readings parse (front ++ back) := by
          rw [hsilent l hl hn, List.nil_append, hparse.readings_append_of_endsLine hfront]
      _ = readings parse text := ih
  | lastLine _ hfront hl hn ih =>
    rw [hparse.readings_append_of_endsLine hfront, hsilent _ hl hn, List.append_nil, ih]
  | @feed other _ ih =>
    have hnil : readings parse [] = [] := rfl
    rw [hparse.readings_append, hnil, List.append_nil, ih]
  | returns _ ih => rw [hparse.readings_withReturns, ih]

/-! ### Disturbed logs -/

/-- What is made of a disturbed log of memory usage is the same but for the lines
of the records. -/
theorem alignRam_of_disturbed {text other : List Char} (path : Path)
    (h : Text.Disturbed (fun l => ∀ index, Record.ofLine? l index = none) text other) :
    (alignRam path other).map (Prod.map (·.renumber fun _ => 0) id) =
      (alignRam path text).map (Prod.map (·.renumber fun _ => 0) id) := by
  have hrecords : (Record.ofLog other).map (·.unnumbered) =
      (Record.ofLog text).map (·.unnumbered) := by
    rw [Record.map_unnumbered_ofLog, Record.map_unnumbered_ofLog]
    exact h.readings_eq (Record.lineGrammar 0) fun l hl => hl 0
  have hpairing := Pairing.renumber_ofRecords_congr hrecords (Record.pairwise_line_ofLog other)
    (Record.pairwise_line_ofLog text)
  have hrows : (Pairing.ofRecords (Record.ofLog other)).pairs.map (·.row) =
      (Pairing.ofRecords (Record.ofLog text)).pairs.map (·.row) := by
    rw [← Pairing.map_row_renumber fun _ => 0, hpairing, Pairing.map_row_renumber]
  have hnone : (Pairing.ofRecords (Record.ofLog other)).pairs = [] ↔
      (Pairing.ofRecords (Record.ofLog text)).pairs = [] := by
    have hmap := congrArg (· = []) hrows
    simpa only [List.map_eq_nil_iff, eq_iff_iff] using hmap
  by_cases hnil : (Pairing.ofRecords (Record.ofLog text)).pairs = []
  · rw [alignRam_of_no_pairs hnil, alignRam_of_no_pairs (hnone.mpr hnil)]
  · have hsome := mt hnone.mp hnil
    -- One table has the rows of both logs.
    obtain ⟨t, ht⟩ := exists_ramTable ((Pairing.ofRecords (Record.ofLog text)).pairs.map (·.row))
    have htext : alignRam path text = .ok (Pairing.ofRecords (Record.ofLog text), t) :=
      alignRam_eq_ok_iff.mpr ⟨hnil, t, ht, rfl⟩
    have hother : alignRam path other = .ok (Pairing.ofRecords (Record.ofLog other), t) :=
      alignRam_eq_ok_iff.mpr ⟨hsome, t, ht.trans (congrArg ramColumns hrows.symm), rfl⟩
    rw [htext, hother]
    exact congrArg (fun p => Except.ok (p, t)) hpairing

theorem alignCpu_of_disturbed {text other : List Char} (path : Path)
    (h : Text.Disturbed (fun l => CpuLine.ofLine? l = none) text other) :
    alignCpu path other = alignCpu path text := by
  have hblocks : CpuBlock.ofLog other = CpuBlock.ofLog text := by
    rw [CpuBlock.ofLog_eq_rows, CpuBlock.ofLog_eq_rows,
      h.readings_eq CpuLine.lineGrammar fun _ hl => hl]
  rw [alignCpu, alignCpu, hblocks]

theorem alignTime_of_disturbed {text other : List Char} (path : Path)
    (h : Text.Disturbed (fun l => ExecutionTime.ofLine? l = none) text other) :
    alignTime path other = alignTime path text := by
  have htimes : ExecutionTime.ofLog other = ExecutionTime.ofLog text :=
    congrArg (List.mapM id) (h.readings_eq ExecutionTime.lineGrammar fun _ hl => hl)
  rw [alignTime, alignTime, htimes]

theorem timelineTable_of_disturbed {text other : List Char} (path : Path)
    (h : Text.Disturbed (fun l => PreprocessingEvent.evaluationOfLine? l = none ∧
      PreprocessingEvent.terminationOfLine? l = none) text other) :
    timelineTable path other = timelineTable path text := by
  have hevents : preprocessingEvents other = preprocessingEvents text :=
    h.readings_eq PreprocessingEvent.lineGrammar fun _ => PreprocessingEvent.ofLine?_eq_none_iff.mpr
  rw [timelineTable, timelineTable, timelineRows_eq_foldl, timelineRows_eq_foldl, hevents]

/-! ### Disturbed files -/

/-- A file cannot be read in either case, or its text is disturbed. -/
inductive LogDisturbed (noise : List Char → Prop) :
    Except FileFailure (List Char) → Except FileFailure (List Char) → Prop
  | unreadable (cause : FileFailure) : LogDisturbed noise (.error cause) (.error cause)
  | text {text other : List Char} : Text.Disturbed noise text other →
      LogDisturbed noise (.ok text) (.ok other)

/-- The logs of a dataset are disturbed by lines that their own parsers do not know. -/
structure DatasetDisturbed (files other : FileTree) (layout : DatasetLayout) (dir : Path) :
    Prop where
  ram : LogDisturbed (fun l => ∀ index, Record.ofLine? l index = none)
    (files.readText (layout.ramLog dir)) (other.readText (layout.ramLog dir))
  cpu : LogDisturbed (fun l => CpuLine.ofLine? l = none)
    (files.readText (layout.cpuLog dir)) (other.readText (layout.cpuLog dir))
  time : LogDisturbed (fun l => ExecutionTime.ofLine? l = none)
    (files.readText (layout.timeLog dir)) (other.readText (layout.timeLog dir))

/-- A stage that does not see a disturbance gives the same for a disturbed file. -/
theorem LogDisturbed.bind_eq {noise : List Char → Prop} {files other : FileTree} {p : Path}
    (h : LogDisturbed noise (files.readText p) (other.readText p))
    {stage : List Char → Except Error α}
    (hstage : ∀ text changed, Text.Disturbed noise text changed → stage changed = stage text) :
    (other.logText p >>= stage) = (files.logText p >>= stage) := by
  unfold FileTree.logText
  generalize files.readText p = r at h
  generalize other.readText p = r' at h
  cases h with
  | unreadable cause => rfl
  | text hd => exact hstage _ _ hd

/-- What follows a result may be given the result after a change that it does not see. -/
theorem bind_eq_of_map_eq {r r' : Except Error α} {f : α → α} {next : α → Except Error β}
    (h : r.map f = r'.map f) (hnext : ∀ a, next (f a) = next a) : (r >>= next) = (r' >>= next) := by
  have hmap : ∀ r : Except Error α, (r.map f >>= next) = (r >>= next) := by
    intro r
    cases r with
    | error e => rfl
    | ok a => exact hnext a
  rw [← hmap r, h, hmap r']

/-- The dataset does not show the lines of records. -/
theorem AlignedDataset.ofLogs_renumber (name source : String) (ram : Pairing × Table)
    (cpu : ℕ × List (UInt32 × Float) × Table) (time : List Float × Table) (f : ℕ → ℕ) :
    ofLogs name source (ram.1.renumber f, ram.2) cpu time = ofLogs name source ram cpu time := by
  have hlength : (ram.1.renumber f).pairs.length = ram.1.pairs.length := List.length_map ..
  simp only [ofLogs, DatasetSummary.ofLogs, hlength]
  rfl

/-- **Noise and line ends do not matter.** If the logs are disturbed by any
number of lines that their own parsers do not know and by carriage returns in
front of line feeds, the outcome of aligning is the same, be it a dataset or an
error; and so is the timeline of a disturbed log of preprocessing. -/
theorem outcomes_of_disturbed (files other : FileTree) :
    (∀ (layout : DatasetLayout) (dir : Path) (source : String),
      DatasetDisturbed files other layout dir →
        alignDataset other layout dir source = alignDataset files layout dir source) ∧
    (∀ p : Path,
      LogDisturbed (fun l => PreprocessingEvent.evaluationOfLine? l = none ∧
          PreprocessingEvent.terminationOfLine? l = none)
        (files.readText p) (other.readText p) →
      readTimeline other p = readTimeline files p) := by
  refine ⟨fun layout dir source h => ?_, fun p h => ?_⟩
  · have htime : (other.logText (layout.timeLog dir) >>= alignTime (layout.timeLog dir)) =
        (files.logText (layout.timeLog dir) >>= alignTime (layout.timeLog dir)) :=
      h.time.bind_eq fun _ _ hd => alignTime_of_disturbed _ hd
    have hcpu : (other.logText (layout.cpuLog dir) >>= alignCpu (layout.cpuLog dir)) =
        (files.logText (layout.cpuLog dir) >>= alignCpu (layout.cpuLog dir)) :=
      h.cpu.bind_eq fun _ _ hd => alignCpu_of_disturbed _ hd
    rw [alignDataset_eq_bind, alignDataset_eq_bind, htime, hcpu, bind_assoc, bind_assoc]
    refine h.ram.bind_eq fun text changed hd => ?_
    refine bind_eq_of_map_eq (alignRam_of_disturbed _ hd) fun ram => ?_
    simp only [Prod.map, id_eq, AlignedDataset.ofLogs_renumber]
  · rw [readTimeline_eq_bind, readTimeline_eq_bind]
    exact h.bind_eq fun _ _ hd => timelineTable_of_disturbed p hd

/-- A heading, a remark between the samples of a block, a last line without an
end, and carriage returns. -/
theorem outcomes_of_remarks :
    ∃ (files other : FileTree) (layout : DatasetLayout) (dir p : Path) (d : AlignedDataset),
      DatasetDisturbed files other layout dir ∧
      alignDataset files layout dir "logs" = .ok d ∧ alignDataset other layout dir "logs" = .ok d ∧
      files.readText p ≠ other.readText p ∧ readTimeline other p = readTimeline files p := by
  let logs : DatasetLogs := CompleteLogs.single.texts
  let events : List Char := "2024/12/08 19:50:08 simulation terminated successfully\n".toList
  let remark : List Char := "# rerun".toList
  let changed : DatasetLogs :=
    ⟨Text.withReturns (remark ++ '\n' :: logs.ram),
      logs.cpu.take 49 ++ (remark ++ '\n' :: logs.cpu.drop 49), logs.time ++ remark⟩
  let files := logs.tree [(["d.txt"], .file (.text events))]
  let other := changed.tree [(["d.txt"], .file (.text (Text.withReturns events)))]
  have hfeed : '\n' ∉ remark := by decide
  have hram : Text.Disturbed (fun l => ∀ index, Record.ofLine? l index = none) logs.ram
      changed.ram :=
    .returns (.line .same (.inl rfl) hfeed fun _ => rfl)
  have hcpu : Text.Disturbed (fun l => CpuLine.ofLine? l = none) logs.cpu changed.cpu := by
    -- The first line of the log has 48 characters, and a sample of its block follows it.
    have hsplit : logs.cpu.take 49 ++ logs.cpu.drop 49 = logs.cpu := List.take_append_drop 49 _
    have hblock : Text.EndsLine (logs.cpu.take 49) := .inr ⟨logs.cpu.take 48, rfl⟩
    have hsame : Text.Disturbed (fun l => CpuLine.ofLine? l = none) logs.cpu
        (logs.cpu.take 49 ++ logs.cpu.drop 49) := hsplit ▸ .same
    exact .line hsame hblock hfeed rfl
  have htime : Text.Disturbed (fun l => ExecutionTime.ofLine? l = none) logs.time changed.time :=
    .lastLine .same (.inr ⟨"Execution Time: 2s".toList, rfl⟩) hfeed rfl
  have hdisturbed : DatasetDisturbed files other (.named "d") ⟨""⟩ :=
    ⟨.text hram, .text hcpu, .text htime⟩
  have hevents : LogDisturbed (fun l => PreprocessingEvent.evaluationOfLine? l = none ∧
      PreprocessingEvent.terminationOfLine? l = none) (files.readText ⟨"d.txt"⟩)
        (other.readText ⟨"d.txt"⟩) :=
    .text (.returns .same)
  obtain ⟨d, hd⟩ := CompleteLogs.exists_alignDataset (logs.standIn_tree _) "logs"
  obtain ⟨hsame, htimeline⟩ := outcomes_of_disturbed files other
  refine ⟨files, other, .named "d", ⟨""⟩, ⟨"d.txt"⟩, d, hdisturbed, hd,
    (hsame _ _ _ hdisturbed).trans hd, ?_, htimeline _ hevents⟩
  exact fun h => absurd (Except.ok.inj h) (by decide)

end BenchLog
