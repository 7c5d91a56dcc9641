/-
# What aligning makes of each log

A log is aligned if it can be read and yields rows, and then its table has these
rows and no others: the pairs of the log of memory usage, the coupled blocks of
that of the processor's usage, and the execution times with their numbers. A
blank log yields no rows, so that logs are checked for blanks makes no
difference.

Key definitions: `ramColumns`, `cpuColumns`, `timeColumns`, `DatasetLogs`,
`AlignedDataset.ofLogs`.
Key theorems: `alignRam_eq_ok_iff`, `alignCpu_eq_ok_iff`, `alignTime_eq_ok_iff`,
`readLog_bind`, `alignDataset_eq_bind`,
`DatasetLogs.StandIn.alignDataset_eq_ok_iff`,
`AlignedDataset.exists_summary_ofLogs`.
-/
import BenchLog.Proofs.LineEnds
import BenchLog.Proofs.LineNumbers
import BenchLog.Proofs.Recovery

namespace BenchLog

/-! ### Tables of rows -/

/-- The columns of a table of memory usage: repetition, value at the start and
value at the end. -/
def ramColumns (rows : List (UInt32 × Float × Float)) : List (String × Column) :=
  [(Table.repetitionName, .ofRepetitions (rows.map (·.1))),
   (ramStartColumn, .ofFloats (rows.map (·.2.1))),
   (Metric.ram.valueColumn, .ofFloats (rows.map (·.2.2)))]

/-- The columns of a table of the processor's usage: repetition and largest sample. -/
def cpuColumns (rows : List (UInt32 × Float)) : List (String × Column) :=
  [(Table.repetitionName, .ofRepetitions (rows.map (·.1))),
   (Metric.cpu.valueColumn, .ofFloats (rows.map (·.2)))]

/-- The columns of a table of execution times, counted from one. -/
def timeColumns (times : List Float) : List (String × Column) :=
  [(Table.repetitionName,
      .ofRepetitions ((List.range times.length).map fun i => UInt32.ofNat (i + 1))),
   (Metric.executionTime.valueColumn, .ofFloats times)]

theorem exists_ramTable (rows : List (UInt32 × Float × Float)) :
    ∃ t : Table, t.columns = ramColumns rows :=
  ⟨⟨rows.length, ramColumns rows, by simp [ramColumns]⟩, rfl⟩

theorem exists_cpuTable (rows : List (UInt32 × Float)) : ∃ t : Table, t.columns = cpuColumns rows :=
  ⟨⟨rows.length, cpuColumns rows, by simp [cpuColumns]⟩, rfl⟩

theorem exists_timeTable (times : List Float) : ∃ t : Table, t.columns = timeColumns times :=
  ⟨⟨times.length, timeColumns times, by simp [timeColumns]⟩, rfl⟩

/-- The row of a pair. -/
def RepetitionPair.row (p : RepetitionPair) : UInt32 × Float × Float :=
  (p.repetition, p.start.value, p.finish.value)

/-- The rows of a pairing do not show lines. -/
theorem Pairing.map_row_renumber (f : ℕ → ℕ) (p : Pairing) :
    (p.renumber f).pairs.map (·.row) = p.pairs.map (·.row) := by
  rw [renumber, List.map_map]
  rfl

namespace Table

/-- A table is given by its columns, if it has any. -/
theorem eq_of_columns {t u : Table} (h : t.columns = u.columns) (hne : u.columns ≠ []) : t = u := by
  obtain ⟨c, cs, hc⟩ := List.exists_cons_of_ne_nil hne
  have hrows : t.rows = u.rows :=
    calc t.rows = c.2.size := (t.size_eq c (by rw [h, hc]; exact List.mem_cons_self)).symm
      _ = u.rows := u.size_eq c (by rw [hc]; exact List.mem_cons_self)
  obtain ⟨rows, columns, size_eq⟩ := t
  obtain ⟨rows', columns', size_eq'⟩ := u
  cases h
  cases hrows
  rfl

/-- The one table of some repetitions and columns of numbers. -/
theorem withRepetitions_eq_ok_iff {repetitions : List UInt32} {columns : List (String × List Float)}
    (h : ∀ c ∈ columns, c.2.length = repetitions.length) {t : Table} :
    withRepetitions repetitions columns = .ok t ↔
      t.columns = (repetitionName, .ofRepetitions repetitions) :: floatColumns columns := by
  obtain ⟨u, hu, hcolumns⟩ := exists_withRepetitions repetitions columns h
  rw [hu, Except.ok.injEq]
  constructor
  · rintro rfl
    exact hcolumns
  · intro ht
    exact eq_of_columns (hcolumns.trans ht.symm) (ht ▸ List.cons_ne_nil _ _)

end Table

/-! ### Each log -/

/-- A table is made of rows if there are any. -/
theorem tabled_eq_ok_iff {rows : List α} {e : Error} {made : Except Error Table}
    {columns : List (String × Column)} (hmade : ∀ t, made = .ok t ↔ t.columns = columns)
    {f : Table → β} {b : β} :
    (if rows.isEmpty then .error e else do let t ← made; .ok (f t)) = .ok b ↔
      rows ≠ [] ∧ ∃ t : Table, t.columns = columns ∧ f t = b := by
  split
  · rename_i h
    have hnil : rows = [] := List.isEmpty_iff.mp h
    simp [hnil]
  · rename_i h
    have hne : rows ≠ [] := fun hnil => h (List.isEmpty_iff.mpr hnil)
    rw [bind_eq_ok_iff]
    simp only [hmade, Except.ok.injEq, ne_eq, hne, not_false_eq_true, true_and]

variable {path : Path} {text : List Char}

/-- The log of memory usage is aligned if it has a pair; its table has a row a pair. -/
theorem alignRam_eq_ok_iff {r : Pairing × Table} :
    alignRam path text = .ok r ↔
      let pairing := Pairing.ofRecords (Record.ofLog text)
      pairing.pairs ≠ [] ∧
        ∃ t : Table, t.columns = ramColumns (pairing.pairs.map (·.row)) ∧ (pairing, t) = r := by
  have hcolumns : ∀ pairs : List RepetitionPair, ramColumns (pairs.map (·.row)) =
      (Table.repetitionName, .ofRepetitions (pairs.map (·.repetition))) ::
        Table.floatColumns [(ramStartColumn, pairs.map (·.start.value)),
          (Metric.ram.valueColumn, pairs.map (·.finish.value))] := by
    intro pairs
    simp only [ramColumns, List.map_map]
    rfl
  simp only [hcolumns]
  exact tabled_eq_ok_iff fun t => Table.withRepetitions_eq_ok_iff (by simp)

theorem alignRam_of_no_pairs (h : (Pairing.ofRecords (Record.ofLog text)).pairs = []) :
    alignRam path text = .error (.emptyInput path) := by
  simp only [alignRam, h, List.isEmpty_nil, if_true]

/-- The log of the processor's usage is aligned if blocks of it can be coupled;
its table has the coupled rows. -/
theorem alignCpu_eq_ok_iff {r : ℕ × List (UInt32 × Float) × Table} :
    alignCpu path text = .ok r ↔
      let blocks := CpuBlock.ofLog text
      coupleRows blocks ≠ [] ∧
        ∃ t : Table, t.columns = cpuColumns (coupleRows blocks) ∧
          (blocks.length, coupleRows blocks, t) = r :=
  tabled_eq_ok_iff fun t => Table.withRepetitions_eq_ok_iff (by simp)

/-- The log of execution times is aligned if it has one and all are durations. -/
theorem alignTime_eq_ok_iff {r : List Float × Table} :
    alignTime path text = .ok r ↔
      ∃ times, ExecutionTime.ofLog text = .ok times ∧ times ≠ [] ∧
        ∃ t : Table, t.columns = timeColumns times ∧ (times, t) = r := by
  rw [alignTime, bind_eq_ok_iff]
  refine exists_congr fun times => and_congr_right fun _ => ?_
  exact tabled_eq_ok_iff fun t => Table.withRepetitions_eq_ok_iff (by simp)

/-! ### Blank logs -/

theorem CpuBlock.rows_filterMap (parse : List Char → Option CpuLine) (lines : List (List Char))
    (block : Option CpuBlock) :
    rows block (lines.map parse) = rows block ((lines.filterMap parse).map some) := by
  induction lines generalizing block with
  | nil => rfl
  | cons l lines ih =>
    rw [List.map_cons, List.filterMap_cons]
    cases parse l with
    | none => exact ih block
    | some line => cases line <;> simp only [List.map_cons, rows_marker, rows_sample, ih]

/-- The blocks of a log are given by what its lines say. -/
theorem CpuBlock.ofLog_eq_rows (text : List Char) :
    ofLog text = rows none ((Text.readings CpuLine.ofLine? text).map some) :=
  rows_filterMap CpuLine.ofLine? (Text.lines text) none

theorem alignRam_of_blank (h : Text.isBlankText text = true) :
    alignRam path text = .error (.emptyInput path) := by
  have hrecords : Record.ofLog text = [] := by
    rw [← List.map_eq_nil_iff, Record.map_unnumbered_ofLog]
    exact (Record.lineGrammar 0).readings_of_blank h
  exact alignRam_of_no_pairs (hrecords ▸ (Pairing.perm_pairs []).eq_nil)

theorem alignCpu_of_blank (h : Text.isBlankText text = true) :
    alignCpu path text = .error (.emptyInput path) := by
  have hblocks : CpuBlock.ofLog text = [] := by
    rw [CpuBlock.ofLog_eq_rows, CpuLine.lineGrammar.readings_of_blank h]
    rfl
  rw [alignCpu, hblocks]
  rfl

theorem alignTime_of_blank (h : Text.isBlankText text = true) :
    alignTime path text = .error (.emptyInput path) := by
  have htimes : ExecutionTime.ofLog text = .ok [] := by
    have hnil := ExecutionTime.lineGrammar.readings_of_blank h
    rw [Text.readings] at hnil
    rw [ExecutionTime.ofLog, hnil]
    rfl
  rw [alignTime, htimes]
  rfl

theorem timelineTable_of_blank (h : Text.isBlankText text = true) :
    timelineTable path text = .error (.emptyInput path) := by
  have hevents : preprocessingEvents text = [] :=
    PreprocessingEvent.lineGrammar.readings_of_blank h
  rw [timelineTable, timelineRows_eq_foldl, hevents]
  rfl

/-! ### Reading a log -/

/-- The text of a log, blank or not. -/
def FileTree.logText (files : FileTree) (p : Path) : Except Error (List Char) :=
  (files.readText p).mapError (.file · (some p))

theorem FileTree.logText_of_readText {files : FileTree} {p : Path} {text : List Char}
    (h : files.readText p = .ok text) : files.logText p = .ok text := by
  rw [logText, h]
  rfl

/-- Where a blank log has no rows, that it is blank does not have to be checked. -/
theorem readLog_bind {stage : List Char → Except Error α} {p : Path}
    (hblank : ∀ text, Text.isBlankText text = true → stage text = .error (.emptyInput p))
    (files : FileTree) : (readLog files p >>= stage) = (files.logText p >>= stage) := by
  rw [readLog, FileTree.logText]
  cases files.readText p with
  | error cause => rfl
  | ok text =>
    cases h : Text.isBlankText text with
    | false => simp only [h, Bool.false_eq_true, if_false]; rfl
    | true =>
      have hstage : (Except.ok text >>= stage) = .error (.emptyInput p) := hblank text h
      simp only [h, if_true]
      exact hstage.symm

/-! ### The dataset -/

/-- What is counted in the aligned logs of a dataset. -/
def DatasetSummary.ofLogs (name source : String) (ram : Pairing × Table)
    (cpu : ℕ × List (UInt32 × Float) × Table) (time : List Float × Table) : DatasetSummary where
  dataset := name
  source
  ramPairs := ram.1.pairs.length
  ramDroppedEnds := ram.1.droppedEnds
  ramUnmatchedStarts := ram.1.unmatchedStarts
  cpuBlocks := cpu.1
  cpuRows := cpu.2.1.length
  executionTimes := time.1.length
  columns := .empty

/-- The dataset made of its aligned logs. -/
def AlignedDataset.ofLogs (name source : String) (ram : Pairing × Table)
    (cpu : ℕ × List (UInt32 × Float) × Table) (time : List Float × Table) : AlignedDataset where
  ram := ram.2
  cpu := cpu.2.2
  time := time.2
  summary := (((DatasetSummary.ofLogs name source ram cpu time).record ram.2).record
    cpu.2.2).record time.2

/-- Aligning a dataset aligns its logs, one after the other. -/
theorem alignDataset_eq_bind (files : FileTree) (layout : DatasetLayout) (dir : Path)
    (source : String) :
    alignDataset files layout dir source = (do
      let ram ← files.logText (layout.ramLog dir) >>= alignRam (layout.ramLog dir)
      let cpu ← files.logText (layout.cpuLog dir) >>= alignCpu (layout.cpuLog dir)
      let time ← files.logText (layout.timeLog dir) >>= alignTime (layout.timeLog dir)
      .ok (.ofLogs layout.name source ram cpu time)) := by
  rw [← readLog_bind (fun _ => alignRam_of_blank), ← readLog_bind (fun _ => alignCpu_of_blank),
    ← readLog_bind (fun _ => alignTime_of_blank)]
  simp only [bind_assoc]
  rfl

/-- The texts of the three logs of a dataset. -/
structure DatasetLogs where
  ram : List Char
  cpu : List Char
  time : List Char

/-- The logs of a dataset stand in a directory. -/
structure DatasetLogs.StandIn (logs : DatasetLogs) (files : FileTree) (layout : DatasetLayout)
    (dir : Path) : Prop where
  ram : files.readText (layout.ramLog dir) = .ok logs.ram
  cpu : files.readText (layout.cpuLog dir) = .ok logs.cpu
  time : files.readText (layout.timeLog dir) = .ok logs.time

/-- A dataset is aligned if each of its logs is. -/
theorem DatasetLogs.StandIn.alignDataset_eq_ok_iff {logs : DatasetLogs} {files : FileTree}
    {layout : DatasetLayout} {dir : Path} (h : logs.StandIn files layout dir) {source : String}
    {d : AlignedDataset} :
    alignDataset files layout dir source = .ok d ↔
      ∃ ram cpu time, alignRam (layout.ramLog dir) logs.ram = .ok ram ∧
        alignCpu (layout.cpuLog dir) logs.cpu = .ok cpu ∧
        alignTime (layout.timeLog dir) logs.time = .ok time ∧
        AlignedDataset.ofLogs layout.name source ram cpu time = d := by
  rw [alignDataset_eq_bind, FileTree.logText_of_readText h.ram, FileTree.logText_of_readText h.cpu,
    FileTree.logText_of_readText h.time]
  simp only [bind_eq_ok_iff, Except.ok.injEq, exists_eq_left', ← exists_and_left]

theorem readTimeline_eq_bind (files : FileTree) (p : Path) :
    readTimeline files p = (files.logText p >>= timelineTable p) :=
  readLog_bind (fun _ => timelineTable_of_blank) files

/-- Recording the tables leaves the counters as they are. -/
theorem AlignedDataset.exists_summary_ofLogs (name source : String) (ram : Pairing × Table)
    (cpu : ℕ × List (UInt32 × Float) × Table) (time : List Float × Table) :
    ∃ columns, (ofLogs name source ram cpu time).summary =
      { DatasetSummary.ofLogs name source ram cpu time with columns } := by
  unfold ofLogs
  generalize DatasetSummary.ofLogs name source ram cpu time = s
  obtain ⟨_, hram⟩ := s.exists_record ram.2
  obtain ⟨_, hcpu⟩ := (s.record ram.2).exists_record cpu.2.2
  obtain ⟨columns, htime⟩ := ((s.record ram.2).record cpu.2.2).exists_record time.2
  exact ⟨columns, by rw [htime, hcpu, hram]⟩

/-! ### Written logs -/

/-- Complete logs as they are written. -/
def CompleteLogs.texts (logs : CompleteLogs) : DatasetLogs where
  ram := Text.written (logs.ram.map RamEvent.line)
  cpu := Text.written (logs.cpu.flatMap CpuEvent.lines)
  time := Text.written (logs.durations.map DurationText.line)

theorem CompleteLogs.exists_alignDataset {logs : CompleteLogs} {files : FileTree}
    {layout : DatasetLayout} {dir : Path} (h : logs.texts.StandIn files layout dir)
    (source : String) : ∃ d, alignDataset files layout dir source = .ok d := by
  obtain ⟨pairing, ram, hram, -⟩ := alignRam_of_events (layout.ramLog dir)
    (RamEvent.lines_written logs.ram) logs.ram_ne_nil logs.ram_alternates
  obtain ⟨rows, cpu, hcpu, -⟩ := alignCpu_of_events (layout.cpuLog dir)
    (CpuEvent.lines_written logs.cpu) logs.cpu_ne_nil logs.cpu_alternates
  obtain ⟨time, htime, -⟩ := alignTime_of_durations (layout.timeLog dir)
    (DurationText.lines_written logs.durations) logs.durations_ne_nil
  exact ⟨_, h.alignDataset_eq_ok_iff.mpr ⟨_, _, _, hram, hcpu, htime, rfl⟩⟩

/-- Complete logs of one repetition. -/
def CompleteLogs.single : CompleteLogs where
  ram :=
    [⟨.ofRepetition .start .repetition 1, ⟨.ofNat 100, none⟩⟩,
     ⟨.ofRepetition .finish .repetition 1, ⟨.ofNat 120, none⟩⟩]
  cpu :=
    [⟨.ofRepetition .start .repetition 1, ⟨.ofNat 3, none⟩, [⟨.ofNat 12, none⟩]⟩,
     ⟨.ofRepetition .finish .repetition 1, ⟨.ofNat 4, none⟩, []⟩]
  durations := [⟨"2s".toList, by decide, 0 + Number.Numeral.value ⟨['2'], [], 0⟩ * 1000, rfl⟩]
  ram_ne_nil := List.cons_ne_nil _ _
  cpu_ne_nil := List.cons_ne_nil _ _
  durations_ne_nil := List.cons_ne_nil _ _
  ram_alternates := by decide
  cpu_alternates := by decide

/-- Files with the logs of a dataset of the name `d` among them. -/
def DatasetLogs.tree (logs : DatasetLogs) (others : List (Location × FileNode)) : FileTree where
  workingDirectory := []
  entries :=
    (["d_ram_usage.txt"], .file (.text logs.ram)) ::
      (["d_cpu_usage.txt"], .file (.text logs.cpu)) ::
      (["d_execution_time.txt"], .file (.text logs.time)) :: others

theorem DatasetLogs.standIn_tree (logs : DatasetLogs) (others : List (Location × FileNode)) :
    logs.StandIn (logs.tree others) (.named "d") ⟨""⟩ :=
  ⟨rfl, rfl, rfl⟩

end BenchLog
