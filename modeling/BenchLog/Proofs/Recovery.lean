/-
# Aligning a complete dataset recovers its events

The logs of a dataset are complete if the events of each repetition alternate
in them. Whatever the order in which repetitions overlap, aligning such logs
gives back every event: each start has a row with the next end of its
repetition, and nothing is left out.

Key definitions: `CompleteLogs`, `CompleteLogs.StandIn`.
Key theorems: `alignRam_of_events`, `alignCpu_of_events`,
`alignTime_of_durations`, `alignDataset_of_complete`.
-/
import BenchLog.Proofs.AlignedTables
import BenchLog.Proofs.Alternation
import BenchLog.Proofs.WrittenLog

namespace BenchLog

/-! ### Reading and making tables -/

theorem readLog_of_readText {files : FileTree} {p : Path} {text : List Char}
    (h : files.readText p = .ok text) (hblank : Text.isBlankText text = false) :
    readLog files p = .ok text := by
  simp [readLog, h, hblank]

/-- Recording a table changes the statistics of columns only. -/
theorem DatasetSummary.exists_record (s : DatasetSummary) (t : Table) :
    ∃ columns, s.record t = { s with columns } := by
  unfold record
  generalize t.names = names
  induction names generalizing s with
  | nil => exact ⟨s.columns, rfl⟩
  | cons name names ih =>
    rw [List.foldl_cons]
    have hone : ∃ columns, recordColumn t s name = { s with columns } := by
      unfold recordColumn
      split
      · exact ⟨s.columns, rfl⟩
      · split
        · exact ⟨_, rfl⟩
        · exact ⟨s.columns, rfl⟩
    obtain ⟨columns, hc⟩ := hone
    obtain ⟨columns', hc'⟩ := ih (recordColumn t s name)
    exact ⟨columns', hc'.trans (by rw [hc])⟩

/-! ### Memory usage -/

namespace RamEvent

/-- The table of memory usage: one row a start, with the next end of its
repetition. -/
def columns (events : List RamEvent) : List (String × Column) :=
  let rows := spans mark events
  [("Repetition", .ofRepetitions (rows.map (·.1.marker.repetition))),
   ("RAM_Usage_Start_MB", .ofFloats (rows.map (·.1.usage.value))),
   ("RAM_Usage_End_MB", .ofFloats (rows.map (·.2.usage.value)))]

/-- The spans of events with the indices of their lines. -/
theorem spans_zipIdx (events : List RamEvent) :
    spans mark events =
      (spans (fun e : RamEvent × ℕ => e.1.mark) events.zipIdx).map (Prod.map (·.1) (·.1)) := by
  have h : spans mark (events.zipIdx.map (·.1)) = _ := spans_map (·.1) events.zipIdx
  rwa [List.zipIdx_map_fst] at h

/-- The records of complete events are paired by the spans, none is left out. -/
theorem ofRecords_of_events {events : List RamEvent} (h : Alternates mark events) :
    let pairing := Pairing.ofRecords (events.zipIdx.map fun e => e.1.record e.2)
    pairing.pairs = (spans (fun e : RamEvent × ℕ => e.1.mark) events.zipIdx).map
        (fun p => ⟨p.1.1.record p.1.2, p.2.1.record p.2.2⟩) ∧
      pairing.droppedEnds = 0 ∧ pairing.unmatchedStarts = 0 := by
  have hindexed : Alternates (fun e : RamEvent × ℕ => e.1.mark) events.zipIdx := by
    rw [← List.zipIdx_map_fst 0 events] at h
    exact alternates_map.mp h
  have hrecords : Alternates Record.mark (events.zipIdx.map fun e => e.1.record e.2) :=
    alternates_map.mpr hindexed
  have hlines : (events.zipIdx.map fun e => e.1.record e.2).Pairwise
      fun x y => x.line < y.line := by
    have hindices : (events.zipIdx.map (·.2)).Pairwise (· < ·) := by
      rw [List.zipIdx_map_snd]
      exact List.pairwise_lt_range'
    rw [List.pairwise_map] at hindices ⊢
    exact hindices
  obtain ⟨hpairs, hdropped, hopen⟩ := Pairing.ofRecords_of_alternates hrecords hlines
  refine ⟨?_, hdropped, hopen⟩
  rw [hpairs, spans_map, List.map_map]
  rfl

end RamEvent

/-- Complete events of memory usage become their table. -/
theorem alignRam_of_events {text : List Char} {events : List RamEvent} (path : Path)
    (hlines : Text.lines text = events.map RamEvent.line) (hne : events ≠ [])
    (h : Alternates RamEvent.mark events) :
    ∃ pairing table, alignRam path text = .ok (pairing, table) ∧
      table.columns = RamEvent.columns events ∧
      pairing.pairs.length = (spans RamEvent.mark events).length ∧
      pairing.droppedEnds = 0 ∧ pairing.unmatchedStarts = 0 := by
  obtain ⟨hpairs, hdropped, hopen⟩ := RamEvent.ofRecords_of_events h
  rw [← Record.ofLog_of_events hlines] at hpairs hdropped hopen
  have hlength : (Pairing.ofRecords (Record.ofLog text)).pairs.length =
      (spans RamEvent.mark events).length := by
    rw [hpairs, RamEvent.spans_zipIdx, List.length_map, List.length_map]
  have hspans : spans RamEvent.mark events ≠ [] := by
    intro hnil
    have hperm := perm_spans h
    rw [hnil] at hperm
    exact hne hperm.symm.eq_nil
  have hsome : (Pairing.ofRecords (Record.ofLog text)).pairs.isEmpty = false := by
    rw [List.isEmpty_eq_false_iff, ← List.length_pos_iff, hlength, List.length_pos_iff]
    exact hspans
  obtain ⟨table, htable, hcolumns⟩ := Table.exists_withRepetitions
    ((Pairing.ofRecords (Record.ofLog text)).pairs.map (·.repetition))
    [(ramStartColumn, (Pairing.ofRecords (Record.ofLog text)).pairs.map (·.start.value)),
      (Metric.ram.valueColumn, (Pairing.ofRecords (Record.ofLog text)).pairs.map (·.finish.value))]
    (by simp)
  refine ⟨Pairing.ofRecords (Record.ofLog text), table, ?_, ?_, hlength, hdropped, hopen⟩
  · simp only [alignRam, hsome, htable, bind, Except.bind]
    rfl
  · -- A pair is named by its end, whose repetition is that of the start.
    have hrepetitions : (Pairing.ofRecords (Record.ofLog text)).pairs.map (·.repetition) =
        (spans RamEvent.mark events).map (·.1.marker.repetition) := by
      rw [hpairs, RamEvent.spans_zipIdx, List.map_map, List.map_map]
      refine List.map_congr_left fun p hp => ?_
      exact congrArg Prod.snd (mark_of_mem_spans hp).2
    rw [hcolumns, hrepetitions, hpairs, RamEvent.columns, RamEvent.spans_zipIdx]
    simp only [List.map_map]
    rfl

/-! ### The processor's usage -/

/-- The table of the processor's usage: two rows a start, for its block and for
the block of the next end of its repetition. -/
def CpuEvent.columns (events : List CpuEvent) : List (String × Column) :=
  let rows := (spans mark events).flatMap fun p =>
    [(p.1.marker.repetition, p.1.largest), (p.1.marker.repetition, p.2.largest)]
  [("Repetition", .ofRepetitions (rows.map (·.1))),
   ("Max_CPU_Usage_us", .ofFloats (rows.map (·.2)))]

/-- Complete events of the processor's usage become their table. -/
theorem alignCpu_of_events {text : List Char} {events : List CpuEvent} (path : Path)
    (hlines : Text.lines text = events.flatMap CpuEvent.lines) (hne : events ≠ [])
    (h : Alternates CpuEvent.mark events) :
    ∃ rows table, alignCpu path text = .ok (events.length, rows, table) ∧
      table.columns = CpuEvent.columns events ∧ rows.length = events.length := by
  have hblocks : CpuBlock.ofLog text = events.map CpuEvent.row :=
    CpuBlock.ofLog_of_events hlines
  have hrows : coupleRows (events.map CpuEvent.row) =
      (spans CpuEvent.mark events).flatMap fun p =>
        [(p.1.marker.repetition, p.1.largest), (p.1.marker.repetition, p.2.largest)] := by
    refine (coupleRows_of_alternates CpuEvent.largest h).trans ?_
    refine List.flatMap_congr fun p hp => ?_
    rw [(mark_of_mem_spans hp).2]
    rfl
  have hlength : (coupleRows (events.map CpuEvent.row)).length = events.length := by
    rw [hrows, ← (perm_spans h).length_eq, List.length_flatMap, List.length_flatMap]
    rfl
  have hsome : (coupleRows (events.map CpuEvent.row)).isEmpty = false := by
    rw [List.isEmpty_eq_false_iff, ← List.length_pos_iff, hlength, List.length_pos_iff]
    exact hne
  obtain ⟨table, htable, hcolumns⟩ := Table.exists_withRepetitions
    ((coupleRows (events.map CpuEvent.row)).map (·.1))
    [(Metric.cpu.valueColumn, (coupleRows (events.map CpuEvent.row)).map (·.2))] (by simp)
  refine ⟨coupleRows (events.map CpuEvent.row), table, ?_, ?_, hlength⟩
  · simp only [alignCpu, hblocks, hsome, htable, bind, Except.bind, List.length_map]
    rfl
  · rw [hcolumns, hrows]
    rfl

/-! ### Execution times -/

/-- The table of execution times, counted from one. -/
def DurationText.columns (durations : List DurationText) : List (String × Column) :=
  [("Repetition",
      .ofRepetitions ((List.range durations.length).map fun i => UInt32.ofNat (i + 1))),
   ("Execution_Time_ms", .ofFloats (durations.map (·.milliseconds)))]

/-- Written durations become their table. -/
theorem alignTime_of_durations {text : List Char} {durations : List DurationText} (path : Path)
    (hlines : Text.lines text = durations.map DurationText.line) (hne : durations ≠ []) :
    ∃ table, alignTime path text = .ok (durations.map (·.milliseconds), table) ∧
      table.columns = DurationText.columns durations := by
  have htimes := ExecutionTime.ofLog_of_durations hlines
  have hsome : (durations.map (·.milliseconds)).isEmpty = false := by simpa using hne
  obtain ⟨table, htable, hcolumns⟩ := Table.exists_withRepetitions
    ((List.range (durations.map (·.milliseconds)).length).map fun i => UInt32.ofNat (i + 1))
    [(Metric.executionTime.valueColumn, durations.map (·.milliseconds))] (by simp)
  refine ⟨table, ?_, ?_⟩
  · simp only [alignTime, htimes, hsome, htable, bind, Except.bind]
    rfl
  · rw [hcolumns, List.length_map]
    rfl

/-! ### A dataset -/

/-- The events of the three logs of a dataset. No log is empty, and the events
of each repetition alternate. -/
structure CompleteLogs where
  ram : List RamEvent
  cpu : List CpuEvent
  durations : List DurationText
  ram_ne_nil : ram ≠ []
  cpu_ne_nil : cpu ≠ []
  durations_ne_nil : durations ≠ []
  ram_alternates : Alternates RamEvent.mark ram
  cpu_alternates : Alternates CpuEvent.mark cpu

/-- A file whose text has the given lines. -/
def FileTree.HasLines (files : FileTree) (p : Path) (lines : List (List Char)) : Prop :=
  ∃ text, files.readText p = .ok text ∧ Text.lines text = lines

/-- The logs of a dataset stand in a directory as they are written. -/
structure CompleteLogs.StandIn (logs : CompleteLogs) (files : FileTree) (layout : DatasetLayout)
    (dir : Path) : Prop where
  ram : files.HasLines (layout.ramLog dir) (logs.ram.map RamEvent.line)
  cpu : files.HasLines (layout.cpuLog dir) (logs.cpu.flatMap CpuEvent.lines)
  time : files.HasLines (layout.timeLog dir) (logs.durations.map DurationText.line)

/-- Complete logs stand where they were written with line feeds. -/
theorem CompleteLogs.StandIn.of_written {logs : CompleteLogs} {files : FileTree}
    {layout : DatasetLayout} {dir : Path}
    (hram : files.readText (layout.ramLog dir) = .ok (Text.written (logs.ram.map RamEvent.line)))
    (hcpu : files.readText (layout.cpuLog dir) =
      .ok (Text.written (logs.cpu.flatMap CpuEvent.lines)))
    (htime : files.readText (layout.timeLog dir) =
      .ok (Text.written (logs.durations.map DurationText.line))) :
    logs.StandIn files layout dir :=
  ⟨⟨_, hram, RamEvent.lines_written _⟩, ⟨_, hcpu, CpuEvent.lines_written _⟩,
    ⟨_, htime, DurationText.lines_written _⟩⟩

/-- What aligning complete logs counts. -/
def CompleteLogs.counted (logs : CompleteLogs) (dataset source : String) : DatasetSummary where
  dataset
  source
  ramPairs := (spans RamEvent.mark logs.ram).length
  ramDroppedEnds := 0
  ramUnmatchedStarts := 0
  cpuBlocks := logs.cpu.length
  cpuRows := logs.cpu.length
  executionTimes := logs.durations.length
  columns := .empty

/-- A log of lines, the first of which is no blank one, can be read. -/
theorem FileTree.HasLines.readLog {files : FileTree} {p : Path} {l : List Char}
    {lines : List (List Char)} {c : Char} (h : files.HasLines p (l :: lines)) (hc : c ∈ l)
    (hblank : Text.isBlank c = false) :
    ∃ text, BenchLog.readLog files p = .ok text ∧ Text.lines text = l :: lines := by
  obtain ⟨text, hread, hlines⟩ := h
  have hl : l ∈ Text.lines text := hlines ▸ List.mem_cons_self
  exact ⟨text, readLog_of_readText hread (Text.isBlankText_of_mem_lines hl hc hblank), hlines⟩

theorem CompleteLogs.StandIn.readRam {logs : CompleteLogs} {files : FileTree}
    {layout : DatasetLayout} {dir : Path} (h : logs.StandIn files layout dir) :
    ∃ text, readLog files (layout.ramLog dir) = .ok text ∧
      Text.lines text = logs.ram.map RamEvent.line := by
  obtain ⟨e, events, he⟩ := List.exists_cons_of_ne_nil logs.ram_ne_nil
  have hram := h.ram
  rw [he, List.map_cons] at hram ⊢
  have hm : 'M' ∈ e.line :=
    List.mem_append_right _ (List.mem_append_right _ (List.mem_append_right _ (by decide)))
  exact hram.readLog hm (by decide)

theorem CompleteLogs.StandIn.readCpu {logs : CompleteLogs} {files : FileTree}
    {layout : DatasetLayout} {dir : Path} (h : logs.StandIn files layout dir) :
    ∃ text, readLog files (layout.cpuLog dir) = .ok text ∧
      Text.lines text = logs.cpu.flatMap CpuEvent.lines := by
  obtain ⟨e, events, he⟩ := List.exists_cons_of_ne_nil logs.cpu_ne_nil
  have hcpu := h.cpu
  rw [he, List.flatMap_cons, CpuEvent.lines, List.cons_append] at hcpu ⊢
  have hm : '%' ∈ e.opening := List.mem_append_right _ (List.mem_append_left _ (by decide))
  exact hcpu.readLog hm (by decide)

theorem CompleteLogs.StandIn.readTime {logs : CompleteLogs} {files : FileTree}
    {layout : DatasetLayout} {dir : Path} (h : logs.StandIn files layout dir) :
    ∃ text, readLog files (layout.timeLog dir) = .ok text ∧
      Text.lines text = logs.durations.map DurationText.line := by
  obtain ⟨d, durations, hd⟩ := List.exists_cons_of_ne_nil logs.durations_ne_nil
  have htime := h.time
  rw [hd, List.map_cons] at htime ⊢
  have hm : 'E' ∈ d.line := List.mem_append_left _ (by decide)
  exact htime.readLog hm (by decide)

/-- **Aligning complete logs recovers their events.** The table of memory usage
has a row for each start, in the order of the starts, with the values of the
start and of the next end of its repetition; that of the processor's usage has
two rows for each start, with the largest samples of the two blocks; the
execution times are counted from one; and no event is left out. -/
theorem alignDataset_of_complete {logs : CompleteLogs} {files : FileTree} {layout : DatasetLayout}
    {dir : Path} (h : logs.StandIn files layout dir) (source : String) :
    ∃ d, alignDataset files layout dir source = .ok d ∧
      d.ram.columns = RamEvent.columns logs.ram ∧
      d.cpu.columns = CpuEvent.columns logs.cpu ∧
      d.time.columns = DurationText.columns logs.durations ∧
      (spans RamEvent.mark logs.ram).map (·.1) = logs.ram.filter (·.marker.side = .start) ∧
      (spans CpuEvent.mark logs.cpu).map (·.1) = logs.cpu.filter (·.marker.side = .start) ∧
      d.summary = { logs.counted layout.name source with columns := d.summary.columns } := by
  obtain ⟨ramText, hreadRam, hramLines⟩ := h.readRam
  obtain ⟨cpuText, hreadCpu, hcpuLines⟩ := h.readCpu
  obtain ⟨timeText, hreadTime, htimeLines⟩ := h.readTime
  obtain ⟨pairing, ram, hram, hramColumns, hpairs, hdropped, hopen⟩ :=
    alignRam_of_events (layout.ramLog dir) hramLines logs.ram_ne_nil logs.ram_alternates
  obtain ⟨rows, cpu, hcpu, hcpuColumns, hrows⟩ :=
    alignCpu_of_events (layout.cpuLog dir) hcpuLines logs.cpu_ne_nil logs.cpu_alternates
  obtain ⟨time, htime, htimeColumns⟩ :=
    alignTime_of_durations (layout.timeLog dir) htimeLines logs.durations_ne_nil
  have halign : alignDataset files layout dir source = .ok
      ⟨ram, cpu, time, (((logs.counted layout.name source).record ram).record cpu).record time⟩ := by
    simp only [alignDataset, hreadRam, hram, hreadCpu, hcpu, hreadTime, htime, hpairs, hdropped,
      hopen, hrows, bind, Except.bind, List.length_map]
    rfl
  refine ⟨_, halign, hramColumns, hcpuColumns, htimeColumns, map_fst_spans logs.ram_alternates,
    map_fst_spans logs.cpu_alternates, ?_⟩
  -- Recording the tables leaves the counters as they are.
  generalize logs.counted layout.name source = s
  obtain ⟨_, hr⟩ := s.exists_record ram
  obtain ⟨_, hc⟩ := (s.record ram).exists_record cpu
  obtain ⟨columns, ht⟩ := ((s.record ram).record cpu).exists_record time
  have hall : ((s.record ram).record cpu).record time = { s with columns } := by rw [ht, hc, hr]
  rw [hall]

/-- Repetitions that overlap and recur, in all spellings. -/
theorem alignDataset_of_overlapping :
    ∃ (logs : CompleteLogs) (files : FileTree) (layout : DatasetLayout) (dir : Path),
      logs.StandIn files layout dir ∧ logs.ram.map RamEvent.mark =
        [(.start, 1), (.start, 2), (.finish, 1), (.start, 1), (.finish, 2), (.finish, 1)] ∧
      ∃ d, alignDataset files layout dir "logs" = .ok d ∧
        d.ram.columns = RamEvent.columns logs.ram := by
  let marker (side : Side) (spelling : Spelling) (r : UInt32) : MarkerText :=
    .ofRepetition side spelling r
  let ram : List RamEvent :=
    [⟨marker .start .repetition 1, ⟨.ofNat 100, none⟩⟩,
     ⟨marker .start .repitition 2, ⟨.ofNat 110, some (.ofNat 5)⟩⟩,
     ⟨marker .finish .repition 1, ⟨.ofNat 120, none⟩⟩,
     ⟨marker .start .repetition 1, ⟨.ofNat 125, none⟩⟩,
     ⟨marker .finish .repetition 2, ⟨.ofNat 130, none⟩⟩,
     ⟨marker .finish .repetition 1, ⟨.ofNat 90, none⟩⟩]
  let cpu : List CpuEvent :=
    [⟨marker .start .repetition 7, ⟨.ofNat 3, some (.ofNat 1)⟩, [⟨.ofNat 12, none⟩]⟩,
     ⟨marker .finish .repetition 7, ⟨.ofNat 4, none⟩, []⟩]
  let durations : List DurationText :=
    [⟨"2s".toList, by decide, 0 + Number.Numeral.value ⟨['2'], [], 0⟩ * 1000, rfl⟩]
  let logs : CompleteLogs :=
    ⟨ram, cpu, durations, by simp [ram], by simp [cpu], by simp [durations], by decide, by decide⟩
  let text (lines : List (List Char)) : Content := .text (Text.written lines)
  let files : FileTree := ⟨[],
    [(["d_ram_usage.txt"], .file (text (ram.map RamEvent.line))),
     (["d_cpu_usage.txt"], .file (text (cpu.flatMap CpuEvent.lines))),
     (["d_execution_time.txt"], .file (text (durations.map DurationText.line)))]⟩
  have hstand : logs.StandIn files (.named "d") ⟨""⟩ := .of_written rfl rfl rfl
  obtain ⟨d, hd, hram, -⟩ := alignDataset_of_complete hstand "logs"
  exact ⟨logs, files, .named "d", ⟨""⟩, hstand, by decide, d, hd, hram⟩

end BenchLog
