/-
# A summary agrees with its tables and its logs

The counters of a summary come from different stages, and each stage sees a list
of its own. That they fit together follows from two balances, one for each
stage that leaves something out: a record is in a pair, a dropped end or an open
start (`Pairing.length_ofRecords`), and a block is coupled unless it is the last
one of a repetition with an odd number of blocks (`length_coupleRows`). The
statistics are those of the columns of numbers, under their names.

Key definitions: `oddRepetitions`, `DatasetSummary.Describes`.
Key theorems: `length_coupleRows`, `even_length_coupleRows`,
`AlignedDataset.columns_ofLogs`, `alignDataset_summary`.
-/
import Mathlib.Data.Finset.Card
import Mathlib.Algebra.Group.Nat.Even
import Mathlib.Data.List.ReduceOption
import BenchLog.Proofs.AlignmentOutcome
import BenchLog.Proofs.Interleaving

namespace BenchLog

/-! ### Rows that stay alone -/

/-- The repetitions that own an odd number of rows. -/
def oddRepetitions (rows : List (UInt32 × Float)) : Finset UInt32 :=
  (rows.map (·.1)).toFinset.filter fun r => Odd (rows.countP (·.1 == r))

theorem mem_oddRepetitions {rows : List (UInt32 × Float)} {r : UInt32} :
    r ∈ oddRepetitions rows ↔ Odd (rows.countP (·.1 == r)) := by
  simp only [oddRepetitions, Finset.mem_filter, List.mem_toFinset, and_iff_right_iff_imp]
  intro hodd
  obtain ⟨row, hrow, hr⟩ := List.countP_pos_iff.mp hodd.pos
  exact List.mem_map.mpr ⟨row, hrow, beq_iff_eq.mp hr⟩

/-- Two rows of one repetition change nothing about what is odd. -/
theorem oddRepetitions_couple {row partner : UInt32 × Float} (h : partner.1 = row.1)
    (front back : List (UInt32 × Float)) :
    oddRepetitions (row :: (front ++ partner :: back)) = oddRepetitions (front ++ back) := by
  ext r
  simp only [mem_oddRepetitions, List.countP_cons, List.countP_append, h, Nat.odd_iff]
  split <;> omega

/-- A row without another of its repetition is odd. -/
theorem oddRepetitions_alone {row : UInt32 × Float} {rows : List (UInt32 × Float)}
    (h : ∀ other ∈ rows, other.1 ≠ row.1) :
    row.1 ∉ oddRepetitions rows ∧
      oddRepetitions (row :: rows) = insert row.1 (oddRepetitions rows) := by
  have hnone : rows.countP (·.1 == row.1) = 0 :=
    List.countP_eq_zero.mpr fun other hother => by simpa using h other hother
  constructor
  · simp [mem_oddRepetitions, hnone]
  · ext r
    rw [Finset.mem_insert, mem_oddRepetitions, mem_oddRepetitions, List.countP_cons]
    by_cases hr : r = row.1
    · simp [hr, hnone]
    · have hbeq : (row.1 == r) = false := beq_eq_false_iff_ne.mpr (Ne.symm hr)
      simp [hbeq, hr]

namespace CoupledGreedily

variable {rows output : List (UInt32 × Float)}

/-- What the rule leaves out is one row for each odd repetition. -/
theorem length_eq (h : CoupledGreedily rows output) :
    rows.length = output.length + (oddRepetitions rows).card := by
  induction h with
  | done => rfl
  | @couple row partner front back output _ hpartner _ ih =>
    rw [oddRepetitions_couple hpartner]
    simp only [List.length_cons, List.length_append] at ih ⊢
    omega
  | @drop row rows output hrows _ ih =>
    obtain ⟨hnot, hodd⟩ := oddRepetitions_alone hrows
    rw [hodd, Finset.card_insert_of_notMem hnot, List.length_cons, ih]
    omega

/-- Rows are given out in couples. -/
theorem even_length (h : CoupledGreedily rows output) : Even output.length := by
  induction h with
  | done => exact Even.zero
  | couple _ _ _ ih =>
    simp only [List.length_cons, Nat.even_add_one, not_not]
    exact ih
  | drop _ _ ih => exact ih

end CoupledGreedily

/-- What is not coupled is one row for each odd repetition. -/
theorem length_coupleRows (rows : List (UInt32 × Float)) :
    rows.length = (coupleRows rows).length + (oddRepetitions rows).card :=
  (coupleRows_eq_coupleGreedily rows ▸ coupledGreedily_coupleGreedily rows).length_eq

theorem even_length_coupleRows (rows : List (UInt32 × Float)) : Even (coupleRows rows).length :=
  (coupleRows_eq_coupleGreedily rows ▸ coupledGreedily_coupleGreedily rows).even_length

/-- If anything is coupled, there are two rows. -/
theorem two_le_length_coupleRows {rows : List (UInt32 × Float)} (h : coupleRows rows ≠ []) :
    2 ≤ (coupleRows rows).length := by
  have hpos := List.length_pos_iff.mpr h
  obtain ⟨n, hn⟩ := even_length_coupleRows rows
  omega

/-! ### Statistics -/

namespace Table

variable {t : Table} {name : String} {values : List Float}

theorem numbers_of_floats (h : t.find? name = some (.ofFloats values)) :
    t.numbers name = .ok values := by
  have hempty : (Column.ofFloats values).emptyCount = 0 := by
    simp [Column.ofFloats, Column.emptyCount, Column.countEmpty, List.countP_map]
  have hnumbers : (Column.ofFloats values).numbers? = some values := by
    simp [Column.ofFloats, Column.numbers?, List.reduceOption]
  simp only [numbers, column, h, bind, Except.bind, hempty, hnumbers]
  rfl

theorem length_of_floats (h : t.find? name = some (.ofFloats values)) : values.length = t.rows := by
  rw [← size_of_find? h, Column.size_ofFloats]

end Table

namespace DatasetSummary

/-- The statistics of a name are those of the column of a table. -/
def Describes (s : DatasetSummary) (t : Table) (name : String) : Prop :=
  ∃ values stats, t.numbers name = .ok values ∧ ColumnStats.ofValues? values = some stats ∧
    s.columns.find? name = some stats ∧ stats.count = t.rows

variable {s : DatasetSummary} {t : Table}

/-- A column of numbers is recorded under its name. -/
theorem exists_recordColumn {name : String} {values : List Float}
    (hname : name ≠ Table.repetitionName) (h : t.find? name = some (.ofFloats values))
    (hrows : 0 < t.rows) :
    ∃ stats, ColumnStats.ofValues? values = some stats ∧ stats.count = t.rows ∧
      ∀ s, recordColumn t s name = { s with columns := s.columns.insert name stats } := by
  have hlength := Table.length_of_floats h
  have hne : values.isEmpty = false := by
    rw [List.isEmpty_eq_false_iff, ← List.length_pos_iff, hlength]
    exact hrows
  have hstats : ∃ stats, ColumnStats.ofValues? values = some stats := by
    rw [ColumnStats.ofValues?, hne]
    exact ⟨_, rfl⟩
  obtain ⟨stats, hstats⟩ := hstats
  refine ⟨stats, hstats, (ColumnStats.count_of_ofValues? hstats).trans hlength, fun s => ?_⟩
  simp only [recordColumn, hname, if_false, statsOf?, Table.numbers_of_floats h, hstats]

theorem recordColumn_repetition : recordColumn t s Table.repetitionName = s := by
  rw [recordColumn, if_pos rfl]

end DatasetSummary

/-- The names of the columns that a dataset has statistics of, in their order. -/
def statisticsNames : List String :=
  [Metric.executionTime.valueColumn, Metric.cpu.valueColumn, Metric.ram.valueColumn, ramStartColumn]

/-- The statistics of all four columns of numbers, as they are recorded one after the other. -/
def recordedStatistics (start finish cpu time : ColumnStats) : Dictionary ColumnStats :=
  (((Dictionary.empty.insert ramStartColumn start).insert Metric.ram.valueColumn finish).insert
    Metric.cpu.valueColumn cpu).insert Metric.executionTime.valueColumn time

theorem names_recordedStatistics (start finish cpu time : ColumnStats) :
    (recordedStatistics start finish cpu time).entries.map (·.1) = statisticsNames := rfl

theorem find?_recordedStatistics (start finish cpu time : ColumnStats) :
    (recordedStatistics start finish cpu time).find? ramStartColumn = some start ∧
      (recordedStatistics start finish cpu time).find? Metric.ram.valueColumn = some finish ∧
      (recordedStatistics start finish cpu time).find? Metric.cpu.valueColumn = some cpu ∧
      (recordedStatistics start finish cpu time).find? Metric.executionTime.valueColumn =
        some time := by
  unfold recordedStatistics
  refine ⟨?_, ?_, ?_, Dictionary.find?_insert_self _ _ _⟩
  · rw [Dictionary.find?_insert_of_ne _ _ (by decide), Dictionary.find?_insert_of_ne _ _ (by decide),
      Dictionary.find?_insert_of_ne _ _ (by decide), Dictionary.find?_insert_self]
  · rw [Dictionary.find?_insert_of_ne _ _ (by decide), Dictionary.find?_insert_of_ne _ _ (by decide),
      Dictionary.find?_insert_self]
  · rw [Dictionary.find?_insert_of_ne _ _ (by decide), Dictionary.find?_insert_self]

/-- Recording the three tables gives the statistics of their columns of numbers, and no others. -/
theorem AlignedDataset.columns_ofLogs (name source : String) (ram : Pairing × Table)
    (cpu : ℕ × List (UInt32 × Float) × Table) (time : List Float × Table)
    {pairs : List (UInt32 × Float × Float)} {rows : List (UInt32 × Float)} {times : List Float}
    (hram : ram.2.columns = ramColumns pairs) (hpairs : 0 < ram.2.rows)
    (hcpu : cpu.2.2.columns = cpuColumns rows) (hrows : 0 < cpu.2.2.rows)
    (htime : time.2.columns = timeColumns times) (htimes : 0 < time.2.rows) :
    let s := (ofLogs name source ram cpu time).summary
    s.columns.entries.map (·.1) = statisticsNames ∧
      s.Describes ram.2 ramStartColumn ∧ s.Describes ram.2 Metric.ram.valueColumn ∧
      s.Describes cpu.2.2 Metric.cpu.valueColumn ∧
      s.Describes time.2 Metric.executionTime.valueColumn := by
  have hstart : ram.2.find? ramStartColumn = some (.ofFloats (pairs.map (·.2.1))) := by
    rw [Table.find?, hram]
    rfl
  have hfinish : ram.2.find? Metric.ram.valueColumn = some (.ofFloats (pairs.map (·.2.2))) := by
    rw [Table.find?, hram]
    rfl
  have husage : cpu.2.2.find? Metric.cpu.valueColumn = some (.ofFloats (rows.map (·.2))) := by
    rw [Table.find?, hcpu]
    rfl
  have hspent : time.2.find? Metric.executionTime.valueColumn = some (.ofFloats times) := by
    rw [Table.find?, htime]
    rfl
  obtain ⟨start, hstats₁, hcount₁, hrecord₁⟩ :=
    DatasetSummary.exists_recordColumn (by decide) hstart hpairs
  obtain ⟨finish, hstats₂, hcount₂, hrecord₂⟩ :=
    DatasetSummary.exists_recordColumn (by decide) hfinish hpairs
  obtain ⟨largest, hstats₃, hcount₃, hrecord₃⟩ :=
    DatasetSummary.exists_recordColumn (by decide) husage hrows
  obtain ⟨spent, hstats₄, hcount₄, hrecord₄⟩ :=
    DatasetSummary.exists_recordColumn (by decide) hspent htimes
  have hcolumns : (ofLogs name source ram cpu time).summary.columns =
      recordedStatistics start finish largest spent := by
    have hnames₁ : ram.2.names =
        [Table.repetitionName, ramStartColumn, Metric.ram.valueColumn] := by
      rw [Table.names, hram]
      rfl
    have hnames₂ : cpu.2.2.names = [Table.repetitionName, Metric.cpu.valueColumn] := by
      rw [Table.names, hcpu]
      rfl
    have hnames₃ : time.2.names = [Table.repetitionName, Metric.executionTime.valueColumn] := by
      rw [Table.names, htime]
      rfl
    simp only [ofLogs, DatasetSummary.record, hnames₁, hnames₂, hnames₃, List.foldl_cons,
      List.foldl_nil, DatasetSummary.recordColumn_repetition, hrecord₁, hrecord₂, hrecord₃, hrecord₄]
    rfl
  obtain ⟨hfind₁, hfind₂, hfind₃, hfind₄⟩ := find?_recordedStatistics start finish largest spent
  rw [← hcolumns] at hfind₁ hfind₂ hfind₃ hfind₄
  exact ⟨hcolumns ▸ names_recordedStatistics start finish largest spent,
    ⟨_, start, Table.numbers_of_floats hstart, hstats₁, hfind₁, hcount₁⟩,
    ⟨_, finish, Table.numbers_of_floats hfinish, hstats₂, hfind₂, hcount₂⟩,
    ⟨_, largest, Table.numbers_of_floats husage, hstats₃, hfind₃, hcount₃⟩,
    ⟨_, spent, Table.numbers_of_floats hspent, hstats₄, hfind₄, hcount₄⟩⟩

/-! ### The summary -/

/-- The table of columns that begin with repetitions has a row for each. -/
theorem Table.rows_of_columns {t : Table} {repetitions : List UInt32}
    {columns : List (String × Column)}
    (h : t.columns = (repetitionName, .ofRepetitions repetitions) :: columns) :
    t.rows = repetitions.length := by
  rw [← t.size_eq _ (h ▸ List.mem_cons_self), Column.size_ofRepetitions]

/-- The lines of a log that are records, counted. -/
theorem Record.length_ofLog (text : List Char) :
    (ofLog text).length = (Text.lines text).zipIdx.countP fun l => (ofLine? l.1 l.2).isSome :=
  List.length_filterMap_eq_countP

/-- Execution times are counted from one. -/
theorem find?_timeColumns {t : Table} {times : List Float} (h : t.columns = timeColumns times) :
    t.find? Table.repetitionName =
      some (.ofRepetitions ((List.range' 1 times.length).map UInt32.ofNat)) := by
  have hcounted : (List.range' 1 times.length).map UInt32.ofNat =
      (List.range times.length).map fun i => UInt32.ofNat (i + 1) := by
    rw [List.range'_eq_map_range, List.map_map]
    exact List.map_congr_left fun i _ => congrArg UInt32.ofNat (Nat.add_comm 1 i)
  rw [Table.find?, h, hcounted]
  rfl

/-- The numbers from one to `n` are kept where thirty-two bits suffice for them. -/
theorem ofRepetitions_counted {n : ℕ} (h : n < UInt32.size) :
    Column.ofRepetitions ((List.range' 1 n).map UInt32.ofNat) =
      .int64 ((List.range' 1 n).map fun k : ℕ => some (k : ℤ)) := by
  rw [Column.ofRepetitions, List.map_map]
  congr 1
  refine List.map_congr_left fun k hk => ?_
  have hlt : k < UInt32.size := by
    have := (List.mem_range'_1.mp hk).2
    omega
  simp only [Function.comp_apply, UInt32.toNat_ofNat_of_lt' hlt]

/-- **The summary of a dataset agrees with its tables and its logs.** Every record of the log of
memory usage is in a pair, dropped or left open, every block of the log of the processor's usage
is in a row unless it is the odd one of its repetition, and there are statistics of the four
columns of numbers and no others. -/
theorem alignDataset_summary {files : FileTree} {layout : DatasetLayout} {dir : Path}
    {source : String} {d : AlignedDataset} (h : alignDataset files layout dir source = .ok d) :
    ∃ logs : DatasetLogs, logs.StandIn files layout dir ∧
      (d.summary.ramPairs = d.ram.rows ∧
        2 * d.summary.ramPairs + d.summary.ramDroppedEnds + d.summary.ramUnmatchedStarts =
          (Text.lines logs.ram).zipIdx.countP fun l => (Record.ofLine? l.1 l.2).isSome) ∧
      (d.summary.cpuRows = d.cpu.rows ∧ Even d.summary.cpuRows ∧ 2 ≤ d.summary.cpuRows ∧
        d.summary.cpuBlocks = (CpuBlock.ofLog logs.cpu).length ∧
        d.summary.cpuBlocks =
          d.summary.cpuRows + (oddRepetitions (CpuBlock.ofLog logs.cpu)).card) ∧
      (d.summary.executionTimes = d.time.rows ∧
        d.time.find? Table.repetitionName = some (.ofRepetitions
          ((List.range' 1 d.summary.executionTimes).map UInt32.ofNat)) ∧
        (d.summary.executionTimes < UInt32.size → d.time.find? Table.repetitionName =
          some (.int64 ((List.range' 1 d.summary.executionTimes).map fun k : ℕ => some (k : ℤ))))) ∧
      d.summary.columns.entries.map (·.1) = statisticsNames ∧
      d.summary.Describes d.ram ramStartColumn ∧
      d.summary.Describes d.ram Metric.ram.valueColumn ∧
      d.summary.Describes d.cpu Metric.cpu.valueColumn ∧
      d.summary.Describes d.time Metric.executionTime.valueColumn := by
  obtain ⟨logs, hlogs⟩ := exists_standIn_of_alignDataset h
  obtain ⟨_, _, _, hram, hcpu, htime, rfl⟩ := hlogs.alignDataset_eq_ok_iff.mp h
  obtain ⟨hpairs, ram, hramColumns, rfl⟩ := alignRam_eq_ok_iff.mp hram
  obtain ⟨hrows, cpu, hcpuColumns, rfl⟩ := alignCpu_eq_ok_iff.mp hcpu
  obtain ⟨times, -, htimes, time, htimeColumns, rfl⟩ := alignTime_eq_ok_iff.mp htime
  have hramRows : ram.rows = (Pairing.ofRecords (Record.ofLog logs.ram)).pairs.length := by
    rw [Table.rows_of_columns hramColumns, List.length_map, List.length_map]
  have hcpuRows : cpu.rows = (coupleRows (CpuBlock.ofLog logs.cpu)).length := by
    rw [Table.rows_of_columns hcpuColumns, List.length_map]
  have htimeRows : time.rows = times.length := by
    rw [Table.rows_of_columns htimeColumns, List.length_map, List.length_range]
  have hrepetitions := find?_timeColumns htimeColumns
  obtain ⟨columns, hsummary⟩ := AlignedDataset.exists_summary_ofLogs layout.name source
    (Pairing.ofRecords (Record.ofLog logs.ram), ram)
    ((CpuBlock.ofLog logs.cpu).length, coupleRows (CpuBlock.ofLog logs.cpu), cpu) (times, time)
  have hstatistics := AlignedDataset.columns_ofLogs layout.name source
    (Pairing.ofRecords (Record.ofLog logs.ram), ram)
    ((CpuBlock.ofLog logs.cpu).length, coupleRows (CpuBlock.ofLog logs.cpu), cpu) (times, time)
    hramColumns (hramRows ▸ List.length_pos_iff.mpr hpairs)
    hcpuColumns (hcpuRows ▸ List.length_pos_iff.mpr hrows)
    htimeColumns (htimeRows ▸ List.length_pos_iff.mpr htimes)
  refine ⟨logs, hlogs, ⟨?_, ?_⟩, ⟨?_, ?_, ?_, ?_, ?_⟩, ⟨?_, ?_, ?_⟩, hstatistics⟩
  all_goals rw [hsummary]
  · exact hramRows.symm
  · exact (Pairing.length_ofRecords _).trans (Record.length_ofLog _)
  · exact hcpuRows.symm
  · exact even_length_coupleRows _
  · exact two_le_length_coupleRows hrows
  · rfl
  · exact length_coupleRows _
  · exact htimeRows.symm
  · exact hrepetitions
  · intro hlt
    exact hrepetitions.trans (congrArg some (ofRepetitions_counted hlt))

/-- Logs with a stray end, a start that stays open, a marker without samples and a
repetition of three blocks. -/
def strayLogs : DatasetLogs where
  ram :=
    ("End of repetition 4: RAM Usage: 9 MB\nStart of repetition 1: RAM Usage: 10 MB\n# rerun\n" ++
      "Start of repetition 1: RAM Usage: 11 MB\nEnd of repetition 1: RAM Usage: 30 MB\n" ++
      "Start of repetition 2: RAM Usage: 12 MB\nEnd of repetition 1: RAM Usage: 31 MB\n").toList
  cpu :=
    ("Start of repetition 1: %Cpu(s): 1.5 us\nStart of repetition 2: %Cpu(s): 2 us\n" ++
      "End of repetition 1:\n%Cpu(s): 4 us\nEnd of repetition 3:\n" ++
      "Start of repetition 1: %Cpu(s): 3 us\n").toList
  time := "Execution Time: 2s\nExecution Time: 1m2.5s".toList

theorem strayLogs_usable : strayLogs.Usable where
  completes := by
    have hpairs := Pairing.foldl_step_pairs (Record.ofLog strayLogs.ram) .empty
    have hsome : ((Record.ofLog strayLogs.ram).foldl PairingState.step .empty).pairs.length = 2 := by
      decide +kernel
    simpa [PairingState.empty, Pairing.Closes] using hpairs.mp fun hnil => by simp [hnil] at hsome
  recurs := recurs_iff.mpr (by decide +kernel)
  tokens_ne_nil := by decide +kernel
  isWellFormed := by
    have htokens : ExecutionTime.tokens strayLogs.time = ["2s".toList, "1m2.5s".toList] := by
      decide +kernel
    rw [htokens, List.forall_mem_cons, List.forall_mem_singleton]
    simp only [← Duration.isSome_sum?_components_iff]
    decide +kernel

theorem alignDataset_summary_of_strays :
    ∃ d, alignDataset (strayLogs.tree []) (.named "d") ⟨""⟩ "logs" = .ok d ∧
      2 * d.ram.rows + d.summary.ramDroppedEnds + d.summary.ramUnmatchedStarts = 6 ∧
      d.summary.cpuBlocks = 4 ∧ d.cpu.rows = 2 ∧
      d.summary.columns.entries.map (·.1) = statisticsNames := by
  have hstray := strayLogs.standIn_tree []
  obtain ⟨d, hd⟩ : ∃ d, alignDataset (strayLogs.tree []) (.named "d") ⟨""⟩ "logs" = .ok d :=
    exists_alignDataset_iff.mpr ⟨_, hstray, strayLogs_usable⟩
  obtain ⟨logs, hlogs, ⟨hpairs, hrecords⟩, ⟨hrows, -, -, hblocks, hodd⟩, -, hnames, -⟩ :=
    alignDataset_summary hd
  have hram : logs.ram = strayLogs.ram := Except.ok.inj (hlogs.ram.symm.trans hstray.ram)
  have hcpu : logs.cpu = strayLogs.cpu := Except.ok.inj (hlogs.cpu.symm.trans hstray.cpu)
  rw [hram] at hrecords
  rw [hcpu] at hblocks hodd
  have hcount : (CpuBlock.ofLog strayLogs.cpu).length = 4 := by decide +kernel
  have halone : (oddRepetitions (CpuBlock.ofLog strayLogs.cpu)).card = 2 := by decide +kernel
  refine ⟨d, hd, ?_, hblocks.trans hcount, by omega, hnames⟩
  rw [← hpairs, hrecords]
  decide +kernel

end BenchLog
