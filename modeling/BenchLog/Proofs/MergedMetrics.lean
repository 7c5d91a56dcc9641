/-
# The merged table of a metric

Merging goes by the names of columns three times: two columns of the sequential
table are selected, one of them is renamed, and a column of the parallel table is
added. An aligned table has no two columns of one name and has both columns that are
looked up, so every name leads to the column it should, and the sizes of the two
tables alone decide whether there is a merged table.

Key definitions: `Table.HasRows`, `mergedColumns`, `besides`.
Key theorems: `hasRows_of_alignDataset`, `exists_mergeMetric`, `mergeMetric_outcome`.
-/
import BenchLog.Proofs.RunOutputs
import BenchLog.Proofs.SummaryAgreement
import BenchLog.Proofs.WrittenTables

namespace BenchLog

/-! ### The rows of aligned tables -/

namespace Table

/-- The repetitions and the values of a metric stand in the table row by row, and no two columns
of the table have one name. -/
structure HasRows (t : Table) (m : Metric) (rows : List (UInt32 × Float)) : Prop where
  nodup : t.names.Nodup
  repetition : (repetitionName, .ofRepetitions (rows.map (·.1))) ∈ t.columns
  value : (m.valueColumn, .ofFloats (rows.map (·.2))) ∈ t.columns
  length_eq : rows.length = t.rows

/-- Where no two columns have one name, a name leads to its column. -/
theorem find?_of_mem_columns {t : Table} (hnodup : t.names.Nodup) {name : String} {c : Column}
    (h : (name, c) ∈ t.columns) : t.find? name = some c := by
  obtain ⟨front, back, hcolumns⟩ := List.append_of_mem h
  apply List.lookup_eq_some_iff.mpr
  refine ⟨front, back, hcolumns, fun d hd => ?_⟩
  rw [names, hcolumns, List.map_append, List.map_cons, List.nodup_append] at hnodup
  have hne : d.1 ≠ name := hnodup.2.2 _ (List.mem_map_of_mem hd) _ List.mem_cons_self
  simpa using hne.symm

theorem HasRows.of_columns {t : Table} {m : Metric} {rows : List (UInt32 × Float)}
    (hnodup : t.names.Nodup)
    (hrepetition : (repetitionName, .ofRepetitions (rows.map (·.1))) ∈ t.columns)
    (hvalue : (m.valueColumn, .ofFloats (rows.map (·.2))) ∈ t.columns) : t.HasRows m rows := by
  refine ⟨hnodup, hrepetition, hvalue, ?_⟩
  have hsize := t.size_eq _ hvalue
  simpa using hsize

end Table

/-- The tables of a dataset have rows for their metrics. -/
theorem hasRows_of_alignDataset {files : FileTree} {layout : DatasetLayout} {dir : Path}
    {source : String} {d : AlignedDataset} (h : alignDataset files layout dir source = .ok d)
    (m : Metric) : ∃ rows, (d.table m).HasRows m rows := by
  obtain ⟨logs, hlogs⟩ := exists_standIn_of_alignDataset h
  obtain ⟨ram, cpu, time, hram, hcpu, htime, rfl⟩ := hlogs.alignDataset_eq_ok_iff.mp h
  cases m
  case ram =>
    obtain ⟨-, t, ht, rfl⟩ := alignRam_eq_ok_iff.mp hram
    have hnodup : t.names.Nodup := by
      rw [Table.names, ht]
      show [Table.repetitionName, ramStartColumn, Metric.ram.valueColumn].Nodup
      decide
    set pairs := (Pairing.ofRecords (Record.ofLog logs.ram)).pairs.map (·.row)
    refine ⟨pairs.map fun p => (p.1, p.2.2), .of_columns hnodup ?_ ?_⟩
    · show _ ∈ t.columns
      simp [ht, ramColumns, Function.comp_def]
    · show _ ∈ t.columns
      simp [ht, ramColumns, Function.comp_def]
  case cpu =>
    obtain ⟨-, t, ht, rfl⟩ := alignCpu_eq_ok_iff.mp hcpu
    have hnodup : t.names.Nodup := by
      rw [Table.names, ht]
      show [Table.repetitionName, Metric.cpu.valueColumn].Nodup
      decide
    refine ⟨coupleRows (CpuBlock.ofLog logs.cpu), .of_columns hnodup ?_ ?_⟩
    · show _ ∈ t.columns
      simp [ht, cpuColumns]
    · show _ ∈ t.columns
      simp [ht, cpuColumns]
  case executionTime =>
    obtain ⟨times, -, -, t, ht, rfl⟩ := alignTime_eq_ok_iff.mp htime
    have hnodup : t.names.Nodup := by
      rw [Table.names, ht]
      show [Table.repetitionName, Metric.executionTime.valueColumn].Nodup
      decide
    set counts := (List.range times.length).map fun i => UInt32.ofNat (i + 1) with hcounts
    have hlength : counts.length = times.length := by simp [hcounts]
    refine ⟨counts.zip times, .of_columns hnodup ?_ ?_⟩
    · show _ ∈ t.columns
      rw [ht, timeColumns, List.map_fst_zip hlength.le]
      exact List.mem_cons_self
    · show _ ∈ t.columns
      rw [ht, timeColumns, List.map_snd_zip hlength.ge]
      exact List.mem_cons_of_mem _ List.mem_cons_self

/-! ### Merging -/

/-- The columns of a merged table: repetition, sequential value and parallel value. -/
def mergedColumns (m : Metric) (rows : List (UInt32 × Float × Float)) : List (String × Column) :=
  [(Table.repetitionName, .ofRepetitions (rows.map (·.1))),
   (m.sequentialColumn, .ofFloats (rows.map (·.2.1))),
   (m.parallelColumn, .ofFloats (rows.map (·.2.2)))]

/-- The rows of two tables side by side, with the repetitions of the first. -/
def besides (sequential parallel : List (UInt32 × Float)) : List (UInt32 × Float × Float) :=
  List.zipWith (fun s p => (s.1, s.2, p.2)) sequential parallel

theorem mergedColumns_besides {m : Metric} {rows rows' : List (UInt32 × Float)}
    (h : rows.length = rows'.length) :
    mergedColumns m (besides rows rows') =
      [(Table.repetitionName, .ofRepetitions (rows.map (·.1))),
       (m.sequentialColumn, .ofFloats (rows.map (·.2))),
       (m.parallelColumn, .ofFloats (rows'.map (·.2)))] := by
  have hzip : besides rows rows' = (rows.zip rows').map fun q => (q.1.1, q.1.2, q.2.2) := by
    rw [besides, List.map_zip_eq_zipWith]
    rfl
  have hfirst : (rows.zip rows').map Prod.fst = rows := List.map_fst_zip h.le
  have hsecond : (rows.zip rows').map Prod.snd = rows' := List.map_snd_zip h.ge
  have hcounts : (besides rows rows').map (·.1) = rows.map (·.1) := by
    conv_rhs => rw [← hfirst]
    simp [hzip]
  have hvalues : (besides rows rows').map (·.2.1) = rows.map (·.2) := by
    conv_rhs => rw [← hfirst]
    simp [hzip]
  have hvalues' : (besides rows rows').map (·.2.2) = rows'.map (·.2) := by
    conv_rhs => rw [← hsecond]
    simp [hzip]
  rw [mergedColumns, hcounts, hvalues, hvalues']

variable {s p : AlignedDataset} {m : Metric}

/-- Tables of one size that have the columns that are looked up can be merged. -/
theorem exists_mergeMetric (hs : (s.table m).Fits m) (hp : (p.table m).Fits m)
    (h : (s.table m).rows = (p.table m).rows) :
    ∃ t, mergeMetric s p m = .ok t ∧ t.rows = (s.table m).rows := by
  obtain ⟨values, hvalues, hmerge⟩ := exists_mergeMetric_eq_merge (p := p) hs
  obtain ⟨c, hc, -⟩ := Table.exists_fitting hp.value
  rw [hmerge, Table.merge, dif_pos (hvalues.trans h), hc]
  exact ⟨_, rfl, hvalues⟩

theorem columns_of_hasRows {rows rows' : List (UInt32 × Float)}
    (hs : (s.table m).HasRows m rows) (hp : (p.table m).HasRows m rows')
    (h : (s.table m).rows = (p.table m).rows) {t : Table} (ht : mergeMetric s p m = .ok t) :
    t.columns = mergedColumns m (besides rows rows') := by
  obtain ⟨counts, c, d, hcounts, hc, hd, hcolumns⟩ := Table.columns_of_mergeMetric ht
  rw [Table.find?_of_mem_columns hs.nodup hs.repetition] at hcounts
  rw [Table.find?_of_mem_columns hs.nodup hs.value] at hc
  rw [Table.find?_of_mem_columns hp.nodup hp.value] at hd
  cases hcounts
  cases hc
  cases hd
  have hlength : rows.length = rows'.length := by
    rw [hs.length_eq, hp.length_eq, h]
  rw [hcolumns, mergedColumns_besides hlength]

/-- **The merged table of a metric.** Two datasets have a merged table of a metric exactly if
their tables of it have one number of rows, and both numbers are what is reported otherwise. The
merged table has a column for the repetitions, one for the sequential and one for the parallel
values and no other; each of its rows has the repetition and the value of the sequential row and
the value of the parallel row at its place. -/
theorem mergeMetric_outcome {files files' : FileTree} {layout layout' : DatasetLayout}
    {dir dir' : Path} {source source' : String}
    (hs : alignDataset files layout dir source = .ok s)
    (hp : alignDataset files' layout' dir' source' = .ok p) (m : Metric) :
    ∃ rows rows', (s.table m).HasRows m rows ∧ (p.table m).HasRows m rows' ∧
      ((∃ t, mergeMetric s p m = .ok t) ↔ (s.table m).rows = (p.table m).rows) ∧
      (∀ e, mergeMetric s p m = .error e →
        e = .rowCountMismatch (s.table m).rows (p.table m).rows) ∧
      ∀ t, mergeMetric s p m = .ok t →
        t.rows = (s.table m).rows ∧ t.columns = mergedColumns m (besides rows rows') := by
  obtain ⟨rows, hrows⟩ := hasRows_of_alignDataset hs m
  obtain ⟨rows', hrows'⟩ := hasRows_of_alignDataset hp m
  have hfits := fits_of_alignDataset hs m
  have hfits' := fits_of_alignDataset hp m
  refine ⟨rows, rows', hrows, hrows', ?_⟩
  by_cases h : (s.table m).rows = (p.table m).rows
  · obtain ⟨t, ht, hsize⟩ := exists_mergeMetric hfits hfits' h
    rw [ht]
    refine ⟨⟨fun _ => h, fun _ => ⟨t, rfl⟩⟩, fun e he => ?_, fun u hu => ?_⟩
    · cases he
    · cases hu
      exact ⟨hsize, columns_of_hasRows hrows hrows' h ht⟩
  · rw [mergeMetric_of_rows_ne hfits h]
    refine ⟨⟨fun ⟨t, ht⟩ => ?_, fun heq => absurd heq h⟩, fun e he => ?_, fun t ht => ?_⟩
    · cases ht
    · cases he
      rfl
    · cases ht

/-- Logs with one pair of records, one couple of blocks and two execution times. -/
def rerunLogs : DatasetLogs where
  ram := "Start of repetition 7: RAM Usage: 10 MB\nEnd of repetition 7: RAM Usage: 30 MB\n".toList
  cpu := "Start of repetition 7: %Cpu(s): 8 us\nEnd of repetition 7:\n%Cpu(s): 4 us\n".toList
  time := "Execution Time: 2s\nExecution Time: 3s\n".toList

theorem mergeMetric_of_rerunLogs :
    ∃ s p, alignDataset exampleTree (.named "d") ⟨"in/many"⟩ "logs" = .ok s ∧
      alignDataset (rerunLogs.tree []) (.named "d") ⟨""⟩ "logs" = .ok p ∧
      mergeMetric s p .executionTime = .error (.rowCountMismatch 1 2) ∧
      ∃ t rows, mergeMetric s p .cpu = .ok t ∧ rows.length = 2 ∧
        t.columns = mergedColumns .cpu rows := by
  have hsizes : (alignDataset exampleTree (.named "d") ⟨"in/many"⟩ "logs").toOption.map
      (fun d => (d.time.rows, d.cpu.rows)) = some (1, 2) := by
    -- Coupling is the one part that the kernel cannot run as it is written.
    simp only [alignDataset, alignCpu, coupleRows_eq_coupleGreedily]
    decide +kernel
  have hsizes' : (alignDataset (rerunLogs.tree []) (.named "d") ⟨""⟩ "logs").toOption.map
      (fun d => (d.time.rows, d.cpu.rows)) = some (2, 2) := by
    simp only [alignDataset, alignCpu, coupleRows_eq_coupleGreedily]
    decide +kernel
  obtain ⟨s, hs, hrows⟩ := Option.map_eq_some_iff.mp hsizes
  obtain ⟨p, hp, hrows'⟩ := Option.map_eq_some_iff.mp hsizes'
  replace hs := eq_ok_of_toOption hs
  replace hp := eq_ok_of_toOption hp
  obtain ⟨htime, hcpu⟩ := Prod.mk.inj hrows
  obtain ⟨htime', hcpu'⟩ := Prod.mk.inj hrows'
  have hne : (s.table .executionTime).rows ≠ (p.table .executionTime).rows := by
    show s.time.rows ≠ p.time.rows
    omega
  have heq : (s.table .cpu).rows = (p.table .cpu).rows := hcpu.trans hcpu'.symm
  obtain ⟨-, -, -, -, hiff, herror, -⟩ := mergeMetric_outcome hs hp .executionTime
  obtain ⟨rows, rows', hleft, hright, hiff', -, hcolumns⟩ := mergeMetric_outcome hs hp .cpu
  refine ⟨s, p, hs, hp, ?_, ?_⟩
  · rcases hmerge : mergeMetric s p .executionTime with e | t
    · rw [herror e hmerge]
      show Except.error (Error.rowCountMismatch s.time.rows p.time.rows) = _
      rw [htime, htime']
    · exact absurd (hiff.mp ⟨t, hmerge⟩) hne
  · obtain ⟨t, ht⟩ := hiff'.mpr heq
    refine ⟨t, besides rows rows', ht, ?_, (hcolumns t ht).2⟩
    rw [besides, List.length_zipWith, hleft.length_eq, hright.length_eq, ← heq, min_self]
    exact hcpu

end BenchLog
