/-
# The summary of a dataset

What aligning one dataset has counted, and the statistics of its columns.

Key definitions: `DatasetSummary`, `DatasetSummary.record`.
-/
import BenchLog.Summary.Dictionary
import BenchLog.Summary.Stats
import BenchLog.Table.Basic

namespace BenchLog

/-- The counters of one dataset, and the statistics of its columns. -/
structure DatasetSummary where
  dataset : String
  /-- The folder of the logs. -/
  source : String
  ramPairs : Nat
  ramDroppedEnds : Nat
  ramUnmatchedStarts : Nat
  cpuBlocks : Nat
  cpuRows : Nat
  executionTimes : Nat
  columns : Dictionary ColumnStats

namespace DatasetSummary

/-- Nothing counted yet. -/
def empty (dataset source : String) : DatasetSummary :=
  ⟨dataset, source, 0, 0, 0, 0, 0, 0, .empty⟩

/-- The statistics of a column of numbers that is not empty. -/
def statsOf? (t : Table) (name : String) : Option ColumnStats :=
  match t.numbers name with
  | .ok xs => ColumnStats.ofValues? xs
  | .error _ => none

/-- The summary with the statistics of one column of a table. Repetitions are
counted, not measured, and columns without numbers have no statistics. -/
def recordColumn (t : Table) (s : DatasetSummary) (name : String) : DatasetSummary :=
  if name = Table.repetitionName then
    s
  else
    match statsOf? t name with
    | some stats => { s with columns := s.columns.insert name stats }
    | none => s

/-- The summary with the statistics of a table's columns. -/
def record (s : DatasetSummary) (t : Table) : DatasetSummary :=
  t.names.foldl (recordColumn t) s

end DatasetSummary
end BenchLog
