/-
# Aligning the logs of a dataset

The three logs become three tables with one row for each measured side or
repetition: the paired memory usage, the coupled maxima of the processor's
usage, and the execution times counted from one. A log that cannot be read, is
blank or yields no row ends the alignment; the logs are looked at in this order.
Nothing is written.

Key definitions: `readLog`, `AlignedDataset`, `alignRam`, `alignCpu`,
`alignTime`, `alignDataset`, `readTimeline`.
-/
import BenchLog.Files.Task
import BenchLog.Layout
import BenchLog.Log.Cpu
import BenchLog.Log.ExecutionTime
import BenchLog.Metric
import BenchLog.Pairing
import BenchLog.Sequencing
import BenchLog.Summary.Dataset
import BenchLog.Timeline

namespace BenchLog

/-- The text of a log, which must not be blank. -/
def readLog (files : FileTree) (p : Path) : Except Error (List Char) :=
  match files.readText p with
  | .error cause => .error (.file cause (some p))
  | .ok text => if Text.isBlankText text then .error (.emptyInput p) else .ok text

/-- The tables of a dataset and its summary. -/
structure AlignedDataset where
  ram : Table
  cpu : Table
  time : Table
  summary : DatasetSummary

namespace AlignedDataset

/-- The table of a metric. -/
def table (d : AlignedDataset) : Metric → Table
  | .ram => d.ram
  | .cpu => d.cpu
  | .executionTime => d.time

end AlignedDataset

/-- The column of memory usage at the start of repetitions. -/
def ramStartColumn : String := "RAM_Usage_Start_MB"

/-- The pairing of a log of memory usage and its table. -/
def alignRam (path : Path) (text : List Char) : Except Error (Pairing × Table) := do
  let pairing := Pairing.ofRecords (Record.ofLog text)
  if pairing.pairs.isEmpty then
    .error (.emptyInput path)
  else
    let table ← Table.withRepetitions (pairing.pairs.map (·.repetition))
      [(ramStartColumn, pairing.pairs.map (·.start.value)),
       (Metric.ram.valueColumn, pairing.pairs.map (·.finish.value))]
    .ok (pairing, table)

/-- The number of blocks in a log of the processor's usage, the coupled rows and
their table. -/
def alignCpu (path : Path) (text : List Char) :
    Except Error (Nat × List (UInt32 × Float) × Table) := do
  let blocks := CpuBlock.ofLog text
  let rows := coupleRows blocks
  if rows.isEmpty then
    .error (.emptyInput path)
  else
    let table ← Table.withRepetitions (rows.map (·.1))
      [(Metric.cpu.valueColumn, rows.map (·.2))]
    .ok (blocks.length, rows, table)

/-- The execution times of a log and their table. -/
def alignTime (path : Path) (text : List Char) : Except Error (List Float × Table) := do
  let times ← ExecutionTime.ofLog text
  if times.isEmpty then
    .error (.emptyInput path)
  else
    let table ← Table.withRepetitions ((List.range times.length).map fun i => UInt32.ofNat (i + 1))
      [(Metric.executionTime.valueColumn, times)]
    .ok (times, table)

/-- The tables and the summary of a dataset whose logs stand in a directory;
`source` is what the summary calls it. -/
def alignDataset (files : FileTree) (layout : DatasetLayout) (dir : Path) (source : String) :
    Except Error AlignedDataset := do
  let (pairing, ram) ← alignRam (layout.ramLog dir) (← readLog files (layout.ramLog dir))
  let (blocks, rows, cpu) ← alignCpu (layout.cpuLog dir) (← readLog files (layout.cpuLog dir))
  let (times, time) ← alignTime (layout.timeLog dir) (← readLog files (layout.timeLog dir))
  let counted : DatasetSummary :=
    { DatasetSummary.empty layout.name source with
      ramPairs := pairing.pairs.length
      ramDroppedEnds := pairing.droppedEnds
      ramUnmatchedStarts := pairing.unmatchedStarts
      cpuBlocks := blocks
      cpuRows := rows.length
      executionTimes := times.length }
  .ok { ram, cpu, time, summary := ((counted.record ram).record cpu).record time }

/-- The timeline in a log of preprocessing. -/
def readTimeline (files : FileTree) (p : Path) : Except Error Table := do
  timelineTable p (← readLog files p)

end BenchLog
