/-
# Comparing a sequential and a parallel dataset

The tables of a metric are merged row by row; they need the same number of
rows. The merged table is written, and the chart is drawn from the written file.

Key definitions: `mergeMetric`, `comparisonChart`, `compareMetric`,
`compareDataset`.
-/
import BenchLog.Report.Artifacts

namespace BenchLog

/-- The sequential and the parallel values of a metric side by side. -/
def mergeMetric (sequential parallel : AlignedDataset) (m : Metric) : Except Error Table := do
  let values ← (sequential.table m).select [Table.repetitionName, m.valueColumn]
  let values ← values.rename m.valueColumn m.sequentialColumn
  values.merge (parallel.table m) m.valueColumn m.parallelColumn

/-- The chart that compares a metric. -/
def comparisonChart (name : String) (m : Metric) : ChartSpec :=
  .comparison s!"{m.title}: {name}, sequential vs. parallel" m.axisText m.sequentialColumn
    m.parallelColumn

/-- Merges, writes and draws one metric, and gives the paths. -/
def compareMetric (name : String) (sequential parallel : AlignedDataset) (dir plots : Path)
    (style : ChartStyle) (m : Metric) : FileTask (List Path) := do
  let merged ← FileTask.ofExcept (mergeMetric sequential parallel m)
  let csv := artifact dir name (m.stem ++ "_merged.csv")
  merged.save csv
  let chart := artifact plots name (m.stem ++ "_comparison.png")
  renderFile csv (comparisonChart name m) style chart
  return [csv, chart]

/-- Compares all metrics of a dataset, and gives the paths. -/
def compareDataset (name : String) (sequential parallel : AlignedDataset) (dir plots : Path)
    (style : ChartStyle) : FileTask (List Path) := do
  return (← Metric.all.mapM (compareMetric name sequential parallel dir plots style)).flatten

end BenchLog
