/-
# The files made from aligned logs

Key definitions: `artifact`, `writeAligned`, `ramChart`, `renderRamUsage`,
`timelineChart`, `writeTimeline`.
-/
import BenchLog.Alignment
import BenchLog.Chart.Render

namespace BenchLog

/-- The path of a file named for a dataset. -/
def artifact (dir : Path) (dataset ending : String) : Path :=
  dir.join ⟨dataset ++ "_" ++ ending⟩

/-- Writes the tables of a dataset, and gives their paths. -/
def writeAligned (name : String) (d : AlignedDataset) (dir : Path) : FileTask (List Path) :=
  Metric.all.mapM fun m => do
    let path := artifact dir name (m.stem ++ ".csv")
    (d.table m).save path
    return path

/-- The chart of memory usage. -/
def ramChart (name : String) : ChartSpec where
  title := s!"RAM Usage During Repetitions: {name}"
  xColumn := Table.repetitionName
  xText := repetitionAxis
  yText := Metric.ram.axisText
  series := [⟨ramStartColumn, "RAM Start (MB)"⟩, ⟨Metric.ram.valueColumn, "RAM End (MB)"⟩]

/-- Draws the memory usage of a dataset, and gives the path of the picture. -/
def renderRamUsage (name : String) (d : AlignedDataset) (dir : Path) (style : ChartStyle) :
    FileTask Path := do
  let path := artifact dir name "ram.png"
  renderTable d.ram (ramChart name) style path
  return path

/-- The chart of a timeline. -/
def timelineChart : ChartSpec where
  title := "Processing Time vs Database Size"
  xColumn := sizeColumn
  xText := "Database Size (GiB)"
  yText := "Processing Time (seconds)"
  series := [⟨processingColumn, "Processing Time"⟩]

/-- Writes and draws the timeline in a log, and gives the paths. -/
def writeTimeline (log dir plots : Path) : FileTask (List Path) := do
  let table ← fun files => (readTimeline files log, files)
  let csv := dir.join ⟨"preprocessing_timeline.csv"⟩
  table.save csv
  let chart := plots.join ⟨"preprocessing_timeline.png"⟩
  renderFile csv timelineChart .line chart
  return [csv, chart]

end BenchLog
