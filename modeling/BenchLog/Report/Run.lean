/-
# A run

A run processes one category: every dataset is aligned, written and drawn, and
then the timeline, if the folder has a log of it. For a parallel category the
sequential counterpart is processed the same way, and each dataset is compared
with the sequential dataset of its name. The summary comes last and lists
itself. A failure ends the run where it stands; what has been written stays.

Key definitions: `processCategory`, `processCounterpart`, `run`.
-/
import BenchLog.Config.Basic
import BenchLog.Report.Comparison
import BenchLog.Summary.Json

namespace BenchLog

/-- The log of preprocessing in the folder of a category. -/
def timelineLog : Path := ⟨"preprocessing.log"⟩

/-- A dataset of a category and the files made of it. -/
structure ProcessedDataset where
  name : String
  data : AlignedDataset
  outputs : List Path

/-- Aligns one dataset; then writes its tables and draws its memory usage. -/
def processDataset (folder : String) (input dir plots : Path) (style : ChartStyle)
    (layout : DatasetLayout) : FileTask ProcessedDataset := do
  let data ← fun files => (alignDataset files layout input folder, files)
  let tables ← writeAligned layout.name data dir
  let chart ← renderRamUsage layout.name data plots style
  return ⟨layout.name, data, tables ++ [chart]⟩

/-- The datasets of a category, and all files made in it. -/
structure ProcessedCategory where
  datasets : List ProcessedDataset
  timeline : List Path

namespace ProcessedCategory

/-- The files made in a category, in order. -/
def outputs (c : ProcessedCategory) : List Path :=
  c.datasets.flatMap (·.outputs) ++ c.timeline

/-- The summaries of a category's datasets. -/
def summaries (c : ProcessedCategory) : List DatasetSummary :=
  c.datasets.map (·.data.summary)

end ProcessedCategory

/-- Writes and draws the timeline if there is a log of it. -/
def processTimeline (input dir plots : Path) : FileTask (List Path) := do
  let log := input.join timelineLog
  if (← get).contains log then
    writeTimeline log dir plots
  else
    return []

/-- Processes the datasets and the timeline of a category. -/
def processCategory (config : Config) (category : Category) : FileTask ProcessedCategory := do
  let layout ← FileTask.ofExcept (config.layout category)
  let input ← FileTask.ofExcept (config.inputDir category)
  let dir ← FileTask.ofExcept (config.outputDir category)
  let plots ← FileTask.ofExcept (config.plotDir category)
  let datasets ← layout.datasets.mapM (processDataset layout.folder input dir plots config.style)
  let timeline ← processTimeline input dir plots
  return ⟨datasets, timeline⟩

/-- Compares a dataset with the sequential one of its name. -/
def compareProcessed (config : Config) (category sequentialCategory : Category)
    (sequential : List ProcessedDataset) (dir plots : Path) (d : ProcessedDataset) :
    FileTask (List Path) :=
  match sequential.find? (·.name == d.name) with
  | none => throw (.config (.noCounterpart d.name category sequentialCategory))
  | some s => compareDataset d.name s.data d.data dir plots config.style

/-- Processes the counterpart of a category and compares all datasets. -/
def processCounterpart (config : Config) (category sequentialCategory : Category)
    (parallel : ProcessedCategory) : FileTask (ProcessedCategory × List Path) := do
  let sequential ← processCategory config sequentialCategory
  let dir ← FileTask.ofExcept (config.outputDir category)
  let plots ← FileTask.ofExcept (config.plotDir category)
  let compared ← parallel.datasets.mapM
    (compareProcessed config category sequentialCategory sequential.datasets
      (dir.join ⟨"comparison"⟩) plots)
  return (sequential, compared.flatten)

/-- Writes the summary of a run, which lists itself. -/
def writeSummary (config : Config) (category : Category) (now : Instant)
    (datasets : List DatasetSummary) (outputs : List Path) : FileTask RunSummary := do
  let dir ← FileTask.ofExcept (config.outputDir category)
  let path := dir.join ⟨"summary.json"⟩
  let summary : RunSummary := ⟨category, now, datasets, outputs ++ [path]⟩
  summary.save path
  return summary

/-- Processes a category at an instant. -/
def run (config : Config) (category : Category) (now : Instant) : FileTask RunSummary := do
  let own ← processCategory config category
  match category.counterpart? with
  | none => writeSummary config category now own.summaries own.outputs
  | some sequentialCategory =>
    let (sequential, compared) ← processCounterpart config category sequentialCategory own
    writeSummary config category now (own.summaries ++ sequential.summaries)
      (own.outputs ++ sequential.outputs ++ compared)

end BenchLog
