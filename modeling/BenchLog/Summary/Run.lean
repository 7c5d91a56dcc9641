/-
# The summary of a run

Key definitions: `RunSummary`, `RunSummary.dataset?`, `RunSummary.addDataset`,
`RunSummary.recordOutput`.
-/
import BenchLog.Calendar.Instant
import BenchLog.Summary.Dataset

namespace BenchLog

/-- What a run has made, and what it has counted. -/
structure RunSummary where
  category : Category
  generatedAt : Instant
  datasets : List DatasetSummary
  outputs : List Path

namespace RunSummary

/-- The summary of the dataset of a name in a folder. -/
def dataset? (s : RunSummary) (dataset source : String) : Option DatasetSummary :=
  s.datasets.find? fun d => d.dataset == dataset && d.source == source

/-- The summary with one more dataset. -/
def addDataset (s : RunSummary) (d : DatasetSummary) : RunSummary :=
  { s with datasets := s.datasets ++ [d] }

/-- The summary with one more path. -/
def recordOutput (s : RunSummary) (p : Path) : RunSummary :=
  { s with outputs := s.outputs ++ [p] }

end RunSummary
end BenchLog
