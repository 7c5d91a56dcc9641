/-
# Where the logs of a dataset stand

A dataset has three logs in the folder of its category. Their names begin with
the dataset's prefix; the log of execution times may have a prefix of its own.

Key definitions: `DatasetLayout`, `DatasetLayout.ramLog`,
`DatasetLayout.cpuLog`, `DatasetLayout.timeLog`, `CategoryLayout`,
`CategoryLayout.builtIn`.
-/
import BenchLog.Category
import BenchLog.Files.Path

namespace BenchLog

/-- The names of a dataset and its logs. -/
structure DatasetLayout where
  name : String
  logPrefix : String
  /-- The prefix of the log of execution times, if it differs. -/
  timePrefix : Option String
  deriving DecidableEq, Repr

namespace DatasetLayout

/-- A dataset whose logs have its own name. -/
def named (name : String) : DatasetLayout := ⟨name, name, none⟩

/-- The log of memory usage. -/
def ramLog (d : DatasetLayout) (dir : Path) : Path :=
  dir.join ⟨d.logPrefix ++ "_ram_usage.txt"⟩

/-- The log of the processor's usage. -/
def cpuLog (d : DatasetLayout) (dir : Path) : Path :=
  dir.join ⟨d.logPrefix ++ "_cpu_usage.txt"⟩

/-- The log of execution times. -/
def timeLog (d : DatasetLayout) (dir : Path) : Path :=
  dir.join ⟨d.timePrefix.getD d.logPrefix ++ "_execution_time.txt"⟩

end DatasetLayout

/-- The folder of a category and its datasets. -/
structure CategoryLayout where
  category : Category
  folder : String
  datasets : List DatasetLayout
  deriving DecidableEq, Repr

/-- The layout of a category that is not configured otherwise. -/
def CategoryLayout.builtIn (category : Category) : CategoryLayout where
  category
  folder := category.name
  datasets :=
    match category with
    | .singlePerformance | .singlePerformanceParallel =>
      [.named "elliptic", .named "lwe", .named "lwe128"]
    | .preprocessingPerformance | .preprocessingPerformanceParallel =>
      [⟨"merkle", "merkle", some "generateMerkleProofsParallel"⟩]

end BenchLog
