/-
# The metrics of a benchmark

Key definitions: `Metric`, `Metric.stem`, `Metric.valueColumn`,
`Metric.sequentialColumn`, `Metric.parallelColumn`, `Metric.axisText`,
`Metric.title`.
-/
namespace BenchLog

/-- What is measured. -/
inductive Metric where
  | ram
  | cpu
  | executionTime
  deriving DecidableEq, Repr

namespace Metric

/-- The metrics in their order. -/
def all : List Metric := [ram, cpu, executionTime]

/-- The part of a file name that stands for the metric. -/
def stem : Metric → String
  | ram => "ram"
  | cpu => "cpu"
  | executionTime => "time"

/-- The metric of a stem. -/
def ofStem? (stem : String) : Option Metric :=
  all.find? (·.stem == stem)

/-- The column of an aligned table that is compared. -/
def valueColumn : Metric → String
  | ram => "RAM_Usage_End_MB"
  | cpu => "Max_CPU_Usage_us"
  | executionTime => "Execution_Time_ms"

/-- The column of sequential values in a merged table. -/
def sequentialColumn : Metric → String
  | ram => "RAM_Usage_Sequential_MB"
  | cpu => "Max_CPU_Usage_Sequential_us"
  | executionTime => "Execution_Time_Sequential_ms"

/-- The column of parallel values in a merged table. -/
def parallelColumn : Metric → String
  | ram => "RAM_Usage_Parallel_MB"
  | cpu => "Max_CPU_Usage_Parallel_us"
  | executionTime => "Execution_Time_Parallel_ms"

/-- What the values are called on an axis. -/
def axisText : Metric → String
  | ram => "RAM Usage (MB)"
  | cpu => "CPU Usage (% us)"
  | executionTime => "Execution Time (ms)"

/-- What the metric is called in titles. -/
def title : Metric → String
  | ram => "RAM Usage"
  | cpu => "Max CPU Usage"
  | executionTime => "Execution Time"

end Metric
end BenchLog
