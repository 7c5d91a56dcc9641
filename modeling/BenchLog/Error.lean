/-
# Why a task fails

A line that no grammar knows is no failure; whatever is listed here ends the
whole task. `Error.message` is the one place where failures are put into words.

Key definitions: `ConfigError`, `Error`, `Error.message`.
-/
import BenchLog.Category
import BenchLog.Table.Kind
import BenchLog.Files.Failure
import BenchLog.Files.Path
import BenchLog.Text.Quoted

namespace BenchLog

/-- What is wrong with a configuration. -/
inductive ConfigError where
  /-- The text is no document, or does not describe a configuration. -/
  | malformed
  | repeatedCategory (category : Category)
  | noFolder (category : Category)
  | noDatasets (category : Category)
  | blankDataset (category : Category)
  | repeatedDataset (dataset : String) (category : Category)
  | notConfigured (category : Category)
  | noCounterpart (dataset : String) (category sequential : Category)
  deriving DecidableEq, Repr

/-- The axes of a chart. -/
inductive Axis where
  | x
  | y
  deriving DecidableEq, Repr

/-- Why a task fails. -/
inductive Error where
  /-- A line names an execution time that is no duration. -/
  | malformedDuration (text : List Char)
  /-- A value of the processor's usage is no number. -/
  | malformedUsage (text : List Char) (repetition : UInt32)
  | emptyCells (column : String)
  | notNumbers (column : String) (kind : Kind)
  | rowCountMismatch (left right : Nat)
  /-- The file has nothing that can be used. -/
  | emptyInput (path : Path)
  | missingColumn (name : String)
  | config (cause : ConfigError)
  /-- All values on an axis of a chart are infinite or no numbers. -/
  | noFiniteValues (title : String) (axis : Axis)
  /-- The picture cannot be put where it should go. -/
  | undrawable
  /-- A file cannot be used. Where reading a log fails, its path is known. -/
  | file (cause : FileFailure) (path : Option Path)
  /-- A text is no table, or a table would have no shape. -/
  | malformedTable
  /-- A text is no summary of a run. -/
  | malformedSummary
  deriving DecidableEq, Repr

/-- The wording of what is wrong with a configuration. -/
def ConfigError.message : ConfigError → String
  | malformed => ""
  | repeatedCategory c => s!"category {c.name} configured twice"
  | noFolder c => s!"category {c.name} has no folder"
  | noDatasets c => s!"category {c.name} has no datasets"
  | blankDataset c => s!"category {c.name} has a dataset without name or prefix"
  | repeatedDataset dataset c => s!"dataset {dataset} listed twice in {c.name}"
  | notConfigured c => s!"category {c.name} is not configured"
  | noCounterpart dataset c s => s!"dataset {dataset} of {c.name} has no counterpart in {s.name}"

/-- The name of an axis. -/
def Axis.name : Axis → String
  | x => "x"
  | y => "y"

namespace Error

/-- The wording of a failed file access, without the heading. -/
def fileDetail (cause : FileFailure) : Option Path → String
  | none => cause.message
  | some path => s!"{path.text}: {cause.message}"

/-- The wording of an error. -/
def message : Error → String
  | malformedDuration text =>
    "Format error: malformed execution time " ++ String.ofList (Text.quote text)
  | malformedUsage text repetition =>
    "Format error: CPU usage " ++ String.ofList (Text.quote text) ++
      s!" for repetition {repetition.toNat} is not a number"
  | emptyCells column => s!"Format error: column {column} contains empty cells"
  | notNumbers column kind => s!"Format error: column {column} is {kind.name}, expected numbers"
  | rowCountMismatch left right =>
    s!"Row count mismatch: first table has {left} rows, second has {right}"
  | emptyInput path => s!"Empty input: {path.text} contains no usable records"
  | missingColumn name => s!"Missing column: {name}"
  | config .malformed => "Config error"
  | config cause => s!"Config error: {cause.message}"
  | noFiniteValues title axis => s!"Plot error: {title}: no finite {axis.name} values"
  | undrawable => "Plot error"
  | file cause path => "IO error: " ++ fileDetail cause path
  | malformedTable => "Table error"
  | malformedSummary => "JSON error"

end Error
end BenchLog
