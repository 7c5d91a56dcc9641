/-
# What a chart shows

A chart has one column of x values and any number of series, each a column of
y values with a label.

Key definitions: `ChartStyle`, `Series`, `ChartSpec`, `ChartSpec.comparison`,
`Drawing`.
-/
import BenchLog.Category
import BenchLog.Chart.AxisRange
import BenchLog.Table.Basic

namespace BenchLog

/-- How a series is drawn. -/
inductive ChartStyle where
  /-- A mark for each row. -/
  | scatter
  /-- Marks joined by lines. -/
  | line
  deriving DecidableEq, Repr

namespace ChartStyle

/-- The styles in their order. -/
def all : List ChartStyle := [scatter, line]

/-- The name of a style. -/
def name : ChartStyle → String
  | scatter => "scatter"
  | line => "line"

/-- The style of a name. -/
def ofName? (anyCase : Bool) (written : String) : Option ChartStyle :=
  all.find? fun s => namesMatch anyCase written s.name

end ChartStyle

/-- A column of y values and its label in the legend. -/
structure Series where
  column : String
  label : String
  deriving DecidableEq, Repr

/-- The description of a chart. -/
structure ChartSpec where
  title : String
  xColumn : String
  xText : String
  yText : String
  series : List Series
  deriving DecidableEq, Repr

/-- What repetitions are called on an axis. -/
def repetitionAxis : String := "Repetition Number"

/-- The chart that compares a sequential and a parallel column. -/
def ChartSpec.comparison (title yText sequential parallel : String) : ChartSpec where
  title
  xColumn := Table.repetitionName
  xText := repetitionAxis
  yText
  series := [⟨sequential, "Sequential"⟩, ⟨parallel, "Parallel"⟩]

/-- A chart with its values: all that its picture depends on. -/
structure Drawing where
  spec : ChartSpec
  style : ChartStyle
  xRange : AxisRange Float
  yRange : AxisRange Float
  /-- The points of each series. -/
  points : List (List (Float × Float))

/-- Width and height of every picture. -/
def Drawing.size : Nat × Nat := (1000, 600)

end BenchLog
