/-
# Configurations

A configuration says where the logs stand, where the results go, how charts are
drawn, and which datasets each category has. It is checked before it is used:
the first thing wrong, in the order of the categories and their datasets, is
what is told.

Key definitions: `Config`, `Config.default`, `Config.check`, `Config.layout`,
`Config.inputDir`, `Config.outputDir`, `Config.plotDir`, `Config.Setting`,
`Config.build`.
Key theorems: `Config.mem_of_layout`.
-/
import BenchLog.Chart.Spec
import BenchLog.Error
import BenchLog.Layout
import BenchLog.Text.Classes

namespace BenchLog

/-- All that a run depends on apart from its logs. -/
structure Config where
  inputRoot : Path
  outputRoot : Path
  style : ChartStyle
  categories : List CategoryLayout
  deriving DecidableEq, Repr

namespace Config

/-- What holds unless configured otherwise. -/
def default : Config where
  inputRoot := ⟨"."⟩
  outputRoot := ⟨"results"⟩
  style := .scatter
  categories := Category.all.map .builtIn

/-! ### Checking -/

/-- Whether a name is empty or has blanks only. -/
def isBlankName (name : String) : Bool :=
  Text.isBlankText name.toList

/-- Checks datasets in order; `seen` are the names so far. -/
def checkDatasets (category : Category) (seen : List String) :
    List DatasetLayout → Except ConfigError Unit
  | [] => .ok ()
  | d :: ds =>
    if isBlankName d.name || isBlankName d.logPrefix then .error (.blankDataset category)
    else if seen.contains d.name then .error (.repeatedDataset d.name category)
    else checkDatasets category (d.name :: seen) ds

/-- Checks the layout of one category; `seen` are the categories so far. -/
def checkLayout (seen : List Category) (l : CategoryLayout) : Except ConfigError Unit :=
  if seen.contains l.category then .error (.repeatedCategory l.category)
  else if isBlankName l.folder then .error (.noFolder l.category)
  else if l.datasets.isEmpty then .error (.noDatasets l.category)
  else checkDatasets l.category [] l.datasets

/-- Checks layouts in order; `seen` are the categories so far. -/
def checkLayouts (seen : List Category) : List CategoryLayout → Except ConfigError Unit
  | [] => .ok ()
  | l :: ls => do
    checkLayout seen l
    checkLayouts (l.category :: seen) ls

/-- What is wrong with a configuration, if anything. -/
def check (c : Config) : Except ConfigError Unit :=
  checkLayouts [] c.categories

/-- The configuration itself if nothing is wrong with it. -/
def checked (c : Config) : Except Error Config :=
  match c.check with
  | .ok () => .ok c
  | .error e => .error (.config e)

/-! ### Directories -/

/-- The layout of a category. -/
def layout (c : Config) (category : Category) : Except Error CategoryLayout :=
  match c.categories.find? (·.category == category) with
  | some l => .ok l
  | none => .error (.config (.notConfigured category))

/-- Where the logs of a category stand. -/
def inputDir (c : Config) (category : Category) : Except Error Path := do
  return c.inputRoot.join ⟨(← c.layout category).folder⟩

/-- Where the tables of a category go. -/
def outputDir (c : Config) (category : Category) : Except Error Path := do
  return c.outputRoot.join ⟨(← c.layout category).folder⟩

/-- Where the charts of a category go. -/
def plotDir (c : Config) (category : Category) : Except Error Path := do
  return (c.outputRoot.join ⟨"plots"⟩).join ⟨(← c.layout category).folder⟩

theorem mem_of_layout {c : Config} {category : Category} {l : CategoryLayout}
    (h : c.layout category = .ok l) : l ∈ c.categories := by
  unfold layout at h
  split at h
  · rename_i k hk
    cases h
    exact List.mem_of_find?_eq_some hk
  · cases h

/-! ### Building -/

/-- One choice that differs from the default. -/
inductive Setting where
  | inputRoot (path : Path)
  | outputRoot (path : Path)
  | style (style : ChartStyle)
  /-- The layout takes the place of the one that its category had. -/
  | layout (layout : CategoryLayout)
  deriving DecidableEq, Repr

/-- The configuration with one choice made. -/
def set (c : Config) : Setting → Config
  | .inputRoot path => { c with inputRoot := path }
  | .outputRoot path => { c with outputRoot := path }
  | .style style => { c with style }
  | .layout l => { c with categories := c.categories.filter (·.category != l.category) ++ [l] }

/-- The configuration with choices made in order, checked. -/
def build (settings : List Setting) : Except Error Config :=
  (settings.foldl set default).checked

end Config
end BenchLog
