/-
# The files that a run plans to write

Which files a run writes, and in which order, follows from the configuration and
from which folders have a log of preprocessing: the tables and the chart of each
dataset, the timeline, the same for the counterpart, the comparisons metric by
metric, and the summary. Here each part of a run that succeeds is shown to write
its part of the plan.

Key definitions: `datasetOutputs`, `timelineOutputs`, `comparisonOutputs`,
`Config.categoryOutputs`, `Config.comparedOutputs`, `Config.ComparedBefore`,
`Config.bodyOutputs`, `Config.plannedOutputs`.
Key theorems: `Config.isArtifact_of_mem_bodyOutputs`, `processDataset_makes`,
`writeTimeline_makes`, `compareDataset_makes`.
-/
import BenchLog.Proofs.TaskEffects
import BenchLog.Report.Run

namespace BenchLog

/-! ### The plan -/

/-- The tables of a dataset and the chart of its memory usage. -/
def datasetOutputs (dir plots : Path) (d : DatasetLayout) : List Path :=
  Metric.all.map (fun m => artifact dir d.name (m.stem ++ ".csv")) ++
    [artifact plots d.name "ram.png"]

/-- The table and the chart of a timeline. -/
def timelineOutputs (dir plots : Path) : List Path :=
  [dir.join ⟨"preprocessing_timeline.csv"⟩, plots.join ⟨"preprocessing_timeline.png"⟩]

/-- The merged table and the chart that compare a metric. -/
def comparisonOutputs (dir plots : Path) (name : String) (m : Metric) : List Path :=
  [artifact dir name (m.stem ++ "_merged.csv"), artifact plots name (m.stem ++ "_comparison.png")]

namespace Config

/-- Where the logs of a layout stand. -/
def logs (config : Config) (l : CategoryLayout) : Path :=
  config.inputRoot.join ⟨l.folder⟩

/-- Where the tables of a layout go. -/
def tables (config : Config) (l : CategoryLayout) : Path :=
  config.outputRoot.join ⟨l.folder⟩

/-- Where the charts of a layout go. -/
def plots (config : Config) (l : CategoryLayout) : Path :=
  (config.outputRoot.join ⟨"plots"⟩).join ⟨l.folder⟩

/-- The log of preprocessing that belongs to a layout. -/
def preprocessingLog (config : Config) (l : CategoryLayout) : Path :=
  (config.logs l).join timelineLog

/-- The files of a category: those of its datasets in order, and the timeline if
there is one. -/
def categoryOutputs (config : Config) (l : CategoryLayout) (hasTimeline : Bool) : List Path :=
  l.datasets.flatMap (datasetOutputs (config.tables l) (config.plots l)) ++
    if hasTimeline then timelineOutputs (config.tables l) (config.plots l) else []

/-- The comparison of one metric of a dataset. -/
def metricComparison (config : Config) (l : CategoryLayout) (name : String) (m : Metric) :
    List Path :=
  comparisonOutputs ((config.tables l).join ⟨"comparison"⟩) (config.plots l) name m

/-- The comparisons of one dataset, metric by metric. -/
def datasetComparisons (config : Config) (l : CategoryLayout) (name : String) : List Path :=
  Metric.all.flatMap (config.metricComparison l name)

/-- The comparisons of all datasets in order. -/
def comparedOutputs (config : Config) (l : CategoryLayout) : List Path :=
  l.datasets.flatMap fun d => config.datasetComparisons l d.name

/-- The comparisons in front of one metric of one dataset, and no others. -/
def ComparedBefore (config : Config) (l : CategoryLayout) (ps : List Path) : Prop :=
  ∃ front d back ms m ms', l.datasets = front ++ d :: back ∧ Metric.all = ms ++ m :: ms' ∧
    ps = (front.flatMap fun d => config.datasetComparisons l d.name) ++
      ms.flatMap (config.metricComparison l d.name)

/-- The path of a run's summary. -/
def summaryPath (config : Config) (l : CategoryLayout) : Path :=
  (config.tables l).join ⟨"summary.json"⟩

/-- All files of a run but the summary. -/
def bodyOutputs (config : Config) (category : Category) (hasTimeline : Category → Bool) :
    List Path :=
  match config.layout category with
  | .error _ => []
  | .ok own =>
    config.categoryOutputs own (hasTimeline category) ++
      match category.counterpart? with
      | none => []
      | some c =>
        match config.layout c with
        | .error _ => []
        | .ok sequential =>
          config.categoryOutputs sequential (hasTimeline c) ++ config.comparedOutputs own

/-- All files of a run in the order in which they are written. -/
def plannedOutputs (config : Config) (category : Category) (hasTimeline : Category → Bool) :
    List Path :=
  config.bodyOutputs category hasTimeline ++
    match config.layout category with
    | .error _ => []
    | .ok own => [config.summaryPath own]

variable {config : Config} {category : Category} {l : CategoryLayout}

theorem inputDir_of_layout (h : config.layout category = .ok l) :
    config.inputDir category = .ok (config.logs l) := by
  rw [inputDir, h]
  rfl

theorem outputDir_of_layout (h : config.layout category = .ok l) :
    config.outputDir category = .ok (config.tables l) := by
  rw [outputDir, h]
  rfl

theorem plotDir_of_layout (h : config.layout category = .ok l) :
    config.plotDir category = .ok (config.plots l) := by
  rw [plotDir, h]
  rfl

end Config

/-! ### The names of planned files -/

/-- A path that ends like those of tables and pictures. -/
def Path.IsArtifact (p : Path) : Prop :=
  p.NameEnds ".csv".toList ∨ p.NameEnds ".png".toList

theorem Path.NameEnds.tail {p : Path} {c : Char} {suffix : List Char}
    (h : p.NameEnds (c :: suffix)) : p.NameEnds suffix := by
  obtain ⟨front, hfront⟩ := h
  exact ⟨front ++ [c], by rw [hfront, List.append_assoc, List.singleton_append]⟩

theorem nameEnds_artifact (dir : Path) (dataset : String) {ending : String}
    {front suffix : List Char} (hending : ending.toList = front ++ suffix) (h : '/' ∉ suffix) :
    (artifact dir dataset ending).NameEnds suffix := by
  have hname : (dataset ++ "_" ++ ending).toList = ((dataset ++ "_").toList ++ front) ++ suffix := by
    rw [String.toList_append, hending, List.append_assoc]
  exact Path.nameEnds_join dir hname h

theorem nameEnds_ramPicture (plots : Path) (name : String) :
    (artifact plots name "ram.png").NameEnds ('m' :: ".png".toList) := by
  have hending : "ram.png".toList = "ra".toList ++ 'm' :: ".png".toList := rfl
  exact nameEnds_artifact plots name hending (by simp)

theorem nameEnds_timelinePicture (plots : Path) :
    (plots.join ⟨"preprocessing_timeline.png"⟩).NameEnds ('e' :: ".png".toList) := by
  have hending : "preprocessing_timeline.png".toList =
      "preprocessing_timelin".toList ++ 'e' :: ".png".toList := rfl
  exact Path.nameEnds_join plots hending (by simp)

theorem nameEnds_comparisonPicture (plots : Path) (name : String) (m : Metric) :
    (artifact plots name (m.stem ++ "_comparison.png")).NameEnds ('n' :: ".png".toList) := by
  have hending : (m.stem ++ "_comparison.png").toList =
      (m.stem.toList ++ "_compariso".toList) ++ 'n' :: ".png".toList := by
    rw [String.toList_append, List.append_assoc]
    rfl
  exact nameEnds_artifact plots name hending (by simp)

theorem isArtifact_of_mem_datasetOutputs {dir plots p : Path} {d : DatasetLayout}
    (h : p ∈ datasetOutputs dir plots d) : p.IsArtifact := by
  rcases List.mem_append.mp h with h | h
  · obtain ⟨m, -, rfl⟩ := List.mem_map.mp h
    exact .inl (nameEnds_artifact dir d.name String.toList_append (by simp))
  · rw [List.mem_singleton.mp h]
    exact .inr (nameEnds_ramPicture plots d.name).tail

theorem isArtifact_of_mem_timelineOutputs {dir plots p : Path}
    (h : p ∈ timelineOutputs dir plots) : p.IsArtifact := by
  rcases List.mem_cons.mp h with rfl | h
  · have hending : "preprocessing_timeline.csv".toList =
        "preprocessing_timeline".toList ++ ".csv".toList := rfl
    exact .inl (Path.nameEnds_join dir hending (by simp))
  · rw [List.mem_singleton.mp h]
    exact .inr (nameEnds_timelinePicture plots).tail

theorem isArtifact_of_mem_comparisonOutputs {dir plots p : Path} {name : String} {m : Metric}
    (h : p ∈ comparisonOutputs dir plots name m) : p.IsArtifact := by
  rcases List.mem_cons.mp h with rfl | h
  · have hending : (m.stem ++ "_merged.csv").toList =
        (m.stem.toList ++ "_merged".toList) ++ ".csv".toList := by
      rw [String.toList_append, List.append_assoc]
      rfl
    exact .inl (nameEnds_artifact dir name hending (by simp))
  · rw [List.mem_singleton.mp h]
    exact .inr (nameEnds_comparisonPicture plots name m).tail

namespace Config

variable {config : Config} {category : Category} {l : CategoryLayout} {p : Path}

theorem isArtifact_of_mem_categoryOutputs {hasTimeline : Bool}
    (h : p ∈ config.categoryOutputs l hasTimeline) : p.IsArtifact := by
  rcases List.mem_append.mp h with h | h
  · obtain ⟨d, -, hd⟩ := List.mem_flatMap.mp h
    exact isArtifact_of_mem_datasetOutputs hd
  · split at h
    · exact isArtifact_of_mem_timelineOutputs h
    · cases h

theorem isArtifact_of_mem_comparedOutputs (h : p ∈ config.comparedOutputs l) : p.IsArtifact := by
  obtain ⟨d, -, hd⟩ := List.mem_flatMap.mp h
  obtain ⟨m, -, hm⟩ := List.mem_flatMap.mp hd
  exact isArtifact_of_mem_comparisonOutputs hm

/-- All files but the summary are tables and pictures. -/
theorem isArtifact_of_mem_bodyOutputs {hasTimeline : Category → Bool}
    (h : p ∈ config.bodyOutputs category hasTimeline) : p.IsArtifact := by
  unfold bodyOutputs at h
  split at h
  · cases h
  · rcases List.mem_append.mp h with h | h
    · exact isArtifact_of_mem_categoryOutputs h
    · split at h
      · cases h
      · split at h
        · cases h
        · rcases List.mem_append.mp h with h | h
          · exact isArtifact_of_mem_categoryOutputs h
          · exact isArtifact_of_mem_comparedOutputs h

end Config

/-! ### Datasets -/

theorem writeAligned_makes (name : String) (d : AlignedDataset) (dir : Path) :
    (writeAligned name d dir).Makes (Metric.all.map fun m => artifact dir name (m.stem ++ ".csv"))
      ((Metric.all.map fun m => artifact dir name (m.stem ++ ".csv")) = ·) := by
  have hsave : ∀ m ∈ Metric.all,
      FileTask.Makes (do
          let path := artifact dir name (m.stem ++ ".csv")
          (d.table m).save path
          return path)
        [artifact dir name (m.stem ++ ".csv")] (artifact dir name (m.stem ++ ".csv") = ·) :=
    fun m _ => (FileTask.save_makes _ _).bind fun _ _ => FileTask.Makes.pure rfl
  have hall := FileTask.Makes.mapM hsave
  rw [← List.map_eq_flatMap] at hall
  exact hall.mono fun ps hps => FileTask.map_eq_of_forall₂ hps

theorem renderRamUsage_makes (name : String) (d : AlignedDataset) (plots : Path)
    (style : ChartStyle) :
    (renderRamUsage name d plots style).Makes [artifact plots name "ram.png"]
      (artifact plots name "ram.png" = ·) := by
  have hpicture := hasEnding_of_nameEnds (nameEnds_ramPicture plots name)
  exact (renderTable_makes _ _ _ hpicture).bind fun _ _ => FileTask.Makes.pure rfl

/-- What is kept of a dataset: its name, its files, and tables that can be compared. -/
structure ProcessedDataset.IsOf (p : ProcessedDataset) (dir plots : Path) (l : DatasetLayout) :
    Prop where
  name : p.name = l.name
  outputs : p.outputs = datasetOutputs dir plots l
  fits : ∀ m, (p.data.table m).Fits m

theorem processDataset_makes (folder : String) (input dir plots : Path) (style : ChartStyle)
    (l : DatasetLayout) :
    (processDataset folder input dir plots style l).Makes (datasetOutputs dir plots l)
      (·.IsOf dir plots l) := by
  have halign : FileTask.Makes (fun t => (alignDataset t l input folder, t)) []
      fun d => ∀ m, (d.table m).Fits m :=
    FileTask.Makes.look fun t d hd => fits_of_alignDataset hd
  refine halign.bind fun d hd => ?_
  refine (writeAligned_makes l.name d dir).bind fun tables htables => ?_
  refine (renderRamUsage_makes l.name d plots style).bind fun chart hchart => ?_
  refine FileTask.Makes.pure ⟨rfl, ?_, hd⟩
  rw [← htables, ← hchart]
  rfl

/-! ### Timelines -/

theorem exists_content_of_readText {t : FileTree} {p : Path} {text : List Char}
    (h : t.readText p = .ok text) :
    ∃ place, t.locate p = .ok place ∧ (t.content? place).isSome := by
  obtain ⟨place, hplace, hcontent, -⟩ := FileTree.readText_eq_ok_iff.mp h
  exact ⟨place, hplace, by rw [hcontent]; rfl⟩

theorem exists_content_of_readTimeline {t : FileTree} {p : Path} {table : Table}
    (h : readTimeline t p = .ok table) :
    ∃ place, t.locate p = .ok place ∧ (t.content? place).isSome := by
  obtain ⟨text, htext, -⟩ := exists_of_bind_eq_ok h
  unfold readLog at htext
  cases hread : t.readText p with
  | error e => rw [hread] at htext; cases htext
  | ok cs => exact exists_content_of_readText hread

/-- A timeline is written and drawn. -/
theorem writeTimeline_makes (log dir plots : Path) :
    (writeTimeline log dir plots).Makes (timelineOutputs dir plots)
      (timelineOutputs dir plots = ·) := by
  have hread : FileTask.Makes (fun t => (readTimeline t log, t)) [] fun _ => True :=
    FileTask.Makes.look fun _ _ _ => trivial
  have hpicture := hasEnding_of_nameEnds (nameEnds_timelinePicture plots)
  refine hread.bind fun table _ => (FileTask.save_makes _ _).bind fun _ _ => ?_
  exact (renderFile_makes _ _ _ hpicture).bind fun _ _ => FileTask.Makes.pure rfl

/-- The log of a timeline is a file. -/
theorem exists_content_of_writeTimeline {log dir plots : Path} {t u : FileTree} {made : List Path}
    (h : writeTimeline log dir plots t = (.ok made, u)) :
    ∃ place, t.locate log = .ok place ∧ (t.content? place).isSome := by
  obtain ⟨table, v, hread, -⟩ := FileTask.exists_of_bind_ok h
  have htable : (readTimeline t log, t) = (.ok table, v) := hread
  exact exists_content_of_readTimeline (congrArg Prod.fst htable)

/-! ### Comparisons -/

/-- A metric is compared. -/
theorem compareMetric_makes (name : String) (s p : AlignedDataset) (dir plots : Path)
    (style : ChartStyle) (m : Metric) :
    (compareMetric name s p dir plots style m).Makes (comparisonOutputs dir plots name m)
      (comparisonOutputs dir plots name m = ·) := by
  have hmerge : (FileTask.ofExcept (mergeMetric s p m)).Makes [] fun _ => True :=
    FileTask.Makes.ofExcept fun _ _ => trivial
  have hpicture := hasEnding_of_nameEnds (nameEnds_comparisonPicture plots name m)
  refine hmerge.bind fun merged _ => (FileTask.save_makes _ _).bind fun _ _ => ?_
  exact (renderFile_makes _ _ _ hpicture).bind fun _ _ => FileTask.Makes.pure rfl

/-- The metrics of a dataset are compared in order. -/
theorem compareDataset_makes (name : String) (s p : AlignedDataset) (dir plots : Path)
    (style : ChartStyle) :
    (compareDataset name s p dir plots style).Makes
      (Metric.all.flatMap (comparisonOutputs dir plots name))
      (Metric.all.flatMap (comparisonOutputs dir plots name) = ·) := by
  have hall := FileTask.Makes.mapM fun m (_ : m ∈ Metric.all) =>
    compareMetric_makes name s p dir plots style m
  rw [← List.append_nil (Metric.all.flatMap _)]
  refine hall.bind fun made hmade => FileTask.Makes.pure ?_
  rw [List.append_nil, ← FileTask.map_eq_of_forall₂ hmade]
  rfl

end BenchLog
