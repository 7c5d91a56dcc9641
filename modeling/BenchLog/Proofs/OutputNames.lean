/-
# The names of a run's files

A file of a run is one of a few kinds: a table or a chart of a dataset, of a
timeline or of a comparison, or the summary. Its kind says in which directory it
stands and how its name ends, and no ending is the end of another one. So the name
of a file tells its dataset and its kind, whatever the dataset is called, and
within one layout no two files of the plan have the same name.

Key definitions: `OutputKind`, `OutputKind.ending`, `Config.output`,
`CategoryLayout.labels`, `CategoryLayout.reportLabels`.
Key theorems: `OutputKind.append_ending_inj`, `Config.categoryOutputs_eq`,
`Config.plannedOutputs_perm_of_some`, `CategoryLayout.nodup_reportLabels`,
`Config.nodup_locate_iff`.
-/
import Mathlib.Data.List.Nodup
import BenchLog.Proofs.Places
import BenchLog.Proofs.RunOutputs

namespace BenchLog

/-! ### Kinds -/

/-- What a file of a run shows, apart from the dataset that it is about. -/
inductive OutputKind where
  | table (m : Metric)
  | ramChart
  | timelineTable
  | timelineChart
  | merged (m : Metric)
  | comparison (m : Metric)
  | summary
  deriving DecidableEq

namespace OutputKind

/-- How the name of a file ends; in front of it stands the name of the dataset, if it is
about one. -/
def ending : OutputKind → String
  | table m => "_" ++ (m.stem ++ ".csv")
  | ramChart => "_" ++ "ram.png"
  | timelineTable => "preprocessing_timeline.csv"
  | timelineChart => "preprocessing_timeline.png"
  | merged m => "_" ++ (m.stem ++ "_merged.csv")
  | comparison m => "_" ++ (m.stem ++ "_comparison.png")
  | summary => "summary.json"

/-- The kinds of files that are made of one dataset. -/
def ofDataset : List OutputKind :=
  Metric.all.map .table ++ [.ramChart]

/-- The kinds of files that are made of a timeline. -/
def ofTimeline : List OutputKind :=
  [.timelineTable, .timelineChart]

/-- The kinds of files that compare one dataset. -/
def ofComparison : List OutputKind :=
  Metric.all.flatMap fun m => [.merged m, .comparison m]

/-- All kinds. -/
def all : List OutputKind :=
  ofDataset ++ ofTimeline ++ ofComparison ++ [.summary]

theorem mem_all (k : OutputKind) : k ∈ all := by
  cases k with
  | table m | merged m | comparison m => cases m <;> decide
  | ramChart | timelineTable | timelineChart | summary => decide

/-- No ending is the end of another one. -/
theorem eq_of_ending_suffix {k k' : OutputKind} (h : k.ending.toList <:+ k'.ending.toList) :
    k = k' := by
  have hall : ∀ k ∈ all, ∀ k' ∈ all, k.ending.toList <:+ k'.ending.toList → k = k' := by decide
  exact hall k k.mem_all k' k'.mem_all h

/-- An ending tells the kind and what stands in front of it. -/
theorem append_ending_inj {name name' : String} {k k' : OutputKind}
    (h : name ++ k.ending = name' ++ k'.ending) : name = name' ∧ k = k' := by
  have hlist := congrArg String.toList h
  rw [String.toList_append, String.toList_append] at hlist
  have hkind : k = k' := by
    have hsuffix : k.ending.toList <:+ name'.toList ++ k'.ending.toList :=
      hlist ▸ List.suffix_append _ _
    rcases List.suffix_or_suffix_of_suffix hsuffix (List.suffix_append _ _) with h | h
    · exact eq_of_ending_suffix h
    · exact (eq_of_ending_suffix h).symm
  subst hkind
  exact ⟨String.toList_inj.mp (List.append_cancel_right hlist), rfl⟩

theorem isStep_append_ending {name : String} (h : '/' ∉ name.toList) (k : OutputKind) :
    Path.IsStep (name ++ k.ending) := by
  have hall : ∀ k ∈ all, '/' ∉ k.ending.toList ∧ 3 ≤ k.ending.length := by decide
  obtain ⟨hslash, hlong⟩ := hall k k.mem_all
  exact Path.isStep_append h hslash hlong

end OutputKind

/-! ### The plan by names and kinds -/

/-- The names of a layout's datasets, each with the given kinds. -/
def CategoryLayout.labelled (l : CategoryLayout) (kinds : List OutputKind) :
    List (String × OutputKind) :=
  l.datasets.map (·.name) ×ˢ kinds

/-- The files of a category: those of its datasets, and the timeline if there is one. -/
def CategoryLayout.labels (l : CategoryLayout) (hasTimeline : Bool) : List (String × OutputKind) :=
  l.labelled OutputKind.ofDataset ++ if hasTimeline then OutputKind.ofTimeline.map (Prod.mk "") else []

/-- The files of a run under its own layout: those of the category, the comparisons if
there are any, and the summary. -/
def CategoryLayout.reportLabels (l : CategoryLayout) (hasTimeline compares : Bool) :
    List (String × OutputKind) :=
  l.labels hasTimeline ++ (if compares then l.labelled OutputKind.ofComparison else []) ++ [("", .summary)]

namespace Config

variable {config : Config} {category sequentialCategory : Category} {l k : CategoryLayout}
  {hasTimeline : Category → Bool}

/-- Where the files of a kind go. -/
def directory (config : Config) (l : CategoryLayout) : OutputKind → Path
  | .table _ | .timelineTable | .summary => config.tables l
  | .ramChart | .timelineChart | .comparison _ => config.plots l
  | .merged _ => (config.tables l).join ⟨"comparison"⟩

/-- The path of a file by its dataset and kind. -/
def output (config : Config) (l : CategoryLayout) (x : String × OutputKind) : Path :=
  (config.directory l x.2).join ⟨x.1 ++ x.2.ending⟩

theorem datasetOutputs_eq (config : Config) (l : CategoryLayout) (d : DatasetLayout) :
    datasetOutputs (config.tables l) (config.plots l) d =
      OutputKind.ofDataset.map fun k => config.output l (d.name, k) := by
  simp only [datasetOutputs, artifact, OutputKind.ofDataset, List.map_append, List.map_map,
    Function.comp_def, List.map_cons, List.map_nil, output, directory, OutputKind.ending,
    String.append_assoc]

theorem output_plain (config : Config) (l : CategoryLayout) (k : OutputKind) :
    config.output l ("", k) = (config.directory l k).join ⟨k.ending⟩ := by
  rw [output, String.empty_append]

theorem timelineOutputs_eq (config : Config) (l : CategoryLayout) :
    timelineOutputs (config.tables l) (config.plots l) =
      (OutputKind.ofTimeline.map (Prod.mk "")).map (config.output l) := by
  simp only [timelineOutputs, OutputKind.ofTimeline, List.map_cons, List.map_nil, output_plain,
    directory, OutputKind.ending]

theorem datasetComparisons_eq (config : Config) (l : CategoryLayout) (name : String) :
    config.datasetComparisons l name =
      OutputKind.ofComparison.map fun k => config.output l (name, k) := by
  rw [OutputKind.ofComparison, List.map_flatMap]
  refine List.flatMap_congr fun m _ => ?_
  simp only [metricComparison, comparisonOutputs, artifact, List.map_cons, List.map_nil, output,
    directory, OutputKind.ending, String.append_assoc]

theorem summaryPath_eq (config : Config) (l : CategoryLayout) :
    config.summaryPath l = config.output l ("", .summary) := by
  rw [output_plain, summaryPath, directory, OutputKind.ending]

/-- The paths of labelled datasets, dataset by dataset. -/
theorem map_labelled (config : Config) (l : CategoryLayout) (kinds : List OutputKind) :
    (l.labelled kinds).map (config.output l) =
      l.datasets.flatMap fun d => kinds.map fun k => config.output l (d.name, k) := by
  have hproduct : l.labelled kinds =
      (l.datasets.map (·.name)).flatMap fun name => kinds.map (Prod.mk name) := rfl
  rw [hproduct, List.map_flatMap, List.flatMap_map]
  exact List.flatMap_congr fun d _ => List.map_map

theorem categoryOutputs_eq (config : Config) (l : CategoryLayout) (hasTimeline : Bool) :
    config.categoryOutputs l hasTimeline = (l.labels hasTimeline).map (config.output l) := by
  rw [categoryOutputs, CategoryLayout.labels, List.map_append, map_labelled]
  have hdatasets : datasetOutputs (config.tables l) (config.plots l) =
      fun d => OutputKind.ofDataset.map fun k => config.output l (d.name, k) :=
    funext fun d => config.datasetOutputs_eq l d
  rw [hdatasets, timelineOutputs_eq]
  cases hasTimeline <;> rfl

theorem comparedOutputs_eq (config : Config) (l : CategoryLayout) :
    config.comparedOutputs l = (l.labelled OutputKind.ofComparison).map (config.output l) := by
  rw [comparedOutputs, map_labelled]
  simp only [datasetComparisons_eq]

/-- The plan of a run without a counterpart. -/
theorem plannedOutputs_of_none (hl : config.layout category = .ok l)
    (hc : category.counterpart? = none) :
    config.plannedOutputs category hasTimeline =
      (l.reportLabels (hasTimeline category) false).map (config.output l) := by
  rw [plannedOutputs, bodyOutputs_of_none hl hc, hl]
  simp only [CategoryLayout.reportLabels, categoryOutputs_eq, summaryPath_eq, List.map_append,
    Bool.false_eq_true, if_false, List.append_nil, List.map_cons, List.map_nil]

/-- The plan of a run with a counterpart, but for the order. -/
theorem plannedOutputs_perm_of_some (hl : config.layout category = .ok l)
    (hc : category.counterpart? = some sequentialCategory)
    (hk : config.layout sequentialCategory = .ok k) :
    (config.plannedOutputs category hasTimeline).Perm
      ((l.reportLabels (hasTimeline category) true).map (config.output l) ++
        (k.labels (hasTimeline sequentialCategory)).map (config.output k)) := by
  rw [plannedOutputs, bodyOutputs_of_some hl hc hk, hl]
  simp only [CategoryLayout.reportLabels, categoryOutputs_eq, comparedOutputs_eq, summaryPath_eq,
    if_true, List.map_append, List.append_assoc, List.map_cons, List.map_nil]
  refine List.Perm.append_left _ ?_
  rw [← List.append_assoc (List.map (config.output l) _) [_]]
  exact List.perm_append_comm

end Config

/-! ### Different files of one layout -/

namespace CategoryLayout

variable {l : CategoryLayout} {kinds : List OutputKind} {x : String × OutputKind}
  {hasTimeline compares : Bool}

theorem mem_labelled_iff :
    x ∈ l.labelled kinds ↔ (∃ d ∈ l.datasets, d.name = x.1) ∧ x.2 ∈ kinds := by
  obtain ⟨name, kind⟩ := x
  exact List.pair_mem_product.trans (and_congr_left fun _ => List.mem_map)

/-- What the timeline adds has the kinds of a timeline and no dataset. -/
theorem mem_timeline_iff :
    x ∈ (if hasTimeline then OutputKind.ofTimeline.map (Prod.mk "") else []) ↔
      hasTimeline = true ∧ x.1 = "" ∧ x.2 ∈ OutputKind.ofTimeline := by
  obtain ⟨name, kind⟩ := x
  cases hasTimeline <;> simp [eq_comm, and_comm]

theorem nodup_labelled (hnames : (l.datasets.map (·.name)).Nodup) (hkinds : kinds.Nodup) :
    (l.labelled kinds).Nodup :=
  hnames.product hkinds

theorem kind_of_mem_labels (h : x ∈ l.labels hasTimeline) :
    x.2 ∈ OutputKind.ofDataset ++ OutputKind.ofTimeline := by
  rcases List.mem_append.mp h with h | h
  · exact List.mem_append_left _ (mem_labelled_iff.mp h).2
  · exact List.mem_append_right _ (mem_timeline_iff.mp h).2.2

/-- Lists of labels of different kinds have nothing in common. -/
theorem disjoint_of_kinds {xs ys : List (String × OutputKind)} {kinds kinds' : List OutputKind}
    (hxs : ∀ x ∈ xs, x.2 ∈ kinds) (hys : ∀ y ∈ ys, y.2 ∈ kinds') (h : ∀ k ∈ kinds, k ∉ kinds') :
    xs.Disjoint ys :=
  fun x hx hy => h x.2 (hxs x hx) (hys x hy)

theorem nodup_labels (hnames : (l.datasets.map (·.name)).Nodup) :
    (l.labels hasTimeline).Nodup := by
  refine (nodup_labelled hnames (by decide)).append ?_ ?_
  · cases hasTimeline <;> decide
  · exact disjoint_of_kinds (fun x hx => (mem_labelled_iff.mp hx).2)
      (fun x hx => (mem_timeline_iff.mp hx).2.2) (by decide)

/-- No dataset and kind occurs twice under one layout. -/
theorem nodup_reportLabels (hnames : (l.datasets.map (·.name)).Nodup) :
    (l.reportLabels hasTimeline compares).Nodup := by
  have hcompared : ∀ x ∈ (if compares then l.labelled OutputKind.ofComparison else []),
      x.2 ∈ OutputKind.ofComparison := by
    intro x hx
    split at hx
    · exact (mem_labelled_iff.mp hx).2
    · cases hx
  refine ((nodup_labels hnames).append ?_ ?_).append (List.nodup_singleton _) ?_
  · split
    · exact nodup_labelled hnames (by decide)
    · exact List.nodup_nil
  · exact disjoint_of_kinds (fun x hx => kind_of_mem_labels hx) hcompared (by decide)
  · have hkinds : ∀ k ∈ OutputKind.ofDataset ++ OutputKind.ofTimeline ++ OutputKind.ofComparison,
        k ∉ [OutputKind.summary] := by decide
    refine disjoint_of_kinds (fun x hx => ?_) (by simp) hkinds
    exact List.mem_append.mpr ((List.mem_append.mp hx).imp kind_of_mem_labels (hcompared x))

/-- A label of a layout names one of its datasets, or none. -/
theorem name_of_mem_labels (h : x ∈ l.labels hasTimeline) :
    (∃ d ∈ l.datasets, d.name = x.1) ∨ x.1 = "" := by
  rcases List.mem_append.mp h with h | h
  · exact .inl (mem_labelled_iff.mp h).1
  · exact .inr (mem_timeline_iff.mp h).2.1

theorem name_of_mem_reportLabels (h : x ∈ l.reportLabels hasTimeline compares) :
    (∃ d ∈ l.datasets, d.name = x.1) ∨ x.1 = "" := by
  rcases List.mem_append.mp h with h | h
  · rcases List.mem_append.mp h with h | h
    · exact name_of_mem_labels h
    · split at h
      · exact .inl (mem_labelled_iff.mp h).1
      · cases h
  · rw [List.mem_singleton.mp h]
    exact .inr rfl

end CategoryLayout

/-! ### Places of files -/

namespace Config

variable {config : Config} {l k : CategoryLayout} {u : FileTree}

theorem directory_text_ne (hl : l.folder ≠ "") (kind : OutputKind) :
    (config.directory l kind).text ≠ "" := by
  have htables : (config.tables l).text ≠ "" := Path.join_text_ne hl
  have hplots : (config.plots l).text ≠ "" := Path.join_text_ne hl
  cases kind with
  | table m | timelineTable | summary => exact htables
  | ramChart | timelineChart | comparison m => exact hplots
  | merged m => exact Path.join_text_ne (by decide)

/-- Two files of a run are at one place if they have one dataset and one kind, and their
directories are at one place. -/
theorem locate_output_eq_iff (hl : l.folder ≠ "") (hk : k.folder ≠ "") {x y : String × OutputKind}
    (hx : '/' ∉ x.1.toList) (hy : '/' ∉ y.1.toList)
    (hlocated : ∃ place, u.locate (config.output l x) = .ok place)
    (hlocated' : ∃ place, u.locate (config.output k y) = .ok place) :
    u.locate (config.output l x) = u.locate (config.output k y) ↔
      x = y ∧ u.locate (config.directory l x.2) = u.locate (config.directory k x.2) := by
  obtain ⟨place, hplace⟩ := hlocated
  obtain ⟨place', hplace'⟩ := hlocated'
  have hplaces := FileTree.locate_join_eq_iff (directory_text_ne hl x.2) (directory_text_ne hk y.2)
    (OutputKind.isStep_append_ending hx x.2) (OutputKind.isStep_append_ending hy y.2) hplace hplace'
  rw [hplace, hplace', Except.ok.injEq, hplaces]
  constructor
  · rintro ⟨hname, hdirectory⟩
    obtain ⟨hdataset, hkind⟩ := OutputKind.append_ending_inj hname
    rw [← hkind] at hdirectory
    exact ⟨Prod.ext hdataset hkind, hdirectory⟩
  · rintro ⟨rfl, hdirectory⟩
    exact ⟨rfl, hdirectory⟩

/-- Different files of one layout are at different places. -/
theorem nodup_locate_map (hl : l.folder ≠ "") {xs : List (String × OutputKind)} (hxs : xs.Nodup)
    (hnames : ∀ x ∈ xs, '/' ∉ x.1.toList)
    (hlocated : ∀ x ∈ xs, ∃ place, u.locate (config.output l x) = .ok place) :
    ((xs.map (config.output l)).map u.locate).Nodup := by
  rw [List.map_map]
  refine hxs.map_on fun x hx y hy he => ?_
  exact ((locate_output_eq_iff hl hl (hnames x hx) (hnames y hy) (hlocated x hx)
    (hlocated y hy)).mp he).1

/-- Files of two layouts are at different places if those of one dataset and kind are in
different directories. -/
theorem nodup_locate_iff (hl : l.folder ≠ "") (hk : k.folder ≠ "")
    {xs ys : List (String × OutputKind)} (hxs : xs.Nodup) (hys : ys.Nodup)
    (hxnames : ∀ x ∈ xs, '/' ∉ x.1.toList) (hynames : ∀ y ∈ ys, '/' ∉ y.1.toList)
    (hlocated : ∀ p ∈ xs.map (config.output l) ++ ys.map (config.output k),
      ∃ place, u.locate p = .ok place) :
    ((xs.map (config.output l) ++ ys.map (config.output k)).map u.locate).Nodup ↔
      ∀ x ∈ xs, x ∈ ys →
        u.locate (config.directory l x.2) ≠ u.locate (config.directory k x.2) := by
  have hxlocated : ∀ x ∈ xs, ∃ place, u.locate (config.output l x) = .ok place :=
    fun x hx => hlocated _ (List.mem_append_left _ (List.mem_map_of_mem hx))
  have hylocated : ∀ y ∈ ys, ∃ place, u.locate (config.output k y) = .ok place :=
    fun y hy => hlocated _ (List.mem_append_right _ (List.mem_map_of_mem hy))
  have hsame : ∀ x ∈ xs, ∀ y ∈ ys, u.locate (config.output l x) = u.locate (config.output k y) ↔
      x = y ∧ u.locate (config.directory l x.2) = u.locate (config.directory k x.2) :=
    fun x hx y hy => locate_output_eq_iff hl hk (hxnames x hx) (hynames y hy) (hxlocated x hx)
      (hylocated y hy)
  rw [List.map_append, List.nodup_append]
  constructor
  · rintro ⟨-, -, hdifferent⟩ x hx hy hdirectory
    exact hdifferent _ (List.mem_map_of_mem (List.mem_map_of_mem hx)) _
      (List.mem_map_of_mem (List.mem_map_of_mem hy)) ((hsame x hx x hy).mpr ⟨rfl, hdirectory⟩)
  · intro hdirectories
    refine ⟨nodup_locate_map hl hxs hxnames hxlocated, nodup_locate_map hk hys hynames hylocated,
      fun a ha b hb he => ?_⟩
    rw [List.map_map] at ha hb
    obtain ⟨x, hx, rfl⟩ := List.mem_map.mp ha
    obtain ⟨y, hy, rfl⟩ := List.mem_map.mp hb
    obtain ⟨rfl, hdirectory⟩ := (hsame x hx y hy).mp he
    exact hdirectories x hx hy hdirectory

/-- What is made in every category goes where its tables or its charts go. -/
theorem directory_of_mem {kind : OutputKind}
    (h : kind ∈ OutputKind.ofDataset ++ OutputKind.ofTimeline) (config : Config) :
    (∀ l, config.directory l kind = config.tables l) ∨
      ∀ l, config.directory l kind = config.plots l := by
  cases kind with
  | table m | timelineTable => exact .inl fun _ => rfl
  | ramChart | timelineChart => exact .inr fun _ => rfl
  | merged m | comparison m | summary => simp [OutputKind.ofDataset, OutputKind.ofTimeline] at h

/-- Two layouts with a dataset of one name have their files in different directories if their
tables and their charts have different ones. -/
theorem directories_ne_iff {b b' : Bool}
    (hshared : ∃ d ∈ l.datasets, ∃ d' ∈ k.datasets, d'.name = d.name) :
    (∀ x ∈ l.reportLabels b true, x ∈ k.labels b' →
        u.locate (config.directory l x.2) ≠ u.locate (config.directory k x.2)) ↔
      u.locate (config.tables l) ≠ u.locate (config.tables k) ∧
        u.locate (config.plots l) ≠ u.locate (config.plots k) := by
  obtain ⟨d, hd, d', hd', hname⟩ := hshared
  constructor
  · intro h
    have hmem : ∀ kind ∈ OutputKind.ofDataset,
        (d.name, kind) ∈ l.reportLabels b true ∧ (d.name, kind) ∈ k.labels b' := by
      refine fun kind hkind => ⟨?_, ?_⟩
      · exact List.mem_append_left _ (List.mem_append_left _ (List.mem_append_left _
          (CategoryLayout.mem_labelled_iff.mpr ⟨⟨d, hd, rfl⟩, hkind⟩)))
      · exact List.mem_append_left _ (CategoryLayout.mem_labelled_iff.mpr ⟨⟨d', hd', hname⟩, hkind⟩)
    have htable := hmem (.table .ram) (by decide)
    have hchart := hmem .ramChart (by decide)
    exact ⟨h _ htable.1 htable.2, h _ hchart.1 hchart.2⟩
  · rintro ⟨htables, hplots⟩ x - hk
    rcases directory_of_mem (CategoryLayout.kind_of_mem_labels hk) config with hdirectory | hdirectory
    · rw [hdirectory l, hdirectory k]
      exact htables
    · rw [hdirectory l, hdirectory k]
      exact hplots

end Config
end BenchLog
