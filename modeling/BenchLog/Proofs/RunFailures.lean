/-
# Where a run fails

A failing step writes nothing, and no step behind it is taken. So where the tables of a metric
differ in size, or a dataset cannot be aligned, the run leaves the files as it found them when it
came there. What a run writes ends otherwise than its logs do, so logs keep their content.

Key definitions: `Config.ComesToDataset`, `Config.ComesToMetric`, `logEndings`, `Path.IsOutput`.
Key theorems: `run_of_alignDataset_eq_error`, `run_of_rows_ne`,
`FileTree.Evolves.content?_eq_of_log`.
-/
import BenchLog.Proofs.RunOutputs

namespace BenchLog

/-! ### Errors are passed on -/

namespace FileTask

variable {f : α → FileTask β} {t u v : FileTree} {a : α} {e : Error}

/-- A repeated task ends with the first member that fails. -/
theorem mapM_of_error {front : List α} {bs : List β} (hfront : front.mapM f t = (.ok bs, u))
    (ha : f a u = (.error e, v)) (back : List α) :
    (front ++ a :: back).mapM f t = (.error e, v) := by
  induction front generalizing t bs with
  | nil =>
    rw [List.mapM_nil] at hfront
    cases hfront
    rw [List.nil_append, List.mapM_cons]
    exact bind_of_error ha
  | cons a' front ih =>
    rw [List.mapM_cons] at hfront
    obtain ⟨b', t', hb', hrest⟩ := exists_of_bind_ok hfront
    obtain ⟨bs', u', hbs', hpure⟩ := exists_of_bind_ok hrest
    cases hpure
    rw [List.cons_append, List.mapM_cons, bind_of_ok hb']
    exact bind_of_error (ih hbs')

end FileTask

/-! ### Datasets that cannot be aligned -/

namespace Config

/-- A run comes to a category: to its own, and then to its counterpart. -/
inductive ComesToCategory (config : Config) (category : Category) (t : FileTree) :
    Category → FileTree → Prop
  | own : ComesToCategory config category t category t
  | counterpart {c : Category} {own : ProcessedCategory} {u : FileTree} :
      category.counterpart? = some c → processCategory config category t = (.ok own, u) →
        ComesToCategory config category t c u

/-- A run comes to a dataset: those in front of it in its layout were processed. -/
inductive ComesToDataset (config : Config) (category : Category) (t : FileTree) :
    CategoryLayout → DatasetLayout → FileTree → Prop
  | intro {c : Category} {l : CategoryLayout} {front back : List DatasetLayout} {d : DatasetLayout}
      {u v : FileTree} {done : List ProcessedDataset} :
      ComesToCategory config category t c u → config.layout c = .ok l →
        l.datasets = front ++ d :: back →
          front.mapM (processDataset l.folder (config.logs l) (config.tables l) (config.plots l)
            config.style) u = (.ok done, v) → ComesToDataset config category t l d v

/-- A run comes to a metric of two datasets: both categories were processed, and the
datasets and the metrics in front of it were compared. -/
inductive ComesToMetric (config : Config) (category : Category) (t : FileTree) :
    ProcessedDataset → ProcessedDataset → Metric → FileTree → Prop
  | intro {c : Category} {l : CategoryLayout} {own sequential : ProcessedCategory}
      {front back : List ProcessedDataset} {s d : ProcessedDataset} {ms ms' : List Metric}
      {m : Metric} {u v w x : FileTree} {done made : List (List Path)} :
      config.layout category = .ok l → category.counterpart? = some c →
        processCategory config category t = (.ok own, u) →
        processCategory config c u = (.ok sequential, v) → own.datasets = front ++ d :: back →
          front.mapM (compareProcessed config category c sequential.datasets
            ((config.tables l).join ⟨"comparison"⟩) (config.plots l)) v = (.ok done, w) →
          sequential.datasets.find? (·.name == d.name) = some s → Metric.all = ms ++ m :: ms' →
            ms.mapM (compareMetric d.name s.data d.data ((config.tables l).join ⟨"comparison"⟩)
              (config.plots l) config.style) w = (.ok made, x) →
              ComesToMetric config category t s d m x

end Config

section Run

variable {config : Config} {category c : Category} {l : CategoryLayout} {t u v : FileTree}
  {e : Error}

theorem run_of_processCategory_eq_error (h : config.ComesToCategory category t c u)
    (he : processCategory config c u = (.error e, v)) (now : Instant) :
    run config category now t = (.error e, v) := by
  cases h with
  | own => exact FileTask.bind_of_error he
  | counterpart hc hown =>
    rw [run, FileTask.bind_of_ok hown, hc]
    exact FileTask.bind_of_error (FileTask.bind_of_error he)

/-- If a dataset cannot be aligned, the run leaves the files as they are. -/
theorem run_of_alignDataset_eq_error {d : DatasetLayout}
    (h : config.ComesToDataset category t l d u)
    (he : alignDataset u d (config.logs l) l.folder = .error e) (now : Instant) :
    run config category now t = (.error e, u) := by
  obtain ⟨hcategory, hl, hd, hdone⟩ := h
  have hdataset : processDataset l.folder (config.logs l) (config.tables l) (config.plots l)
      config.style d u = (.error e, u) := by
    refine FileTask.bind_of_error ?_
    rw [he]
  refine run_of_processCategory_eq_error hcategory ?_ now
  rw [processCategory_eq hl, hd]
  exact FileTask.bind_of_error (FileTask.mapM_of_error hdone hdataset _)

/-! ### Tables that differ in size -/

theorem fits_of_processCategory {r : ProcessedCategory}
    (h : processCategory config c t = (.ok r, u)) {d : ProcessedDataset} (hd : d ∈ r.datasets)
    (m : Metric) : (d.data.table m).Fits m := by
  obtain ⟨l, hl⟩ := exists_layout_of_processCategory h
  obtain ⟨_, -, hof⟩ := isOf_of_processCategory hl h
  exact fits_of_mem hof.datasets hd m

/-- If the tables of a metric differ in size, the run leaves the files as they are. -/
theorem run_of_rows_ne {s d : ProcessedDataset} {m : Metric}
    (h : config.ComesToMetric category t s d m u)
    (hrows : (s.data.table m).rows ≠ (d.data.table m).rows) (now : Instant) :
    run config category now t =
      (.error (.rowCountMismatch (s.data.table m).rows (d.data.table m).rows), u) := by
  obtain ⟨hl, hc, hown, hsequential, hd, hdone, hs, hsplit, hmade⟩ := h
  rename_i c l own sequential front back ms ms' u₁ v₁ w₁ done made
  have hfits := fits_of_processCategory hsequential (List.mem_of_find?_eq_some hs) m
  have hmetric : compareMetric d.name s.data d.data ((config.tables l).join ⟨"comparison"⟩)
      (config.plots l) config.style m u =
        (.error (.rowCountMismatch (s.data.table m).rows (d.data.table m).rows), u) := by
    refine FileTask.bind_of_error ?_
    rw [FileTask.ofExcept, mergeMetric_of_rows_ne hfits hrows]
  have hdataset : compareProcessed config category c sequential.datasets
      ((config.tables l).join ⟨"comparison"⟩) (config.plots l) d w₁ =
        (.error (.rowCountMismatch (s.data.table m).rows (d.data.table m).rows), u) := by
    unfold compareProcessed compareDataset
    rw [hs, hsplit]
    exact FileTask.bind_of_error (FileTask.mapM_of_error hmade hmetric ms')
  have hall := FileTask.mapM_of_error hdone hdataset back
  rw [run, FileTask.bind_of_ok hown, hc]
  refine FileTask.bind_of_error ?_
  rw [processCounterpart_eq hl, FileTask.bind_of_ok hsequential, hd]
  exact FileTask.bind_of_error hall

end Run

/-! ### Logs -/

/-- How the names of logs end. -/
def logEndings : List String :=
  ["_ram_usage.txt", "_cpu_usage.txt", "_execution_time.txt", "preprocessing.log"]

/-- Logs end otherwise than what a run writes. -/
theorem not_suffix_of_mem_logEndings {ending : String} (h : ending ∈ logEndings) {name : List Char}
    (hname : ending.toList <:+ name) :
    ¬".csv".toList <:+ name ∧ ¬".png".toList <:+ name ∧ ¬".json".toList <:+ name := by
  simp only [logEndings, List.mem_cons, List.not_mem_nil, or_false] at h
  rcases h with rfl | rfl | rfl | rfl
  all_goals
    refine ⟨not_suffix_of_suffix hname ?_ ?_, not_suffix_of_suffix hname ?_ ?_,
      not_suffix_of_suffix hname ?_ ?_⟩
    all_goals decide

theorem nameEnds_summaryPath (config : Config) (l : CategoryLayout) :
    (config.summaryPath l).NameEnds ".json".toList := by
  have hname : "summary.json".toList = "summary".toList ++ ".json".toList := rfl
  exact Path.nameEnds_join (config.tables l) hname (by simp)

/-- A path of a file that a run writes: a table, a picture or a summary. -/
def Path.IsOutput (p : Path) : Prop :=
  p.IsArtifact ∨ p.NameEnds ".json".toList

/-- A log keeps its content where outputs are written. -/
theorem FileTree.Evolves.content?_eq_of_log {t u : FileTree} {ps : List Path}
    (h : t.Evolves ps u) (hps : ∀ p ∈ ps, p.IsOutput) {ending : String}
    (hending : ending ∈ logEndings) {name : String} (hname : ending.toList <:+ name.toList)
    (rest : Location) : u.content? (name :: rest) = t.content? (name :: rest) := by
  obtain ⟨hcsv, hpng, hjson⟩ := not_suffix_of_mem_logEndings hending hname
  refine h.content?_eq_of_name fun p hp => ?_
  rcases hps p hp with (hends | hends) | hends
  · exact ⟨_, hends, by simp, hcsv⟩
  · exact ⟨_, hends, by simp, hpng⟩
  · exact ⟨_, hends, by simp, hjson⟩

end BenchLog
