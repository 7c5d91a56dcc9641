/-
# The stages of a run

A run that succeeds has gone through its stages: the datasets and the timeline of a
category, the same for the counterpart, the comparisons and the summary. Each stage
follows a draft, and only whether a timeline is made depends on what is found on the way.

Key definitions: `Config.makeDatasets`, `Config.makeTimeline`, `Config.makeComparisons`.
Key theorems: `processCategory_eq_ok_iff`, `run_eq_ok_iff_of_none`,
`run_eq_ok_iff_of_some`, `makeDatasets_follows`, `makeTimeline_follows`,
`makeComparisons_follows`, `writeSummary_follows`, `FileTree.SameFile.of_evolves`.
-/
import BenchLog.Proofs.Drafts
import BenchLog.Proofs.OutputNames

namespace BenchLog

namespace Config

/-- The datasets of a layout are aligned, written and drawn. -/
def makeDatasets (config : Config) (l : CategoryLayout) : FileTask (List ProcessedDataset) :=
  l.datasets.mapM
    (processDataset l.folder (config.logs l) (config.tables l) (config.plots l) config.style)

/-- The timeline of a layout is written and drawn if its log was found. -/
def makeTimeline (config : Config) (l : CategoryLayout) (found : Bool) : FileTask (List Path) :=
  if found then writeTimeline (config.preprocessingLog l) (config.tables l) (config.plots l)
  else pure []

/-- Processed datasets of a layout are compared with sequential ones. -/
def makeComparisons (config : Config) (l : CategoryLayout) (category c : Category)
    (sequential parallel : List ProcessedDataset) : FileTask (List (List Path)) :=
  parallel.mapM (compareProcessed config category c sequential
    ((config.tables l).join ⟨"comparison"⟩) (config.plots l))

end Config

section Stages

variable {config : Config} {category c : Category} {l k : CategoryLayout} {t u : FileTree}
  {r : ProcessedCategory} {s : RunSummary} {now : Instant}

theorem processTimeline_eq_makeTimeline (config : Config) (l : CategoryLayout) (t : FileTree) :
    processTimeline (config.logs l) (config.tables l) (config.plots l) t =
      config.makeTimeline l (t.contains (config.preprocessingLog l)) t := by
  rw [processTimeline_eq, Config.makeTimeline, Config.preprocessingLog]

end Stages

/-! ### What is told of the stages -/

section Looks

variable {config : Config} {category c : Category} {l : CategoryLayout} {t : FileTree}
  {ws : List (Path × Content)}

/-- What is told of the datasets of a layout. -/
def datasetsLook (config : Config) (l : CategoryLayout) (t : FileTree) :
    Draft (List ProcessedDataset) :=
  Draft.all
    (datasetLook l.folder (config.logs l) (config.tables l) (config.plots l) config.style · t)
    l.datasets

theorem makeDatasets_follows (config : Config) (l : CategoryLayout) :
    (config.makeDatasets l).Follows (datasetsLook config l) :=
  FileTask.Follows.mapM (fun d => processDataset_follows l.folder (config.logs l)
    (config.tables l) (config.plots l) config.style d) l.datasets

theorem plans_datasetsLook (config : Config) (l : CategoryLayout) (t : FileTree) :
    (datasetsLook config l t).Plans
      (l.datasets.flatMap (datasetOutputs (config.tables l) (config.plots l))) :=
  Draft.Plans.all (fun d => plans_datasetLook l.folder (config.logs l) (config.tables l)
    (config.plots l) config.style d t) l.datasets

/-- What is told of a timeline if its log was found. -/
def foundTimelineLook (config : Config) (l : CategoryLayout) (found : Bool) (t : FileTree) :
    Draft (List Path) :=
  if found then timelineLook config l t else .ofExcept (.ok [])

theorem plans_foundTimelineLook (config : Config) (l : CategoryLayout) (found : Bool)
    (t : FileTree) : (foundTimelineLook config l found t).Plans
      (if found then timelineOutputs (config.tables l) (config.plots l) else []) := by
  cases found with
  | false => exact Draft.Plans.ofExcept _
  | true => exact (Draft.Plans.ofExcept _).andThen fun table _ => plans_timelineDraft _ _ table

theorem makeTimeline_follows (config : Config) (l : CategoryLayout) (found : Bool) :
    (config.makeTimeline l found).Follows (foundTimelineLook config l found) := by
  cases found
  · exact FileTask.Follows.pure []
  · exact writeTimeline_follows config l

/-- What is told of comparisons. -/
def comparisonsDraft (config : Config) (l : CategoryLayout) (category c : Category)
    (sequential parallel : List ProcessedDataset) : Draft (List (List Path)) :=
  Draft.all (comparisonDraft config category c sequential
    ((config.tables l).join ⟨"comparison"⟩) (config.plots l)) parallel

theorem plans_comparisonsDraft (config : Config) (l : CategoryLayout) (category c : Category)
    (sequential parallel : List ProcessedDataset) :
    (comparisonsDraft config l category c sequential parallel).Plans
      (parallel.flatMap fun d => config.datasetComparisons l d.name) :=
  Draft.Plans.all (fun _ => plans_comparisonDraft) parallel

theorem map_fst_of_comparisonsDraft {sequential parallel : List ProcessedDataset}
    {made : List (List Path)}
    (h : comparisonsDraft config l category c sequential parallel = ⟨ws, .ok made⟩) :
    ws.map (·.1) = parallel.flatMap fun d => config.datasetComparisons l d.name := by
  have hplans := plans_comparisonsDraft config l category c sequential parallel
  rw [h] at hplans
  exact hplans.map_fst made rfl

theorem makeComparisons_follows (config : Config) (l : CategoryLayout) (category c : Category)
    (sequential parallel : List ProcessedDataset) :
    (config.makeComparisons l category c sequential parallel).Follows
      fun _ => comparisonsDraft config l category c sequential parallel :=
  FileTask.Follows.mapM (fun d => compareProcessed_follows config category c sequential
    ((config.tables l).join ⟨"comparison"⟩) (config.plots l) d) parallel

/-- The summary that a run writes under a layout. -/
def Config.summaryOf (config : Config) (l : CategoryLayout) (category : Category) (now : Instant)
    (datasets : List DatasetSummary) (outputs : List Path) : RunSummary :=
  ⟨category, now, datasets, outputs ++ [config.summaryPath l]⟩

/-- The summary of a run, which is saved as it is given. -/
def summaryDraft (config : Config) (l : CategoryLayout) (category : Category) (now : Instant)
    (datasets : List DatasetSummary) (outputs : List Path) : Draft RunSummary :=
  ⟨[(config.summaryPath l, .text (config.summaryOf l category now datasets outputs).text)],
    .ok (config.summaryOf l category now datasets outputs)⟩

theorem writeSummary_follows (hl : config.layout category = .ok l) (now : Instant)
    (datasets : List DatasetSummary) (outputs : List Path) :
    (writeSummary config category now datasets outputs).Follows fun _ =>
      summaryDraft config l category now datasets outputs := by
  refine FileTask.Follows.of_saves (writeSummary_saves hl now datasets outputs) ?_
  exact List.forall_mem_singleton.mpr (.inr (nameEnds_summaryPath config l))

theorem processTimeline_keepsLogs (config : Config) (l : CategoryLayout) :
    (processTimeline (config.logs l) (config.tables l) (config.plots l)).KeepsLogs := by
  intro t
  rw [processTimeline_eq_makeTimeline]
  exact (makeTimeline_follows config l _).keepsLogs t

theorem processCategory_keepsLogs (config : Config) (category : Category) :
    (processCategory config category).KeepsLogs := by
  cases hl : config.layout category with
  | error e =>
    intro t
    rw [processCategory_of_error hl]
    exact .refl t
  | ok l =>
    rw [processCategory_eq hl]
    exact (makeDatasets_follows config l).keepsLogs.bind fun _ =>
      (processTimeline_keepsLogs config l).bind fun _ => FileTask.keepsLogs_ofExcept (.ok _)

end Looks

/-! ### What later stages leave -/

section Files

variable {config : Config} {category : Category} {l k : CategoryLayout} {t u v w : FileTree}
  {x : String × OutputKind} {ps : List Path} {p : Path}

namespace FileTree

theorem SameFile.readText {text : List Char} (h : t.SameFile u p)
    (hread : t.readText p = .ok text) : u.readText p = .ok text := by
  obtain ⟨place, content, ht, hu, hct, hcu⟩ := h
  obtain ⟨place', hplace, hcontent, hending⟩ := readText_eq_ok_iff.mp hread
  rw [ht, Except.ok.injEq] at hplace
  subst hplace
  exact readText_eq_ok_iff.mpr ⟨place, hu, hcu.trans (hct.symm.trans hcontent), hending⟩

end FileTree

end Files

end BenchLog
