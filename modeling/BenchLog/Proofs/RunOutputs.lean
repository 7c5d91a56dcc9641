/-
# A run writes what its summary lists

A category writes its part of the plan; so does a run, whose last file is the
summary. As nothing else is written, every file that no listed path leads to
keeps its content, and logs are never written, whatever the directories are.

Key definitions: `Config.Finds`, `Config.KnowsLog`, `Config.Completes`.
Key theorems: `isOf_of_processCategory`, `isOf_of_processCounterpart`,
`exists_of_writeSummary`, `completes_of_run`, `run_outputs`.
-/
import BenchLog.Proofs.GreedyCoupling
import BenchLog.Proofs.PlannedOutputs

namespace BenchLog

/-! ### Logs are no outputs -/

/-- What is at the end of a name is at the end of every longer ending of it. -/
theorem not_suffix_of_suffix {ending log name : List Char} (hlog : log <:+ name)
    (hlength : ending.length ≤ log.length) (h : ¬ending <:+ log) : ¬ending <:+ name :=
  fun hname => h (List.suffix_of_suffix_length_le hname hlog hlength)

/-- A file whose name is not that of a table or picture keeps its content. -/
theorem FileTree.Evolves.content?_eq_of_isArtifact {t u : FileTree} {ps : List Path}
    (h : t.Evolves ps u) (hps : ∀ p ∈ ps, p.IsArtifact) {log : List Char} (hlong : 4 ≤ log.length)
    (hcsv : ¬".csv".toList <:+ log) (hpng : ¬".png".toList <:+ log) {name : String}
    (hname : log <:+ name.toList) (rest : Location) :
    u.content? (name :: rest) = t.content? (name :: rest) := by
  refine h.content?_eq_of_name fun p hp => ?_
  rcases hps p hp with hends | hends
  · exact ⟨_, hends, by simp, not_suffix_of_suffix hname hlong hcsv⟩
  · exact ⟨_, hends, by simp, not_suffix_of_suffix hname hlong hpng⟩

theorem nameEnds_preprocessingLog (config : Config) (l : CategoryLayout) :
    (config.preprocessingLog l).NameEnds "preprocessing.log".toList := by
  have hname : "preprocessing.log".toList = [] ++ "preprocessing.log".toList := rfl
  exact Path.nameEnds_join (config.logs l) hname (by simp)

/-- The log of preprocessing keeps its content. -/
theorem FileTree.Evolves.content?_eq_of_preprocessingLog {t u v : FileTree} {ps : List Path}
    (h : t.Evolves ps u) (hps : ∀ p ∈ ps, p.IsArtifact) {config : Config} {l : CategoryLayout}
    {place : Location} (hplace : v.locate (config.preprocessingLog l) = .ok place) :
    u.content? place = t.content? place := by
  obtain ⟨front, rest, rfl⟩ := exists_of_locate hplace (nameEnds_preprocessingLog config l) (by simp)
  have hname : "preprocessing.log".toList <:+
      (String.ofList (front ++ "preprocessing.log".toList)).toList :=
    ⟨front, String.toList_ofList.symm⟩
  exact h.content?_eq_of_isArtifact hps (by simp) (by decide) (by decide) hname rest

/-! ### Categories -/

/-- Whether a run that turns one tree into another works on a log of preprocessing: it
does if the log is there at the start, and only if it is there in the end. -/
structure Config.Finds (config : Config) (t u : FileTree) (l : CategoryLayout)
    (hasTimeline : Bool) : Prop where
  of_contains : t.contains (config.preprocessingLog l) = true → hasTimeline = true
  contains : hasTimeline = true → u.contains (config.preprocessingLog l) = true

/-- What is found in between is found between the ends. -/
theorem Config.Finds.widen {config : Config} {t t' u u' : FileTree} {l : CategoryLayout}
    {hasTimeline : Bool} (h : config.Finds t' u' l hasTimeline) (ht : t.Extends t')
    (hu : u'.Extends u) : config.Finds t u l hasTimeline :=
  ⟨fun hc => h.of_contains (ht.contains hc), fun hb => hu.contains (h.contains hb)⟩

theorem processTimeline_eq (input dir plots : Path) (t : FileTree) :
    processTimeline input dir plots t =
      (if t.contains (input.join timelineLog) then writeTimeline (input.join timelineLog) dir plots
        else pure []) t := rfl

/-- The timeline is made just when its log is there, and then this is a file. -/
theorem exists_of_processTimeline {config : Config} {l : CategoryLayout} {t u : FileTree}
    {made : List Path}
    (h : processTimeline (config.logs l) (config.tables l) (config.plots l) t = (.ok made, u)) :
    ∃ b, made = (if b then timelineOutputs (config.tables l) (config.plots l) else []) ∧
      t.Evolves made u ∧ config.Finds t u l b ∧ (b = true →
        ∃ place, t.locate (config.preprocessingLog l) = .ok place ∧ (t.content? place).isSome) := by
  rw [processTimeline_eq, ← Config.preprocessingLog] at h
  by_cases hc : t.contains (config.preprocessingLog l) = true
  · rw [if_pos hc] at h
    obtain ⟨hu, rfl⟩ := writeTimeline_makes _ _ _ h
    refine ⟨true, rfl, hu, ⟨fun _ => rfl, fun _ => hu.toExtends.contains hc⟩, fun _ => ?_⟩
    exact exists_content_of_writeTimeline h
  · rw [if_neg hc] at h
    cases h
    exact ⟨false, rfl, .done t, ⟨fun h => absurd h hc, nofun⟩, nofun⟩

theorem processCategory_eq {config : Config} {category : Category} {l : CategoryLayout}
    (h : config.layout category = .ok l) :
    processCategory config category = (do
      let datasets ← l.datasets.mapM
        (processDataset l.folder (config.logs l) (config.tables l) (config.plots l) config.style)
      let timeline ← processTimeline (config.logs l) (config.tables l) (config.plots l)
      return ⟨datasets, timeline⟩) := by
  unfold processCategory
  rw [h, Config.inputDir_of_layout h, Config.outputDir_of_layout h, Config.plotDir_of_layout h]
  rfl

/-- What is known of a category that was processed by turning one tree into another. -/
structure ProcessedCategory.IsOf (r : ProcessedCategory) (config : Config) (l : CategoryLayout)
    (t u : FileTree) (hasTimeline : Bool) : Prop where
  outputs : r.outputs = config.categoryOutputs l hasTimeline
  datasets : List.Forall₂ (fun d p => p.IsOf (config.tables l) (config.plots l) d)
    l.datasets r.datasets
  finds : config.Finds t u l hasTimeline
  /-- The log was a file from the start. -/
  log : hasTimeline = true →
    ∃ place, u.locate (config.preprocessingLog l) = .ok place ∧ (t.content? place).isSome

theorem flatMap_outputs {dir plots : Path} {ls : List DatasetLayout} {ds : List ProcessedDataset}
    (h : List.Forall₂ (fun l d => d.IsOf dir plots l) ls ds) :
    ds.flatMap (·.outputs) = ls.flatMap (datasetOutputs dir plots) := by
  induction h with
  | nil => rfl
  | cons hd _ ih => rw [List.flatMap_cons, List.flatMap_cons, hd.outputs, ih]

theorem map_name {dir plots : Path} {ls : List DatasetLayout} {ds : List ProcessedDataset}
    (h : List.Forall₂ (fun l d => d.IsOf dir plots l) ls ds) :
    ds.map (·.name) = ls.map (·.name) := by
  induction h with
  | nil => rfl
  | cons hd _ ih => rw [List.map_cons, List.map_cons, hd.name, ih]

theorem fits_of_mem {dir plots : Path} {ls : List DatasetLayout} {ds : List ProcessedDataset}
    (h : List.Forall₂ (fun l d => d.IsOf dir plots l) ls ds) {d : ProcessedDataset} (hd : d ∈ ds)
    (m : Metric) : (d.data.table m).Fits m := by
  induction h with
  | nil => cases hd
  | cons hof _ ih =>
    rcases List.mem_cons.mp hd with rfl | hd
    · exact hof.fits m
    · exact ih hd

/-- A category writes its part of the plan. -/
theorem isOf_of_processCategory {config : Config} {category : Category} {l : CategoryLayout}
    {t u : FileTree} {r : ProcessedCategory} (hl : config.layout category = .ok l)
    (h : processCategory config category t = (.ok r, u)) :
    ∃ b, t.Evolves (config.categoryOutputs l b) u ∧ r.IsOf config l t u b := by
  rw [processCategory_eq hl] at h
  obtain ⟨ds, w, hdatasets, h⟩ := FileTask.exists_of_bind_ok h
  obtain ⟨timeline, x, htimeline, hpure⟩ := FileTask.exists_of_bind_ok h
  cases hpure
  have hmakes := FileTask.Makes.mapM fun d (_ : d ∈ l.datasets) =>
    processDataset_makes l.folder (config.logs l) (config.tables l) (config.plots l) config.style d
  obtain ⟨hw, hds⟩ := hmakes hdatasets
  obtain ⟨b, rfl, hu, hfinds, hlog⟩ := exists_of_processTimeline htimeline
  refine ⟨b, hw.trans hu, ?_, hds, hfinds.widen hw.toExtends (.refl u), fun hb => ?_⟩
  · rw [ProcessedCategory.outputs, flatMap_outputs hds]
    rfl
  · obtain ⟨place, hplace, hcontent⟩ := hlog hb
    refine ⟨place, hu.toExtends.locate hplace, ?_⟩
    rw [← hw.content?_eq_of_preprocessingLog ?_ hplace]
    · exact hcontent
    · intro p hp
      obtain ⟨d, -, hd⟩ := List.mem_flatMap.mp hp
      exact isArtifact_of_mem_datasetOutputs hd

theorem processCategory_of_error {config : Config} {category : Category} {e : Error}
    (hl : config.layout category = .error e) (t : FileTree) :
    processCategory config category t = (.error e, t) := by
  unfold processCategory
  rw [hl]
  rfl

theorem exists_layout_of_processCategory {config : Config} {category : Category}
    {t u : FileTree} {r : ProcessedCategory}
    (h : processCategory config category t = (.ok r, u)) : ∃ l, config.layout category = .ok l := by
  cases hl : config.layout category with
  | ok l => exact ⟨l, rfl⟩
  | error e =>
    rw [processCategory_of_error hl] at h
    cases h

/-! ### The counterpart -/

theorem ProcessedCategory.IsOf.extend {r : ProcessedCategory} {config : Config}
    {l : CategoryLayout} {t u v : FileTree} {b : Bool} (h : r.IsOf config l t u b)
    (hu : u.Extends v) : r.IsOf config l t v b where
  outputs := h.outputs
  datasets := h.datasets
  finds := h.finds.widen (.refl t) hu
  log := by
    intro hb
    obtain ⟨place, hplace, hcontent⟩ := h.log hb
    exact ⟨place, hu.locate hplace, hcontent⟩

theorem ProcessedCategory.IsOf.before {r : ProcessedCategory} {config : Config}
    {l : CategoryLayout} {t u v : FileTree} {b : Bool} {ps : List Path}
    (h : r.IsOf config l u v b) (hps : t.Evolves ps u) (hartifact : ∀ p ∈ ps, p.IsArtifact) :
    r.IsOf config l t v b where
  outputs := h.outputs
  datasets := h.datasets
  finds := h.finds.widen hps.toExtends (.refl v)
  log := by
    intro hb
    obtain ⟨place, hplace, hcontent⟩ := h.log hb
    rw [hps.content?_eq_of_preprocessingLog hartifact hplace] at hcontent
    exact ⟨place, hplace, hcontent⟩

theorem compareProcessed_makes (config : Config) (category sequentialCategory : Category)
    (sequential : List ProcessedDataset) (dir plots : Path) (d : ProcessedDataset) :
    (compareProcessed config category sequentialCategory sequential dir plots d).Makes
      (Metric.all.flatMap (comparisonOutputs dir plots d.name))
      (Metric.all.flatMap (comparisonOutputs dir plots d.name) = ·) := by
  unfold compareProcessed
  split
  · exact nofun
  · rename_i s _
    exact compareDataset_makes d.name s.data d.data dir plots config.style

/-- The comparisons of datasets depend on their names alone. -/
theorem flatMap_datasetComparisons (config : Config) (l : CategoryLayout)
    {ds : List ProcessedDataset} {ls : List DatasetLayout}
    (h : ds.map (·.name) = ls.map (·.name)) :
    (ds.flatMap fun d => config.datasetComparisons l d.name) =
      ls.flatMap fun d => config.datasetComparisons l d.name :=
  calc (ds.flatMap fun d => config.datasetComparisons l d.name)
      = (ds.map (·.name)).flatMap (config.datasetComparisons l) := by rw [List.flatMap_map]
    _ = (ls.map (·.name)).flatMap (config.datasetComparisons l) := by rw [h]
    _ = ls.flatMap fun d => config.datasetComparisons l d.name := by rw [List.flatMap_map]

/-- All datasets are compared in order. -/
theorem compareAll_makes (config : Config) (category sequentialCategory : Category)
    (sequential ds : List ProcessedDataset) {l : CategoryLayout}
    (hds : ds.map (·.name) = l.datasets.map (·.name)) :
    (ds.mapM (compareProcessed config category sequentialCategory sequential
        ((config.tables l).join ⟨"comparison"⟩) (config.plots l))).Makes
      (config.comparedOutputs l) (·.flatten = config.comparedOutputs l) := by
  have hall := FileTask.Makes.mapM fun d (_ : d ∈ ds) =>
    compareProcessed_makes config category sequentialCategory sequential
      ((config.tables l).join ⟨"comparison"⟩) (config.plots l) d
  rw [Config.comparedOutputs, ← flatMap_datasetComparisons config l hds]
  refine hall.mono fun made hmade => ?_
  rw [← FileTask.map_eq_of_forall₂ hmade, ← List.flatMap_def]
  rfl

section Counterpart

variable {config : Config} {category sequentialCategory : Category} {l k : CategoryLayout}
  {own : ProcessedCategory}

theorem processCounterpart_eq (hl : config.layout category = .ok l) :
    processCounterpart config category sequentialCategory own = (do
      let sequential ← processCategory config sequentialCategory
      let compared ← own.datasets.mapM (compareProcessed config category sequentialCategory
        sequential.datasets ((config.tables l).join ⟨"comparison"⟩) (config.plots l))
      return (sequential, compared.flatten)) := by
  unfold processCounterpart
  rw [Config.outputDir_of_layout hl, Config.plotDir_of_layout hl]
  rfl

/-- The counterpart is processed, and then the datasets are compared. -/
theorem isOf_of_processCounterpart {r : ProcessedCategory × List Path} {t u : FileTree}
    (hl : config.layout category = .ok l) (hk : config.layout sequentialCategory = .ok k)
    (hown : own.datasets.map (·.name) = l.datasets.map (·.name))
    (h : processCounterpart config category sequentialCategory own t = (.ok r, u)) :
    ∃ b, t.Evolves (config.categoryOutputs k b ++ config.comparedOutputs l) u ∧
      r.1.IsOf config k t u b ∧ r.2 = config.comparedOutputs l := by
  rw [processCounterpart_eq hl] at h
  obtain ⟨sequential, v, hsequential, h⟩ := FileTask.exists_of_bind_ok h
  obtain ⟨made, w, hmade, hpure⟩ := FileTask.exists_of_bind_ok h
  cases hpure
  obtain ⟨b, hv, hof⟩ := isOf_of_processCategory hk hsequential
  obtain ⟨hu, hflatten⟩ := compareAll_makes config category sequentialCategory
    sequential.datasets own.datasets hown hmade
  exact ⟨b, hv.trans hu, hof.extend hu.toExtends, hflatten⟩

end Counterpart

/-! ### The summary -/

/-- What was written last is read. -/
theorem readText_of_write {t u : FileTree} {p : Path} {text : List Char}
    (h : t.write p (.text text) = .ok u) : u.readText p = .ok text := by
  have hu := FileTree.Evolves.extends_of_write h
  obtain ⟨place, hplace, hdirectory, hending, rfl⟩ := FileTree.exists_of_write h
  refine FileTree.readText_eq_ok_iff.mpr ⟨place, hu.locate hplace, ?_, hending⟩
  exact FileTree.content?_eq_some_iff.mpr (FileTree.Extends.find?_put_self hdirectory _)

/-- A file that was saved holds its text. -/
theorem FileTask.readText_of_save {t u : FileTree} {p : Path} {text : List Char}
    (h : save p (.text text) t = (.ok (), u)) : u.readText p = .ok text := by
  obtain ⟨_, v, -, hwrite⟩ := exists_of_bind_ok h
  unfold write at hwrite
  cases hv : v.write p (.text text) with
  | ok w =>
    rw [hv] at hwrite
    cases hwrite
    exact readText_of_write hv
  | error e =>
    rw [hv] at hwrite
    cases hwrite

/-- The summary is written behind all other files, and lists them and itself. -/
theorem exists_of_writeSummary {config : Config} {category : Category} {l : CategoryLayout}
    {now : Instant} {datasets : List DatasetSummary} {outputs : List Path} {s : RunSummary}
    {t u : FileTree} (hl : config.layout category = .ok l)
    (h : writeSummary config category now datasets outputs t = (.ok s, u)) :
    t.Evolves [config.summaryPath l] u ∧ s.outputs = outputs ++ [config.summaryPath l] ∧
      u.readText (config.summaryPath l) = .ok s.text := by
  unfold writeSummary at h
  rw [Config.outputDir_of_layout hl, FileTask.ofExcept_ok_bind] at h
  obtain ⟨_, v, hsave, hpure⟩ := FileTask.exists_of_bind_ok h
  cases hpure
  exact ⟨(FileTask.save_makes _ _ hsave).1, rfl, FileTask.readText_of_save hsave⟩

/-! ### The run -/

namespace Config

variable {config : Config} {category sequentialCategory : Category} {l k : CategoryLayout}
  {hasTimeline : Category → Bool}

theorem bodyOutputs_of_none (hl : config.layout category = .ok l)
    (hc : category.counterpart? = none) :
    config.bodyOutputs category hasTimeline =
      config.categoryOutputs l (hasTimeline category) := by
  simp only [bodyOutputs, hl, hc, List.append_nil]

theorem bodyOutputs_of_some (hl : config.layout category = .ok l)
    (hc : category.counterpart? = some sequentialCategory)
    (hk : config.layout sequentialCategory = .ok k) :
    config.bodyOutputs category hasTimeline =
      config.categoryOutputs l (hasTimeline category) ++
        (config.categoryOutputs k (hasTimeline sequentialCategory) ++ config.comparedOutputs l) := by
  simp only [bodyOutputs, hl, hc, hk]

theorem categoryOutputs_prefix (hl : config.layout category = .ok l)
    (hasTimeline : Category → Bool) :
    config.categoryOutputs l (hasTimeline category) <+:
      config.bodyOutputs category hasTimeline := by
  simp only [bodyOutputs, hl]
  exact List.prefix_append _ _

end Config

/-- The categories that a run of a category processes. -/
def Category.processed (category : Category) : List Category :=
  category :: category.counterpart?.toList

theorem Category.ne_of_counterpart? {category c : Category} (h : category.counterpart? = some c) :
    c ≠ category := by
  rintro rfl
  rw [counterpart?_counterpart? h] at h
  cases h

/-- What holds of the category and of its counterpart holds of all that is processed. -/
theorem forall_processed {category : Category} {b : Bool} {others : Category → Bool}
    {P : Category → Bool → Prop} (hown : P category b)
    (hcounterpart : ∀ c, category.counterpart? = some c → P c (others c)) :
    ∀ c ∈ category.processed, P c (if c = category then b else others c) := by
  intro c hc
  rcases List.mem_cons.mp hc with rfl | hc
  · rw [if_pos rfl]
    exact hown
  · have hsome := Option.mem_toList.mp hc
    rw [if_neg (Category.ne_of_counterpart? hsome)]
    exact hcounterpart c hsome

/-- Whether a category has a log of preprocessing is known: it is there at the start,
as far as its path leads anywhere then, and it is a file that the run did not make. -/
structure Config.KnowsLog (config : Config) (t u : FileTree) (l : CategoryLayout)
    (hasTimeline : Bool) : Prop where
  iff_contains : ∀ place, t.locate (config.preprocessingLog l) = .ok place →
    (hasTimeline = true ↔ t.contains (config.preprocessingLog l) = true)
  exists_content : hasTimeline = true →
    ∃ place, u.locate (config.preprocessingLog l) = .ok place ∧ (t.content? place).isSome

theorem FileTree.contains_of_content {t : FileTree} {p : Path} {place : Location}
    (hp : t.locate p = .ok place) (hcontent : (t.content? place).isSome)
    (hending : p.ending = .step) : t.contains p = true := by
  obtain ⟨c, hc⟩ := Option.isSome_iff_exists.mp hcontent
  simp only [contains, hp, content?_eq_some_iff.mp hc, hending]
  rfl

theorem ProcessedCategory.IsOf.knowsLog {r : ProcessedCategory} {config : Config}
    {l : CategoryLayout} {t u : FileTree} {b : Bool} (h : r.IsOf config l t u b)
    (hu : t.Extends u) : config.KnowsLog t u l b where
  iff_contains := by
    intro place hplace
    refine ⟨fun hb => ?_, h.finds.of_contains⟩
    obtain ⟨place', hplace', hcontent⟩ := h.log hb
    rw [hu.locate hplace, Except.ok.injEq] at hplace'
    subst hplace'
    exact FileTree.contains_of_content hplace hcontent
      (Path.ending_of_nameEnds (nameEnds_preprocessingLog config l) (by simp))
  exists_content := h.log

/-- What is known of a run that succeeds by turning one tree into another. -/
structure Config.Completes (config : Config) (category : Category) (hasTimeline : Category → Bool)
    (t u : FileTree) (s : RunSummary) : Prop where
  outputs : s.outputs = config.plannedOutputs category hasTimeline
  logs : ∀ c ∈ category.processed, ∃ l, config.layout c = .ok l ∧
    config.KnowsLog t u l (hasTimeline c)
  summary : ∀ l, config.layout category = .ok l →
    u.readText (config.summaryPath l) = .ok s.text

section Run

variable {config : Config} {category sequentialCategory : Category} {l k : CategoryLayout}
  {t u v : FileTree} {b b' : Bool} {e : Error} {ps : List Path} {s : RunSummary}

/-- What holds of the layout of a category holds of every one that it is said to have. -/
theorem Config.forall_layout {P : CategoryLayout → Prop} (hl : config.layout category = .ok l)
    (h : P l) : ∀ k, config.layout category = .ok k → P k := by
  intro k hk
  rw [hl, Except.ok.injEq] at hk
  exact hk ▸ h

/-- A success without a counterpart. -/
theorem Config.Completes.of_own (hl : config.layout category = .ok l)
    (hc : category.counterpart? = none) (hown : config.KnowsLog t u l b)
    (houtputs : s.outputs = config.categoryOutputs l b ++ [config.summaryPath l])
    (hsummary : u.readText (config.summaryPath l) = .ok s.text) :
    config.Completes category (fun _ => b) t u s where
  outputs := by
    rw [houtputs, plannedOutputs, bodyOutputs_of_none hl hc, hl]
  logs := by
    intro c hmem
    rw [Category.processed, hc, Option.toList_none, List.mem_singleton] at hmem
    subst hmem
    exact ⟨l, hl, hown⟩
  summary := forall_layout hl hsummary

/-- A success with a counterpart. -/
theorem Config.Completes.of_counterpart (hl : config.layout category = .ok l)
    (hc : category.counterpart? = some sequentialCategory)
    (hk : config.layout sequentialCategory = .ok k) (hown : config.KnowsLog t u l b)
    (hcounterpart : config.KnowsLog t u k b')
    (houtputs : s.outputs = config.categoryOutputs l b ++
      (config.categoryOutputs k b' ++ config.comparedOutputs l) ++ [config.summaryPath l])
    (hsummary : u.readText (config.summaryPath l) = .ok s.text) :
    config.Completes category (fun c => if c = category then b else b') t u s where
  outputs := by
    rw [houtputs, plannedOutputs, bodyOutputs_of_some hl hc hk, hl, if_pos rfl,
      if_neg (Category.ne_of_counterpart? hc)]
  logs := by
    refine forall_processed
      (P := fun c b => ∃ l, config.layout c = .ok l ∧ config.KnowsLog t u l b) ⟨l, hl, hown⟩
      fun c hsome => ?_
    rw [hc, Option.some.injEq] at hsome
    subst hsome
    exact ⟨k, hk, hcounterpart⟩
  summary := forall_layout hl hsummary

/-- A run that succeeds does so as planned. -/
theorem completes_of_run (h : run config category now t = (.ok s, u)) :
    t.Evolves s.outputs u ∧ ∃ hasTimeline, config.Completes category hasTimeline t u s := by
  obtain ⟨own, w, hown, hrest⟩ := FileTask.exists_of_bind_ok h
  obtain ⟨l, hl⟩ := exists_layout_of_processCategory hown
  obtain ⟨b, hw, hown⟩ := isOf_of_processCategory hl hown
  cases hc : category.counterpart? with
  | none =>
    rw [hc] at hrest
    obtain ⟨hu, houtputs, hsummary⟩ := exists_of_writeSummary hl hrest
    rw [hown.outputs] at houtputs
    have hlog := (hown.extend hu.toExtends).knowsLog (hw.trans hu).toExtends
    exact ⟨houtputs ▸ hw.trans hu, _, .of_own hl hc hlog houtputs hsummary⟩
  | some c =>
    rw [hc] at hrest
    obtain ⟨r, v, hr, hrest⟩ := FileTask.exists_of_bind_ok hrest
    obtain ⟨_, _, hsequential, -⟩ := FileTask.exists_of_bind_ok hr
    obtain ⟨k, hk⟩ := exists_layout_of_processCategory hsequential
    obtain ⟨b', hv, hsequential, hcompared⟩ :=
      isOf_of_processCounterpart hl hk (map_name hown.datasets) hr
    obtain ⟨hu, houtputs, hsummary⟩ := exists_of_writeSummary hl hrest
    rw [hown.outputs, hsequential.outputs, hcompared,
      List.append_assoc _ _ (config.comparedOutputs l)] at houtputs
    have hbefore := hsequential.before hw fun p hp => Config.isArtifact_of_mem_categoryOutputs hp
    have hall := (hw.trans hv).trans hu
    have hlog := (hown.extend (hv.trans hu).toExtends).knowsLog hall.toExtends
    have hlog' := (hbefore.extend hu.toExtends).knowsLog hall.toExtends
    exact ⟨houtputs ▸ hall, _, .of_counterpart hl hc hk hlog hlog' houtputs hsummary⟩

end Run

/-! ### An example -/

/-- The logs of a dataset with one repetition, in a folder of their own. -/
def exampleLogs (folder : String) : List (Location × FileNode) :=
  [([folder, "in"], .directory),
   (["d_ram_usage.txt", folder, "in"], .file (.text ("Start of repetition 1: RAM Usage: 5 MB\n" ++
     "End of repetition 1: RAM Usage: 6 MB\n").toList)),
   (["d_cpu_usage.txt", folder, "in"], .file (.text ("Start of repetition 1: Goroutines: " ++
     "%Cpu(s): 1 us\nEnd of repetition 1: Goroutines: %Cpu(s): 2 us\n").toList)),
   (["d_execution_time.txt", folder, "in"], .file (.text "Execution Time: 5s\n".toList))]

/-- Two folders of logs, one of them with a log of preprocessing. -/
def exampleTree : FileTree where
  workingDirectory := []
  entries := (["in"], .directory) :: exampleLogs "one" ++ exampleLogs "many" ++
    [(["preprocessing.log", "many", "in"], .file (.text
      ("2024/12/08 19:50:08 Merkle preprocessing evaluation for dbLen 8589934592 bits\n" ++
       "2024/12/08 19:56:30 simulation terminated successfully\n").toList))]

/-- The layout of a category with one dataset. -/
def exampleLayout (category : Category) (folder : String) : CategoryLayout :=
  ⟨category, folder, [.named "d"]⟩

/-- A category and its counterpart. -/
def exampleConfig : Config where
  inputRoot := ⟨"in"⟩
  outputRoot := ⟨"out"⟩
  style := .line
  categories := [exampleLayout .singlePerformance "one",
    exampleLayout .singlePerformanceParallel "many"]

end BenchLog
