/-
# The draft of a run

Which contents a run has to save where is told by the tree that it leaves, as the logs in it are
what they were (`runLook`). A step that fails saves nothing, and no step behind it is taken. So a
run that fails has saved the first of these files, with these contents, and the summary, which
comes last, is as it was; where the tables of a metric differ in size, all files in front of this
metric are saved and no others.

Key definitions: `Config.makeCategory`, `Config.makeBody`, `Config.foundLogs`, `categoryLook`,
`bodyLook`, `runLook`, `Config.Stops`.
Key theorems: `run_keepsLogs`, `run_eq_makeBody`, `run_leads`, `plans_bodyLook`,
`mismatch_of_bodyLook`, `run_failure`.
-/
import BenchLog.Proofs.RunStages

namespace BenchLog

/-! ### A run whose logs of preprocessing are known -/

namespace Config

/-- The datasets of a category and its timeline, if its log was found. -/
def makeCategory (config : Config) (found : Category → Bool) (c : Category) :
    FileTask ProcessedCategory := do
  let l ← FileTask.ofExcept (config.layout c)
  let datasets ← config.makeDatasets l
  let timeline ← config.makeTimeline l (found c)
  return ⟨datasets, timeline⟩

/-- What a run of a category with a counterpart makes of both. -/
def makeCounterpart (config : Config) (found : Category → Bool) (category c : Category)
    (own : ProcessedCategory) : FileTask (List DatasetSummary × List Path) := do
  let sequential ← config.makeCategory found c
  let l ← FileTask.ofExcept (config.layout category)
  let made ← config.makeComparisons l category c sequential.datasets own.datasets
  return (own.summaries ++ sequential.summaries, own.outputs ++ sequential.outputs ++ made.flatten)

/-- All of a run but the summary. -/
def makeBody (config : Config) (found : Category → Bool) (category : Category) :
    FileTask (List DatasetSummary × List Path) := do
  let own ← config.makeCategory found category
  match category.counterpart? with
  | none => return (own.summaries, own.outputs)
  | some c => config.makeCounterpart found category c own

end Config

section Looks

variable {config : Config} {found : Category → Bool} {category c : Category}
  {l k : CategoryLayout} {t u : FileTree}

/-- What is told of a category. -/
def categoryLook (config : Config) (found : Category → Bool) (c : Category) (t : FileTree) :
    Draft ProcessedCategory :=
  (Draft.ofExcept (config.layout c)).andThen fun l =>
    (datasetsLook config l t).andThen fun datasets =>
      (foundTimelineLook config l (found c) t).andThen fun timeline =>
        .ofExcept (.ok ⟨datasets, timeline⟩)

theorem makeCategory_follows (config : Config) (found : Category → Bool) (c : Category) :
    (config.makeCategory found c).Follows (categoryLook config found c) :=
  (FileTask.Follows.of_saves (.ofExcept _) nofun).bind fun l =>
    (makeDatasets_follows config l).bind fun datasets =>
      (makeTimeline_follows config l (found c)).bind fun timeline =>
        FileTask.Follows.pure (⟨datasets, timeline⟩ : ProcessedCategory)

/-- What is told of both a category and its counterpart. -/
def counterpartLook (config : Config) (found : Category → Bool) (category c : Category)
    (own : ProcessedCategory) (t : FileTree) : Draft (List DatasetSummary × List Path) :=
  (categoryLook config found c t).andThen fun sequential =>
    (Draft.ofExcept (config.layout category)).andThen fun l =>
      (comparisonsDraft config l category c sequential.datasets own.datasets).andThen fun made =>
        .ofExcept (.ok (own.summaries ++ sequential.summaries,
          own.outputs ++ sequential.outputs ++ made.flatten))

theorem makeCounterpart_follows (config : Config) (found : Category → Bool)
    (category c : Category) (own : ProcessedCategory) :
    (config.makeCounterpart found category c own).Follows
      (counterpartLook config found category c own) :=
  (makeCategory_follows config found c).bind fun sequential =>
    (FileTask.Follows.of_saves (.ofExcept _) nofun).bind fun l =>
      (makeComparisons_follows config l category c sequential.datasets own.datasets).bind
        fun made => FileTask.Follows.pure (own.summaries ++ sequential.summaries,
          own.outputs ++ sequential.outputs ++ made.flatten)

/-- What is told of all of a run but the summary. -/
def bodyLook (config : Config) (found : Category → Bool) (category : Category) (t : FileTree) :
    Draft (List DatasetSummary × List Path) :=
  (categoryLook config found category t).andThen fun own =>
    match category.counterpart? with
    | none => .ofExcept (.ok (own.summaries, own.outputs))
    | some c => counterpartLook config found category c own t

theorem makeBody_follows (config : Config) (found : Category → Bool) (category : Category) :
    (config.makeBody found category).Follows (bodyLook config found category) := by
  refine (makeCategory_follows config found category).bind fun own => ?_
  cases category.counterpart? with
  | none => exact FileTask.Follows.pure _
  | some c => exact makeCounterpart_follows config found category c own

/-- What is told of a run: the files that it has to save, with their contents, and what it gives
in the end. -/
def runLook (config : Config) (found : Category → Bool) (category : Category) (now : Instant)
    (t : FileTree) : Draft RunSummary :=
  (bodyLook config found category t).andThen fun body =>
    (Draft.ofExcept (config.layout category)).andThen fun l =>
      summaryDraft config l category now body.1 body.2

end Looks

/-! ### Logs are kept -/

section Kept

variable {config : Config} {category c : Category} {l : CategoryLayout}

/-- What the datasets of a category leave is kept when its timeline is made. -/
theorem keeps_of_makeDatasets (hl : config.layout c = .ok l) (t : FileTree) :
    (config.makeDatasets l t).2.Keeps (processCategory config c t).2 := by
  rw [processCategory_eq hl]
  exact FileTask.keeps_bind_snd (fun _ => (processTimeline_keepsLogs config l).bind fun _ =>
    FileTask.keepsLogs_ofExcept (.ok _)) t

/-- The summary is saved under the layout of its category. -/
theorem writeSummary_follows_look (config : Config) (category : Category) (now : Instant)
    (datasets : List DatasetSummary) (outputs : List Path) :
    (writeSummary config category now datasets outputs).Follows fun _ =>
      (Draft.ofExcept (config.layout category)).andThen fun l =>
        summaryDraft config l category now datasets outputs := by
  cases hl : config.layout category with
  | error e =>
    have hfails : writeSummary config category now datasets outputs =
        FileTask.ofExcept (.error e) := by
      unfold writeSummary Config.outputDir
      rw [hl]
      rfl
    rw [hfails]
    exact FileTask.Follows.of_saves (FileTask.Saves.ofExcept (.error e)) nofun
  | ok l => exact writeSummary_follows hl now datasets outputs

/-- What is left of a counterpart is kept when it is compared. -/
theorem keeps_of_counterpart (config : Config) (category c : Category) (own : ProcessedCategory)
    (t : FileTree) :
    (processCategory config c t).2.Keeps (processCounterpart config category c own t).2 := by
  unfold processCounterpart
  refine FileTask.keeps_bind_snd (fun sequential => ?_) t
  refine (FileTask.keepsLogs_ofExcept _).bind fun dir => ?_
  refine (FileTask.keepsLogs_ofExcept _).bind fun plots => ?_
  have hcompares := FileTask.Follows.mapM (fun d => compareProcessed_follows config category c
    sequential.datasets (dir.join ⟨"comparison"⟩) plots d) own.datasets
  exact hcompares.keepsLogs.bind fun _ => FileTask.keepsLogs_ofExcept (.ok _)

theorem processCounterpart_keepsLogs (config : Config) (category c : Category)
    (own : ProcessedCategory) : (processCounterpart config category c own).KeepsLogs :=
  fun t => (processCategory_keepsLogs config c t).trans
    (keeps_of_counterpart config category c own t)

/-- What is left of the category itself is kept by the rest of the run. -/
theorem keeps_of_own (config : Config) (category : Category) (now : Instant) (t : FileTree) :
    (processCategory config category t).2.Keeps (run config category now t).2 := by
  refine FileTask.keeps_bind_snd (fun own => ?_) t
  cases category.counterpart? with
  | none => exact (writeSummary_follows_look config category now _ _).keepsLogs
  | some c =>
    exact (processCounterpart_keepsLogs config category c own).bind fun _ =>
      (writeSummary_follows_look config category now _ _).keepsLogs

/-- No run changes a log. -/
theorem run_keepsLogs (config : Config) (category : Category) (now : Instant) :
    (run config category now).KeepsLogs :=
  fun t => (processCategory_keepsLogs config category t).trans (keeps_of_own config category now t)

end Kept

/-! ### Found logs -/

/-- Whether there is a log of preprocessing for a category. -/
def Config.hasLog (config : Config) (t : FileTree) (c : Category) : Bool :=
  match config.layout c with
  | .ok l => t.contains (config.preprocessingLog l)
  | .error _ => false

theorem Config.finds_hasLog {config : Config} {c : Category} {l : CategoryLayout} {t u : FileTree}
    (hl : config.layout c = .ok l) (hu : t.Extends u) :
    config.Finds t u l (config.hasLog t c) := by
  simp only [hasLog, hl]
  exact ⟨fun h => h, fun h => hu.contains h⟩

section Found

variable {config : Config} {found : Category → Bool} {category c : Category}
  {l : CategoryLayout} {t u v : FileTree} {now : Instant}

/-- Whether the log of preprocessing of a category is found when its datasets have been
processed. -/
def Config.findsFrom (config : Config) (c : Category) (t : FileTree) : Bool :=
  match config.layout c with
  | .ok l => (config.makeDatasets l t).2.contains (config.preprocessingLog l)
  | .error _ => false

theorem processCategory_eq_makeCategory (h : found c = config.findsFrom c t) :
    processCategory config c t = config.makeCategory found c t := by
  unfold Config.makeCategory
  cases hl : config.layout c with
  | error e => rw [processCategory_of_error hl]; rfl
  | ok l =>
    have hfound : found c = (config.makeDatasets l t).2.contains (config.preprocessingLog l) := by
      rw [h, Config.findsFrom, hl]
    rw [processCategory_eq hl, FileTask.ofExcept_ok_bind, hfound, ← Config.makeDatasets,
      FileTask.bind_eq, FileTask.bind_eq]
    rcases config.makeDatasets l t with ⟨e | datasets, u⟩
    · rfl
    · simp only [FileTask.bind_eq, processTimeline_eq_makeTimeline]

theorem Config.finds_findsFrom (hl : config.layout c = .ok l) (hu : t.Extends u)
    (hv : (processCategory config c u).2.Extends v) :
    config.Finds t v l (config.findsFrom c u) := by
  simp only [findsFrom, hl]
  have hmade := ((makeDatasets_follows config l).keepsLogs u).toExtends
  exact ⟨fun h => (hu.trans hmade).contains h,
    fun h => ((keeps_of_makeDatasets hl u).toExtends.trans hv).contains h⟩

/-- Which logs of preprocessing a run finds when it comes to them. If its own category fails, it
does not come to the counterpart. -/
def Config.foundLogs (config : Config) (category : Category) (t : FileTree) (c : Category) :
    Bool :=
  if c = category then config.findsFrom category t
  else if (processCategory config category t).1.isOk then
    config.findsFrom c (processCategory config category t).2
  else config.hasLog t c

theorem run_of_some (hc : category.counterpart? = some c) {own : ProcessedCategory}
    (hown : processCategory config category t = (.ok own, v)) (now : Instant) :
    run config category now t = (processCounterpart config category c own >>= fun r =>
      writeSummary config category now (own.summaries ++ r.1.summaries)
        (own.outputs ++ r.1.outputs ++ r.2)) v := by
  rw [run, FileTask.bind_of_ok hown, hc]

theorem finds_foundLogs (config : Config) (category : Category) (now : Instant) (t : FileTree) :
    ∀ c ∈ category.processed, ∀ l, config.layout c = .ok l →
      config.Finds t (run config category now t).2 l (config.foundLogs category t c) := by
  have hown := (processCategory_keepsLogs config category t).toExtends
  have hlater := (keeps_of_own config category now t).toExtends
  refine forall_processed (P := fun c b => ∀ l, config.layout c = .ok l →
    config.Finds t (run config category now t).2 l b)
    (fun l hl => Config.finds_findsFrom hl (.refl t) hlater) fun c hc l hl => ?_
  rcases h : processCategory config category t with ⟨e | own, v⟩
  · exact Config.finds_hasLog hl (hown.trans hlater)
  · rw [h] at hown
    refine Config.finds_findsFrom hl hown ?_
    rw [run_of_some hc h]
    refine ((keeps_of_counterpart config category c own v).trans ?_).toExtends
    exact FileTask.keeps_bind_snd
      (fun _ => (writeSummary_follows_look config category now _ _).keepsLogs) v

theorem makeCounterpart_eq (hl : config.layout category = .ok l)
    (hfound : found c = config.findsFrom c t) (own : ProcessedCategory) :
    config.makeCounterpart found category c own t =
      (processCounterpart config category c own >>= fun r =>
        pure (own.summaries ++ r.1.summaries, own.outputs ++ r.1.outputs ++ r.2)) t := by
  unfold Config.makeCounterpart
  rw [processCounterpart_eq hl, FileTask.bind_eq, FileTask.bind_eq, FileTask.bind_eq,
    processCategory_eq_makeCategory hfound, hl]
  rcases config.makeCategory found c t with ⟨e | sequential, u⟩
  · rfl
  · dsimp only
    rw [FileTask.ofExcept_ok_bind, FileTask.bind_eq, FileTask.bind_eq, Config.makeComparisons]
    split <;> rfl

/-- A run makes the timelines whose logs it finds. -/
theorem run_eq_makeBody (config : Config) (category : Category) (now : Instant) (t : FileTree) :
    run config category now t = (config.makeBody (config.foundLogs category t) category >>=
      fun body => writeSummary config category now body.1 body.2) t := by
  have hfirst : config.foundLogs category t category = config.findsFrom category t := if_pos rfl
  have hmake := processCategory_eq_makeCategory hfirst
  rcases hown : processCategory config category t with ⟨e | own, v⟩
  · rw [hown] at hmake
    rw [run, FileTask.bind_of_error hown, Config.makeBody, FileTask.bind_eq,
      FileTask.bind_of_error hmake.symm]
  · rw [hown] at hmake
    obtain ⟨l, hl⟩ := exists_layout_of_processCategory hown
    rw [FileTask.bind_eq, Config.makeBody, FileTask.bind_of_ok hmake.symm]
    cases hc : category.counterpart? with
    | none =>
      rw [run, FileTask.bind_of_ok hown, hc]
      rfl
    | some c =>
      have hfound : config.foundLogs category t c = config.findsFrom c v := by
        rw [Config.foundLogs, if_neg (Category.ne_of_counterpart? hc), hown]
        rfl
      dsimp only
      rw [run_of_some hc hown, FileTask.bind_eq, makeCounterpart_eq hl hfound, FileTask.bind_eq]
      rcases processCounterpart config category c own v with ⟨e | r, w⟩
      · rfl
      · rfl

end Found

/-- **What a run saves and gives is told by the tree that it leaves.** -/
theorem run_leads (config : Config) (category : Category) (now : Instant) (t : FileTree) :
    (runLook config (config.foundLogs category t) category now
      (run config category now t).2).Leads t (run config category now t).1
        (run config category now t).2 := by
  have hfollows := (makeBody_follows config (config.foundLogs category t) category).bind
    fun body => writeSummary_follows_look config category now body.1 body.2
  rw [run_eq_makeBody]
  exact hfollows.leads t

/-! ### Where the files go -/

section Plans

variable {config : Config} {found : Category → Bool} {category c : Category}
  {l k : CategoryLayout} {t : FileTree} {ws : List (Path × Content)}

theorem plans_categoryLook (hl : config.layout c = .ok l) (found : Category → Bool)
    (t : FileTree) :
    (categoryLook config found c t).Plans (config.categoryOutputs l (found c)) := by
  rw [categoryLook, hl, Draft.ofExcept_ok_andThen, Config.categoryOutputs]
  refine (plans_datasetsLook config l t).andThen fun datasets _ => ?_
  rw [← List.append_nil (if found c then _ else _)]
  exact (plans_foundTimelineLook config l (found c) t).andThen fun _ _ => Draft.Plans.ofExcept _

theorem names_of_categoryLook {r : ProcessedCategory}
    (hr : (categoryLook config found c t).result = .ok r) (hl : config.layout c = .ok l) :
    r.datasets.map (·.name) = l.datasets.map (·.name) := by
  have hlook : categoryLook config found c t = ⟨(categoryLook config found c t).saves, .ok r⟩ := by
    rw [← hr]
  rw [categoryLook, hl, Draft.ofExcept_ok_andThen] at hlook
  obtain ⟨rs, ws, _, hdatasets, hrest, -⟩ := Draft.andThen_eq_ok_iff.mp hlook
  obtain ⟨timeline, _, _, -, hpure, -⟩ := Draft.andThen_eq_ok_iff.mp hrest
  cases hpure
  obtain ⟨made, hmade, rfl, -⟩ := Draft.all_eq_ok_iff.mp hdatasets
  clear hr hlook hdatasets hrest
  generalize l.datasets = ds at hmade
  induction hmade with
  | nil => rfl
  | cons hd _ ih =>
    rw [List.map_cons, List.map_cons, List.map_cons, ih, (exists_of_datasetLook hd).2.1]

theorem plans_counterpartLook (hl : config.layout category = .ok l)
    (hk : config.layout c = .ok k) {own : ProcessedCategory}
    (hown : own.datasets.map (·.name) = l.datasets.map (·.name)) (found : Category → Bool)
    (t : FileTree) : (counterpartLook config found category c own t).Plans
      (config.categoryOutputs k (found c) ++ config.comparedOutputs l) := by
  refine (plans_categoryLook hk found t).andThen fun sequential _ => ?_
  rw [hl, Draft.ofExcept_ok_andThen, Config.comparedOutputs,
    ← flatMap_datasetComparisons config l hown, ← List.append_nil (List.flatMap _ _)]
  exact (plans_comparisonsDraft config l category c _ _).andThen fun _ _ => Draft.Plans.ofExcept _

/-- All files but the summary go where they are planned to. -/
theorem plans_bodyLook (config : Config) (found : Category → Bool) (category : Category)
    (t : FileTree) :
    (bodyLook config found category t).Plans (config.bodyOutputs category found) := by
  cases hl : config.layout category with
  | error e =>
    rw [bodyLook, categoryLook, hl]
    exact Draft.Plans.fails e _
  | ok l =>
    cases hc : category.counterpart? with
    | none =>
      rw [Config.bodyOutputs_of_none hl hc, bodyLook, hc,
        ← List.append_nil (config.categoryOutputs l _)]
      exact (plans_categoryLook hl found t).andThen fun _ _ => Draft.Plans.ofExcept _
    | some c =>
      rw [bodyLook, hc]
      cases hk : config.layout c with
      | error e =>
        simp only [Config.bodyOutputs, hl, hc, hk]
        refine (plans_categoryLook hl found t).andThen fun own _ => ?_
        rw [counterpartLook, categoryLook, hk]
        exact Draft.Plans.fails e _
      | ok k =>
        rw [Config.bodyOutputs_of_some hl hc hk]
        exact (plans_categoryLook hl found t).andThen fun own hown =>
          plans_counterpartLook hl hk (names_of_categoryLook hown hl) found t

end Plans

/-! ### Tables that differ in size -/

namespace Draft

variable {α β : Type} {d : Draft α} {f : α → Draft β}

theorem noMismatch_andThen (hd : NoMismatch d.result) (hf : ∀ a, NoMismatch (f a).result) :
    NoMismatch (d.andThen f).result := by
  cases hr : d.result with
  | error e =>
    rw [andThen_of_error hr]
    exact noMismatch_error (hd e hr)
  | ok a =>
    rw [andThen_of_ok hr]
    exact hf a

theorem noMismatch_all (hf : ∀ a, NoMismatch (f a).result) (as : List α) :
    NoMismatch (all f as).result := by
  intro e he
  obtain ⟨_, a, _, _, _, -, -, ha, -⟩ := exists_of_all_eq_error he
  exact hf a e ha

end Draft

theorem Config.noMismatch_layout (config : Config) (category : Category) :
    NoMismatch (config.layout category) := by
  unfold layout
  split
  · exact noMismatch_ok _
  · exact noMismatch_error rfl

theorem noMismatch_renderDraft (table : Table) (spec : ChartSpec) (style : ChartStyle) (p : Path) :
    NoMismatch (renderDraft table spec style p).result :=
  Draft.noMismatch_andThen (noMismatch_ofTable table spec style) fun _ => noMismatch_ok _

theorem noMismatch_drawnDraft (file : Path) (text : List Char) (spec : ChartSpec)
    (style : ChartStyle) (chart : Path) :
    NoMismatch (drawnDraft file text spec style chart).result :=
  Draft.noMismatch_andThen (noMismatch_ok _) fun _ =>
    Draft.noMismatch_andThen (Table.noMismatch_ofContent file (.text text)) fun table =>
      Draft.noMismatch_andThen (noMismatch_renderDraft table spec style chart) fun _ =>
        noMismatch_ok _

theorem noMismatch_datasetLook (folder : String) (input dir plots : Path) (style : ChartStyle)
    (l : DatasetLayout) (t : FileTree) :
    NoMismatch (datasetLook folder input dir plots style l t).result :=
  Draft.noMismatch_andThen (noMismatch_alignDataset t l input folder) fun _ =>
    Draft.noMismatch_andThen (noMismatch_ok _) fun _ =>
      Draft.noMismatch_andThen (Draft.noMismatch_andThen (noMismatch_renderDraft _ _ _ _)
        fun _ => noMismatch_ok _) fun _ => noMismatch_ok _

theorem noMismatch_foundTimelineLook (config : Config) (l : CategoryLayout) (found : Bool)
    (t : FileTree) : NoMismatch (foundTimelineLook config l found t).result := by
  cases found with
  | false => exact noMismatch_ok _
  | true =>
    exact Draft.noMismatch_andThen (noMismatch_readTimeline t (config.preprocessingLog l))
      fun table => noMismatch_drawnDraft _ _ _ _ _

theorem noMismatch_categoryLook (config : Config) (found : Category → Bool) (c : Category)
    (t : FileTree) : NoMismatch (categoryLook config found c t).result :=
  Draft.noMismatch_andThen (config.noMismatch_layout c) fun l =>
    Draft.noMismatch_andThen (Draft.noMismatch_all (noMismatch_datasetLook _ _ _ _ _ · t) _)
      fun _ => Draft.noMismatch_andThen (noMismatch_foundTimelineLook config l (found c) t)
        fun _ => noMismatch_ok _

section Mismatch

variable {config : Config} {found : Category → Bool} {category c : Category}
  {l k : CategoryLayout} {t : FileTree} {e : Error}

/-- Nothing is saved of a metric whose tables differ in size. -/
theorem saves_metricDraft {name : String} {s p : AlignedDataset} {dir plots : Path}
    {style : ChartStyle} {m : Metric}
    (h : (metricDraft name s p dir plots style m).result = .error e) (he : e.isMismatch = true) :
    (metricDraft name s p dir plots style m).saves = [] := by
  unfold metricDraft at h ⊢
  cases hm : mergeMetric s p m with
  | error e' => rfl
  | ok merged =>
    rw [hm, Draft.ofExcept_ok_andThen] at h
    rw [noMismatch_drawnDraft _ _ _ _ _ e h] at he
    cases he

/-- Where tables differ in size, all metrics in front of them are compared. -/
theorem exists_of_comparisonDraft_error {sequential : List ProcessedDataset} {dir plots : Path}
    {d : ProcessedDataset}
    (h : (comparisonDraft config category c sequential dir plots d).result = .error e)
    (he : e.isMismatch = true) : ∃ ms m ms', Metric.all = ms ++ m :: ms' ∧
      (comparisonDraft config category c sequential dir plots d).saves.map (·.1) =
        ms.flatMap (comparisonOutputs dir plots d.name) := by
  unfold comparisonDraft at h ⊢
  split
  · rename_i hnone
    rw [hnone] at h
    cases h
    cases he
  · rename_i s hs
    rw [hs] at h
    dsimp only at h ⊢
    cases hmetrics : (Draft.all (metricDraft d.name s.data d.data dir plots config.style)
        Metric.all).result with
    | ok made =>
      rw [Draft.andThen_of_ok hmetrics] at h
      cases h
    | error e' =>
      rw [Draft.andThen_of_error hmetrics] at h ⊢
      cases h
      obtain ⟨ms, m, ms', made, ws, hsplit, hfront, hm, hsaves⟩ :=
        Draft.exists_of_all_eq_error hmetrics
      have hplans :=
        Draft.Plans.all (plans_metricDraft d.name s.data d.data dir plots config.style) ms
      rw [hfront] at hplans
      refine ⟨ms, m, ms', hsplit, ?_⟩
      rw [hsaves, saves_metricDraft hm he, List.append_nil]
      exact hplans.map_fst made rfl

theorem comparedBefore_of_comparisonsDraft {sequential parallel : List ProcessedDataset}
    (hnames : parallel.map (·.name) = l.datasets.map (·.name))
    (h : (comparisonsDraft config l category c sequential parallel).result = .error e)
    (he : e.isMismatch = true) : config.ComparedBefore l
      ((comparisonsDraft config l category c sequential parallel).saves.map (·.1)) := by
  obtain ⟨done, d, others, made, ws, rfl, hfront, hd, hsaves⟩ := Draft.exists_of_all_eq_error h
  obtain ⟨ms, m, ms', hsplit, hpaths⟩ := exists_of_comparisonDraft_error hd he
  rw [List.map_append, List.map_cons] at hnames
  obtain ⟨front, rest, hl, hdone, hrest⟩ := List.map_eq_append_iff.mp hnames.symm
  obtain ⟨d', back, rfl, hd', -⟩ := List.map_eq_cons_iff.mp hrest
  refine ⟨front, d', back, ms, m, ms', hl, hsplit, ?_⟩
  rw [comparisonsDraft, hsaves, List.map_append, hpaths, hd',
    ← flatMap_datasetComparisons config l hdone.symm]
  rw [← comparisonsDraft] at hfront
  rw [map_fst_of_comparisonsDraft hfront]
  rfl

/-- The files of a category that has a result. -/
theorem exists_of_categoryLook_ok {r : ProcessedCategory}
    (h : (categoryLook config found c t).result = .ok r) : ∃ l, config.layout c = .ok l ∧
      r.datasets.map (·.name) = l.datasets.map (·.name) ∧
      (categoryLook config found c t).saves.map (·.1) = config.categoryOutputs l (found c) := by
  cases hl : config.layout c with
  | error e =>
    rw [categoryLook, hl, Draft.andThen_of_error rfl] at h
    cases h
  | ok l => exact ⟨l, rfl, names_of_categoryLook h hl, (plans_categoryLook hl found t).map_fst r h⟩

/-- Only comparing finds that tables differ in size, and it is the last that a counterpart is
processed for. -/
theorem exists_of_counterpartLook_error {own : ProcessedCategory}
    (hl : config.layout category = .ok l)
    (hown : own.datasets.map (·.name) = l.datasets.map (·.name))
    (h : (counterpartLook config found category c own t).result = .error e)
    (he : e.isMismatch = true) : ∃ k qs, config.layout c = .ok k ∧ config.ComparedBefore l qs ∧
      (counterpartLook config found category c own t).saves.map (·.1) =
        config.categoryOutputs k (found c) ++ qs := by
  unfold counterpartLook at h ⊢
  cases hsequential : (categoryLook config found c t).result with
  | error e' =>
    rw [Draft.andThen_of_error hsequential] at h
    cases h
    rw [noMismatch_categoryLook config found c t e hsequential] at he
    cases he
  | ok sequential =>
    obtain ⟨k, hk, -, hpaths⟩ := exists_of_categoryLook_ok hsequential
    rw [Draft.andThen_of_ok hsequential, hl, Draft.ofExcept_ok_andThen] at h ⊢
    cases hmade :
        (comparisonsDraft config l category c sequential.datasets own.datasets).result with
    | ok made =>
      rw [Draft.andThen_of_ok hmade] at h
      cases h
    | error e' =>
      rw [Draft.andThen_of_error hmade] at h ⊢
      cases h
      refine ⟨k, _, hk, comparedBefore_of_comparisonsDraft hown hmade he, ?_⟩
      rw [List.map_append, hpaths]

/-- Where tables differ in size, both categories are saved, and what is compared before. -/
theorem mismatch_of_bodyLook (h : (bodyLook config found category t).result = .error e)
    (he : e.isMismatch = true) : ∃ l c k qs, config.layout category = .ok l ∧
      category.counterpart? = some c ∧ config.layout c = .ok k ∧ config.ComparedBefore l qs ∧
        (bodyLook config found category t).saves.map (·.1) =
          config.categoryOutputs l (found category) ++
            (config.categoryOutputs k (found c) ++ qs) := by
  unfold bodyLook at h ⊢
  cases hown : (categoryLook config found category t).result with
  | error e' =>
    rw [Draft.andThen_of_error hown] at h
    cases h
    rw [noMismatch_categoryLook config found category t e hown] at he
    cases he
  | ok own =>
    obtain ⟨l, hl, hnames, hpaths⟩ := exists_of_categoryLook_ok hown
    rw [Draft.andThen_of_ok hown] at h ⊢
    cases hc : category.counterpart? with
    | none =>
      rw [hc] at h
      cases h
    | some c =>
      rw [hc] at h
      obtain ⟨k, qs, hk, hqs, hrest⟩ := exists_of_counterpartLook_error hl hnames h he
      refine ⟨l, c, k, qs, hl, rfl, hk, hqs, ?_⟩
      rw [List.map_append, hpaths]
      exact congrArg _ hrest

end Mismatch

/-! ### Failing runs -/

/-- What is known of a run that fails, having written the given files. -/
structure Config.Stops (config : Config) (category : Category) (hasTimeline : Category → Bool)
    (t u : FileTree) (e : Error) (ps : List Path) : Prop where
  isPrefix : ps <+: config.bodyOutputs category hasTimeline
  logs : ∀ c ∈ category.processed, ∀ l, config.layout c = .ok l →
    config.Finds t u l (hasTimeline c)
  mismatch : e.isMismatch = true → ∃ l c k qs, config.layout category = .ok l ∧
    category.counterpart? = some c ∧ config.layout c = .ok k ∧ config.ComparedBefore l qs ∧
      ps = config.categoryOutputs l (hasTimeline category) ++
        (config.categoryOutputs k (hasTimeline c) ++ qs)

section Failure

variable {config : Config} {found : Category → Bool} {category : Category} {now : Instant}
  {t u : FileTree} {e : Error}

/-- Behind all other files only the summary is saved. -/
theorem exists_saves_runLook (config : Config) (found : Category → Bool) (category : Category)
    (now : Instant) (t : FileTree) :
    ∃ xs, (runLook config found category now t).saves =
      (bodyLook config found category t).saves ++ xs ∧ xs.length ≤ 1 := by
  unfold runLook
  cases hbody : (bodyLook config found category t).result with
  | error e => exact ⟨[], by rw [Draft.andThen_of_error hbody, List.append_nil], Nat.zero_le 1⟩
  | ok body =>
    rw [Draft.andThen_of_ok hbody]
    refine ⟨_, rfl, ?_⟩
    cases config.layout category with
    | error e => exact Nat.zero_le 1
    | ok l => exact le_rfl

/-- A draft of a run that ends in an error does so in front of the summary. -/
theorem bodyLook_of_runLook_error (h : (runLook config found category now t).result = .error e) :
    (bodyLook config found category t).result = .error e ∧
      (runLook config found category now t).saves = (bodyLook config found category t).saves := by
  unfold runLook at h ⊢
  cases hbody : (bodyLook config found category t).result with
  | error e' =>
    rw [Draft.andThen_of_error hbody] at h ⊢
    cases h
    exact ⟨rfl, rfl⟩
  | ok body =>
    rw [Draft.andThen_of_ok hbody] at h
    cases hl : config.layout category with
    | ok l =>
      rw [hl] at h
      cases h
    | error e' =>
      rw [bodyLook, categoryLook, hl] at hbody
      cases hbody

/-- A run that fails has saved the first of its files, with their contents. -/
theorem exists_stops_of_run (h : run config category now t = (.error e, u)) :
    ∃ ws, config.Stops category (config.foundLogs category t) t u e (ws.map (·.1)) ∧
      t.Writes ws u ∧
      ws <+: (runLook config (config.foundLogs category t) category now u).saves := by
  have hleads := run_leads config category now t
  have hlogs := finds_foundLogs config category now t
  rw [h] at hleads hlogs
  have hplans := (plans_bodyLook config (config.foundLogs category t) category u).isPrefix
  -- Either the draft itself ends in the error, or one of its files cannot be saved.
  obtain ⟨ws, hws, ⟨rfl, hresult⟩ | ⟨hsizes, -, y, rest, hsaves⟩⟩ := hleads.exists_writes
  · obtain ⟨hbody, hsaves⟩ := bodyLook_of_runLook_error hresult.symm
    rw [hsaves] at hws ⊢
    exact ⟨_, ⟨hplans, hlogs, mismatch_of_bodyLook hbody⟩, hws, List.prefix_rfl⟩
  · obtain ⟨xs, hxs, hone⟩ :=
      exists_saves_runLook config (config.foundLogs category t) category now u
    have hfront : ws <+: (runLook config (config.foundLogs category t) category now u).saves :=
      ⟨y :: rest, hsaves.symm⟩
    have hlength : ws.length ≤
        (bodyLook config (config.foundLogs category t) category u).saves.length := by
      have hlengths := congrArg List.length (hsaves.symm.trans hxs)
      simp only [List.length_append, List.length_cons] at hlengths
      omega
    have hbody : ws <+: (bodyLook config (config.foundLogs category t) category u).saves :=
      List.prefix_of_prefix_length_le hfront ⟨xs, hxs.symm⟩ hlength
    refine ⟨ws, ⟨(hbody.map _).trans hplans, hlogs, fun he => ?_⟩, hws, hfront⟩
    rw [hsizes e rfl] at he
    cases he

end Failure

/-- **A run that fails has written the first files of its plan, with the contents that its logs
tell, and neither its summary nor any other file has changed; where the tables of a metric differ
in size, or a dataset cannot be aligned, it leaves the files as it finds them there. No run changes
a log.** -/
theorem run_failure (config : Config) (category : Category) (now : Instant) (t : FileTree) :
    (∀ e u, run config category now t = (.error e, u) →
      ∃ hasTimeline ws, config.Stops category hasTimeline t u e (ws.map (·.1)) ∧
        t.Writes ws u ∧ ws <+: (runLook config hasTimeline category now u).saves ∧
        (∀ place, (∀ y ∈ ws, u.locate y.1 ≠ .ok place) → u.content? place = t.content? place) ∧
        ∀ rest, u.content? ("summary.json" :: rest) = t.content? ("summary.json" :: rest)) ∧
    (∀ s d m u, config.ComesToMetric category t s d m u →
      (s.data.table m).rows ≠ (d.data.table m).rows → run config category now t =
        (.error (.rowCountMismatch (s.data.table m).rows (d.data.table m).rows), u)) ∧
    (∀ l d u e, config.ComesToDataset category t l d u →
      alignDataset u d (config.logs l) l.folder = .error e →
        run config category now t = (.error e, u)) ∧
    ∀ ending ∈ logEndings, ∀ (name : String) (rest : Location), ending.toList <:+ name.toList →
      (run config category now t).2.content? (name :: rest) = t.content? (name :: rest) := by
  refine ⟨fun e u h => ?_, fun s d m u h hrows => run_of_rows_ne h hrows now,
    fun l d u e h he => run_of_alignDataset_eq_error h he now,
    fun ending hending name rest hname =>
      (run_keepsLogs config category now t).sameLogs.content?_eq ending hending name hname rest⟩
  obtain ⟨ws, hstops, hws, hsaves⟩ := exists_stops_of_run h
  refine ⟨_, ws, hstops, hws, hsaves, fun place hplace => ?_, fun rest => ?_⟩
  · exact hws.toEvolves.content?_eq fun p hp => by
      obtain ⟨y, hy, rfl⟩ := List.mem_map.mp hp
      exact hplace y hy
  · have hartifact : ∀ p ∈ ws.map (·.1), p.IsArtifact := fun p hp =>
      Config.isArtifact_of_mem_bodyOutputs (hstops.isPrefix.subset hp)
    have hname : "summary.json".toList <:+ "summary.json".toList := List.suffix_rfl
    exact hws.toEvolves.content?_eq_of_isArtifact hartifact (by simp) (by decide) (by decide)
      hname rest

/-- The folders of two categories; the parallel logs have one repetition more of the processor's
usage than the sequential ones. -/
def unevenTree : FileTree where
  workingDirectory := []
  entries := (["in"], .directory) ::
    (["d_cpu_usage.txt", "many", "in"], .file (.text ("Start of repetition 1: Goroutines: " ++
      "%Cpu(s): 1 us\nEnd of repetition 1: Goroutines: %Cpu(s): 2 us\n" ++
      "Start of repetition 2: Goroutines: %Cpu(s): 3 us\n" ++
      "End of repetition 2: Goroutines: %Cpu(s): 4 us\n").toList)) ::
    exampleLogs "one" ++ exampleLogs "many"

/-- The example up to the comparison of the processor's usage. -/
def exampleToCpu : FileTask (ProcessedCategory × ProcessedCategory) := do
  let own ← processCategory exampleConfig .singlePerformanceParallel
  let sequential ← processCategory exampleConfig .singlePerformance
  let l := exampleLayout .singlePerformanceParallel "many"
  let _ ← own.datasets.mapM fun d => sequential.datasets.mapM fun s =>
    [Metric.ram].mapM (compareMetric d.name s.data d.data
      ((exampleConfig.tables l).join ⟨"comparison"⟩) (exampleConfig.plots l) exampleConfig.style)
  return (own, sequential)

theorem run_failure_of_cpu_rows :
    ∃ u, run exampleConfig .singlePerformanceParallel ⟨0, 0⟩ unevenTree =
        (.error (.rowCountMismatch 2 4), u) ∧
      (∃ hasTimeline ws, exampleConfig.Stops .singlePerformanceParallel hasTimeline unevenTree u
        (.rowCountMismatch 2 4) (ws.map (·.1)) ∧ unevenTree.Writes ws u ∧
          ws <+: (runLook exampleConfig hasTimeline .singlePerformanceParallel ⟨0, 0⟩ u).saves) ∧
      (u.content? ["d_ram_merged.csv", "comparison", "many", "out"]).isSome = true ∧
      (u.content? ["d_cpu_merged.csv", "comparison", "many", "out"]).isSome = false := by
  have hcomes : ((exampleToCpu unevenTree).1.toOption.map fun r =>
        (r.1.datasets.map fun d => (d.name, (d.data.table .cpu).rows),
          r.2.datasets.map fun d => (d.name, (d.data.table .cpu).rows))) =
        some ([("d", 4)], [("d", 2)]) ∧
      ((exampleToCpu unevenTree).2.content?
        ["d_ram_merged.csv", "comparison", "many", "out"]).isSome = true ∧
      ((exampleToCpu unevenTree).2.content?
        ["d_cpu_merged.csv", "comparison", "many", "out"]).isSome = false := by
    -- Coupling is the one part that the kernel cannot run as it is written.
    unfold exampleToCpu processCategory processDataset
    simp only [alignDataset, alignCpu, coupleRows_eq_coupleGreedily]
    decide +kernel
  obtain ⟨hsizes, hram, hcpu⟩ := hcomes
  obtain ⟨⟨own, sequential⟩, hr, hsizes⟩ := Option.map_eq_some_iff.mp hsizes
  rw [Prod.mk.injEq, List.map_eq_singleton_iff, List.map_eq_singleton_iff] at hsizes
  obtain ⟨⟨d, hd, hdsize⟩, s, hs, hssize⟩ := hsizes
  rw [Prod.mk.injEq] at hdsize hssize
  generalize hafter : (exampleToCpu unevenTree).2 = w at hram hcpu
  have hall : exampleToCpu unevenTree = (.ok (own, sequential), w) :=
    Prod.ext (eq_ok_of_toOption hr) hafter
  obtain ⟨_, u, hown, hrest⟩ := FileTask.exists_of_bind_ok hall
  obtain ⟨_, v, hsequential, hrest⟩ := FileTask.exists_of_bind_ok hrest
  obtain ⟨_, _, hcompared, hpure⟩ := FileTask.exists_of_bind_ok hrest
  cases hpure
  rw [hd, hs, List.mapM_cons] at hcompared
  obtain ⟨_, _, hmade, hpure⟩ := FileTask.exists_of_bind_ok hcompared
  cases hpure
  rw [List.mapM_cons] at hmade
  obtain ⟨_, _, hmade, hpure⟩ := FileTask.exists_of_bind_ok hmade
  cases hpure
  have hfound : sequential.datasets.find? (·.name == d.name) = some s := by
    rw [hs, hdsize.1]
    exact List.find?_cons_of_pos (beq_iff_eq.mpr hssize.1)
  have hmetric : exampleConfig.ComesToMetric .singlePerformanceParallel unevenTree s d .cpu w :=
    .intro rfl rfl hown hsequential (hd.trans (List.nil_append _).symm) rfl hfound rfl hmade
  obtain ⟨hfails, hrows, -⟩ :=
    run_failure exampleConfig .singlePerformanceParallel ⟨0, 0⟩ unevenTree
  have hrun := hrows s d .cpu w hmetric (by omega)
  rw [hdsize.2, hssize.2] at hrun
  obtain ⟨hasTimeline, ws, hstops, hws, hsaves, -⟩ := hfails _ w hrun
  exact ⟨w, hrun, ⟨hasTimeline, ws, hstops, hws, hsaves⟩, hram, hcpu⟩

end BenchLog
