/-
# No file of a run overwrites another one

A configuration is checked for datasets of one name in one category, but not for
what two categories have in common. If no dataset has a slash in its name, all
files of a run are at different places, unless the category and its counterpart
have one directory for their tables or for their charts; then the files of the
counterpart are written over those of the category. Where all places are different,
each table of a dataset holds in the end what its own logs say.

Key definitions: `Config.Accepted`, `CategoryLayout.IsValid`, `Config.KeepsApart`.
Key theorems: `Config.Accepted.isValid`, `keepsApart_of_folders`, `run_distinct`.
-/
import BenchLog.Proofs.FirstFault
import BenchLog.Proofs.OutputNames
import BenchLog.Proofs.WrittenContents

namespace BenchLog

/-! ### Checked configurations -/

/-- A layout that passes the checks. -/
structure CategoryLayout.IsValid (l : CategoryLayout) : Prop where
  folder_ne : l.folder ≠ ""
  datasets_ne : l.datasets ≠ []
  names_nodup : (l.datasets.map (·.name)).Nodup

namespace Config

variable {config : Config} {category : Category} {l k : CategoryLayout}

theorem isValid_of_check (h : config.check = .ok ()) : ∀ l ∈ config.categories, l.IsValid := by
  intro l hl
  have hsound := (check_eq_ok_iff.mp h).layouts l hl
  refine ⟨fun hfolder => ?_, hsound.datasets_ne, hsound.names_nodup⟩
  have hblank := hsound.folder
  rw [hfolder] at hblank
  cases hblank

/-- A configuration that a text describes or that choices make. -/
def Accepted (config : Config) : Prop :=
  (∃ text, ofToml text = .ok config) ∨ ∃ settings, build settings = .ok config

/-- A text gives the configuration that it describes, if that passes the checks. -/
theorem ofToml_eq_ok_iff {text : List Char} : ofToml text = .ok config ↔
    ∃ document, Toml.parse text = some document ∧ ofDocument? document = some config ∧
      config.check = .ok () := by
  unfold ofToml
  cases Toml.parse text with
  | none => simp
  | some document =>
    cases hc : ofDocument? document with
    | none => simp [hc]
    | some c => simp [hc, checked_eq_ok_iff]

theorem Accepted.check (h : config.Accepted) : config.check = .ok () := by
  rcases h with ⟨text, h⟩ | ⟨settings, h⟩
  · obtain ⟨_, -, -, hcheck⟩ := ofToml_eq_ok_iff.mp h
    exact hcheck
  · exact (checked_eq_ok_iff.mp h).2

/-- The layouts of an accepted configuration are valid. -/
theorem Accepted.isValid (h : config.Accepted) (hl : config.layout category = .ok l) :
    l.IsValid :=
  isValid_of_check h.check l (mem_of_layout hl)

/-! ### Directories of two categories -/

/-- The tables of a category and of its counterpart go to different places, and so do
their charts. -/
def KeepsApart (config : Config) (category : Category) (u : FileTree) : Prop :=
  ∀ c l k, category.counterpart? = some c → config.layout category = .ok l →
    config.layout c = .ok k → u.locate (config.tables l) ≠ u.locate (config.tables k) ∧
      u.locate (config.plots l) ≠ u.locate (config.plots k)

/-- The names of the datasets that a run processes have no slash. -/
def NamesPlain (config : Config) (category : Category) : Prop :=
  ∀ c ∈ category.processed, ∀ l, config.layout c = .ok l → ∀ d ∈ l.datasets, '/' ∉ d.name.toList

variable {c : Category} {u : FileTree}

theorem keepsApart_iff (hc : category.counterpart? = some c) (hl : config.layout category = .ok l)
    (hk : config.layout c = .ok k) :
    config.KeepsApart category u ↔ u.locate (config.tables l) ≠ u.locate (config.tables k) ∧
      u.locate (config.plots l) ≠ u.locate (config.plots k) := by
  refine ⟨fun h => h c l k hc hl hk, fun h c' l' k' hc' hl' hk' => ?_⟩
  rw [hc, Option.some.injEq] at hc'
  subst hc'
  rw [hl, Except.ok.injEq] at hl'
  rw [hk, Except.ok.injEq] at hk'
  rwa [← hl', ← hk']

theorem NamesPlain.of_label (h : config.NamesPlain category) (hmem : c ∈ category.processed)
    (hl : config.layout c = .ok l) {x : String × OutputKind}
    (hx : (∃ d ∈ l.datasets, d.name = x.1) ∨ x.1 = "") : '/' ∉ x.1.toList := by
  rcases hx with ⟨d, hd, hname⟩ | hname
  · rw [← hname]
    exact h c hmem l hl d hd
  · simp [hname]

end Config

/-! ### Runs -/

section Run

variable {config : Config} {category c : Category} {l k : CategoryLayout} {t u : FileTree}
  {s : RunSummary} {now : Instant}

theorem exists_locate_of_mem_outputs (h : run config category now t = (.ok s, u)) {p : Path}
    (hp : p ∈ s.outputs) : ∃ place, u.locate p = .ok place := by
  obtain ⟨place, hplace, -⟩ := (completes_of_run h).1.exists_file hp
  exact ⟨place, hplace⟩

theorem exists_plannedOutputs_eq (h : run config category now t = (.ok s, u)) :
    ∃ hasTimeline, s.outputs = config.plannedOutputs category hasTimeline := by
  obtain ⟨-, hasTimeline, hcompletes⟩ := completes_of_run h
  exact ⟨hasTimeline, hcompletes.outputs⟩

/-- The files of a run are at different places if the category and its counterpart are kept
apart, and only then. -/
theorem nodup_locate_iff_keepsApart (hconfig : config.Accepted)
    (h : run config category now t = (.ok s, u)) (hnames : config.NamesPlain category) :
    (s.outputs.map u.locate).Nodup ↔ config.KeepsApart category u := by
  obtain ⟨l, ws, hl, -, -, hlayouts, hshared⟩ := run_writes h
  obtain ⟨hasTimeline, houtputs⟩ := exists_plannedOutputs_eq h
  have hlocated : ∀ p ∈ s.outputs, ∃ place, u.locate p = .ok place :=
    fun p hp => exists_locate_of_mem_outputs h hp
  have hvalid := hconfig.isValid hl
  have hown : ∀ {b b'}, ∀ x ∈ l.reportLabels b b', '/' ∉ x.1.toList := fun x hx =>
    hnames.of_label List.mem_cons_self hl (CategoryLayout.name_of_mem_reportLabels hx)
  cases hc : category.counterpart? with
  | none =>
    rw [Config.plannedOutputs_of_none hl hc] at houtputs
    rw [houtputs] at hlocated ⊢
    refine iff_of_true (Config.nodup_locate_map hvalid.folder_ne
      (CategoryLayout.nodup_reportLabels hvalid.names_nodup) hown fun x hx => ?_) fun c _ _ hsome => ?_
    · exact hlocated _ (List.mem_map_of_mem hx)
    · rw [hc] at hsome
      cases hsome
  | some c =>
    have hmem : c ∈ category.processed := List.mem_cons_of_mem _ (Option.mem_toList.mpr hc)
    obtain ⟨k, hk, -⟩ := hlayouts c hmem
    have hvalid' := hconfig.isValid hk
    have hplan : (config.plannedOutputs category hasTimeline).Perm _ :=
      Config.plannedOutputs_perm_of_some hl hc hk
    rw [← houtputs] at hplan
    obtain ⟨d, hd⟩ := List.exists_mem_of_ne_nil _ hvalid.datasets_ne
    rw [(hplan.map u.locate).nodup_iff, Config.keepsApart_iff hc hl hk]
    refine (Config.nodup_locate_iff hvalid.folder_ne hvalid'.folder_ne
      (CategoryLayout.nodup_reportLabels hvalid.names_nodup)
      (CategoryLayout.nodup_labels hvalid'.names_nodup) hown ?_ ?_).trans ?_
    · exact fun y hy => hnames.of_label hmem hk (CategoryLayout.name_of_mem_labels hy)
    · exact fun p hp => hlocated p (hplan.mem_iff.mpr hp)
    · exact Config.directories_ne_iff ⟨d, hd, hshared c k hc hk d hd⟩

/-- The directories for tables and for charts are there in the end. -/
theorem exists_locate_directory (hconfig : config.Accepted)
    (h : run config category now t = (.ok s, u)) (hnames : config.NamesPlain category)
    (hl : config.layout category = .ok l) (kind : OutputKind) (hkind : kind ∈ OutputKind.ofDataset) :
    ∃ place, u.locate (config.directory l kind) = .ok place := by
  have hvalid := hconfig.isValid hl
  obtain ⟨d, hd⟩ := List.exists_mem_of_ne_nil _ hvalid.datasets_ne
  obtain ⟨hasTimeline, houtputs⟩ := exists_plannedOutputs_eq h
  have hlabel : (d.name, kind) ∈ l.labels (hasTimeline category) :=
    List.mem_append_left _ (CategoryLayout.mem_labelled_iff.mpr ⟨⟨d, hd, rfl⟩, hkind⟩)
  have hmem : config.output l (d.name, kind) ∈ s.outputs := by
    rw [houtputs]
    refine List.mem_append_left _ ((Config.categoryOutputs_prefix hl hasTimeline).subset ?_)
    rw [Config.categoryOutputs_eq]
    exact List.mem_map_of_mem hlabel
  obtain ⟨place, hplace⟩ := exists_locate_of_mem_outputs h hmem
  have hstep := OutputKind.isStep_append_ending (hnames category List.mem_cons_self l hl d hd) kind
  obtain ⟨above, habove, -⟩ :=
    FileTree.exists_locate_join (Config.directory_text_ne hvalid.folder_ne kind) hstep hplace
  exact ⟨above, habove⟩

/-- Categories whose folders are single steps of different names are kept apart. -/
theorem keepsApart_of_folders (hconfig : config.Accepted)
    (h : run config category now t = (.ok s, u)) (hnames : config.NamesPlain category)
    (hfolders : ∀ c l k, category.counterpart? = some c → config.layout category = .ok l →
      config.layout c = .ok k →
        Path.IsStep l.folder ∧ Path.IsStep k.folder ∧ l.folder ≠ k.folder) :
    config.KeepsApart category u := by
  intro c l k hc hl hk
  obtain ⟨hlstep, hkstep, hne⟩ := hfolders c l k hc hl hk
  have hroots : ∀ root : Path, (∃ place, u.locate (root.join ⟨l.folder⟩) = .ok place) →
      u.locate (root.join ⟨l.folder⟩) ≠ u.locate (root.join ⟨k.folder⟩) := by
    rintro root ⟨place, hplace⟩ he
    obtain ⟨rest, hrest⟩ := FileTree.head?_of_locate_join root hlstep hplace
    obtain ⟨rest', hrest'⟩ := FileTree.head?_of_locate_join root hkstep (he.symm.trans hplace)
    rw [hrest, List.cons.injEq] at hrest'
    exact hne hrest'.1
  exact ⟨hroots _ (exists_locate_directory hconfig h hnames hl (.table .ram) (by decide)),
    hroots _ (exists_locate_directory hconfig h hnames hl .ramChart (by decide))⟩

/-- **No file of a run overwrites another one if the names of datasets have no slash and the
category and its counterpart keep their directories apart; for such names the second
condition is needed. Where no file is overwritten, each table of a dataset is in the end the
one that its own logs are aligned to.** -/
theorem run_distinct (hconfig : config.Accepted) (h : run config category now t = (.ok s, u)) :
    (config.NamesPlain category →
      ((s.outputs.map u.locate).Nodup ↔ config.KeepsApart category u)) ∧
    ((s.outputs.map u.locate).Nodup → s.outputs.Nodup ∧
      ∀ c ∈ category.processed, ∃ l, config.layout c = .ok l ∧ ∀ d ∈ l.datasets, ∃ data,
        alignDataset u d (config.logs l) l.folder = .ok data ∧
          ∀ m : Metric, u.readText (artifact (config.tables l) d.name (m.stem ++ ".csv")) =
            .ok (data.table m).toCsv) := by
  refine ⟨nodup_locate_iff_keepsApart hconfig h, fun hplaces => ⟨hplaces.of_map, fun c hmem => ?_⟩⟩
  obtain ⟨-, ws, -, hws, hpaths, hlayouts, -⟩ := run_writes h
  obtain ⟨k, hk, htabulates⟩ := hlayouts c hmem
  refine ⟨k, hk, fun d hd => ?_⟩
  obtain ⟨data, hdata, htables⟩ := htabulates d hd
  refine ⟨data, hdata, fun m => hws.readText_of_mem (hpaths ▸ hplaces) (htables ?_)⟩
  have hmetric : m ∈ Metric.all := by cases m <;> decide
  exact List.mem_map_of_mem hmetric

end Run

/-! ### Examples -/

/-- The configuration of a category and its counterpart that is built from the default. -/
def builtConfig (outputRoot : String) (sequential parallel : CategoryLayout) : Config where
  inputRoot := ⟨"in"⟩
  outputRoot := ⟨outputRoot⟩
  style := .line
  categories := [.builtIn .preprocessingPerformance, .builtIn .preprocessingPerformanceParallel,
    sequential, parallel]

theorem accepted_builtConfig {outputRoot : String} {l k : CategoryLayout}
    (hl : l.category = .singlePerformance) (hk : k.category = .singlePerformanceParallel)
    (h : (builtConfig outputRoot l k).check = .ok ()) : (builtConfig outputRoot l k).Accepted := by
  refine .inr ⟨[.inputRoot ⟨"in"⟩, .outputRoot ⟨outputRoot⟩, .style .line, .layout l, .layout k], ?_⟩
  have hbuilt : [Config.Setting.inputRoot ⟨"in"⟩, .outputRoot ⟨outputRoot⟩, .style .line, .layout l,
      .layout k].foldl Config.set .default = builtConfig outputRoot l k := by
    obtain ⟨_, _, _⟩ := l
    obtain ⟨_, _, _⟩ := k
    cases hl
    cases hk
    rfl
  rw [Config.build, hbuilt, Config.checked, h]

/-- The category and its counterpart with one dataset each. -/
def pairConfig (sequential parallel : String) : Config :=
  builtConfig "out" (exampleLayout .singlePerformance sequential)
    (exampleLayout .singlePerformanceParallel parallel)

theorem layout_pairConfig (sequential parallel : String) :
    (pairConfig sequential parallel).layout .singlePerformance =
        .ok (exampleLayout .singlePerformance sequential) ∧
      (pairConfig sequential parallel).layout .singlePerformanceParallel =
        .ok (exampleLayout .singlePerformanceParallel parallel) :=
  ⟨rfl, rfl⟩

theorem namesPlain_pairConfig (sequential parallel : String) :
    (pairConfig sequential parallel).NamesPlain .singlePerformanceParallel := by
  obtain ⟨hsequential, hparallel⟩ := layout_pairConfig sequential parallel
  refine List.forall_mem_cons.mpr ⟨fun l hl => ?_, List.forall_mem_singleton.mpr fun l hl => ?_⟩
  · rw [hparallel, Except.ok.injEq] at hl
    subst hl
    exact List.forall_mem_singleton.mpr (by decide)
  · rw [hsequential, Except.ok.injEq] at hl
    subst hl
    exact List.forall_mem_singleton.mpr (by decide)

/-- The logs of two folders. -/
def apartTree : FileTree where
  workingDirectory := []
  entries := (["in"], .directory) :: exampleLogs "one" ++ exampleLogs "many"

theorem run_distinct_of_folders :
    ∃ s u, run (pairConfig "one" "many") .singlePerformanceParallel ⟨0, 0⟩ apartTree = (.ok s, u) ∧
      s.outputs.Nodup ∧ ∃ d, alignDataset u (.named "d") ⟨"in/one"⟩ "one" = .ok d ∧
        u.readText ⟨"out/one/d_ram.csv"⟩ = .ok d.ram.toCsv := by
  have haccepted : (pairConfig "one" "many").Accepted := accepted_builtConfig rfl rfl rfl
  have hnames := namesPlain_pairConfig "one" "many"
  obtain ⟨hsequential, hparallel⟩ := layout_pairConfig "one" "many"
  have hsome : (run (pairConfig "one" "many") .singlePerformanceParallel ⟨0, 0⟩
      apartTree).1.toOption.isSome = true := by
    -- Coupling is the one part that the kernel cannot run as it is written.
    unfold run processCounterpart processCategory processDataset
    simp only [alignDataset, alignCpu, coupleRows_eq_coupleGreedily]
    decide +kernel
  rcases hrun : run (pairConfig "one" "many") .singlePerformanceParallel ⟨0, 0⟩ apartTree with
    ⟨e | s, u⟩
  · rw [hrun] at hsome
    cases hsome
  · obtain ⟨hdistinct, htables⟩ := run_distinct haccepted hrun
    have hapart : (pairConfig "one" "many").KeepsApart .singlePerformanceParallel u := by
      refine keepsApart_of_folders haccepted hrun hnames fun c l k hc hl hk => ?_
      cases hc
      rw [hparallel, Except.ok.injEq] at hl
      rw [hsequential, Except.ok.injEq] at hk
      subst hl hk
      exact ⟨⟨by decide, by decide, by decide, by decide⟩,
        ⟨by decide, by decide, by decide, by decide⟩, by decide⟩
    obtain ⟨hnodup, hall⟩ := htables ((hdistinct hnames).mpr hapart)
    obtain ⟨l, hl, hdatasets⟩ := hall .singlePerformance (by decide)
    rw [hsequential, Except.ok.injEq] at hl
    subst hl
    obtain ⟨d, hd, htable⟩ := hdatasets (.named "d") List.mem_cons_self
    exact ⟨s, u, rfl, hnodup, d, hd, htable .ram⟩

/-- Two datasets, one of them called by the path of the other one's files. -/
def rootedConfig : Config :=
  builtConfig "/out" ⟨.singlePerformance, "one", [.named "d", ⟨"/out/one/d", "d", none⟩]⟩
    (exampleLayout .singlePerformanceParallel "many")

theorem exists_run_of_decide_nodup {config : Config} {category : Category} {t : FileTree}
    (h : (run config category ⟨0, 0⟩ t).1.toOption.map (fun s => decide s.outputs.Nodup) =
      some false) :
    ∃ s u, run config category ⟨0, 0⟩ t = (.ok s, u) ∧ ¬s.outputs.Nodup := by
  rcases hrun : run config category ⟨0, 0⟩ t with ⟨e | s, u⟩
  · rw [hrun] at h
    cases h
  · rw [hrun] at h
    exact ⟨s, u, rfl, of_decide_eq_false (Option.some.inj h)⟩

/-- Neither condition alone keeps a run from listing a path twice: two categories may have one
folder, and the name of a dataset may be a path to the files of another one. -/
theorem not_nodup_outputs :
    (¬∀ (config : Config) (category : Category) (now : Instant) (t u : FileTree) (s : RunSummary),
      config.Accepted → config.NamesPlain category → run config category now t = (.ok s, u) →
        s.outputs.Nodup) ∧
    ¬∀ (config : Config) (category : Category) (now : Instant) (t u : FileTree) (s : RunSummary),
      config.Accepted → config.KeepsApart category u → run config category now t = (.ok s, u) →
        s.outputs.Nodup := by
  constructor
  · intro h
    have hlisted : (run (pairConfig "one" "one") .singlePerformanceParallel ⟨0, 0⟩
        apartTree).1.toOption.map (fun s => decide s.outputs.Nodup) = some false := by
      unfold run processCounterpart processCategory processDataset
      simp only [alignDataset, alignCpu, coupleRows_eq_coupleGreedily]
      decide +kernel
    obtain ⟨s, u, hrun, hnot⟩ := exists_run_of_decide_nodup hlisted
    have haccepted : (pairConfig "one" "one").Accepted := accepted_builtConfig rfl rfl rfl
    exact hnot (h _ _ _ _ u s haccepted (namesPlain_pairConfig "one" "one") hrun)
  · intro h
    have hlisted : (run rootedConfig .singlePerformance ⟨0, 0⟩ apartTree).1.toOption.map
        (fun s => decide s.outputs.Nodup) = some false := by
      unfold run processCounterpart processCategory processDataset
      simp only [alignDataset, alignCpu, coupleRows_eq_coupleGreedily]
      decide +kernel
    obtain ⟨s, u, hrun, hnot⟩ := exists_run_of_decide_nodup hlisted
    have haccepted : rootedConfig.Accepted := accepted_builtConfig rfl rfl rfl
    have hapart : rootedConfig.KeepsApart .singlePerformance u := fun c l k hc => by cases hc
    exact hnot (h _ _ _ _ u s haccepted hapart hrun)

end BenchLog
