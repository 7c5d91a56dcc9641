/-
# What a run leaves in its files

A file has the content that was written last to its place. So if no two paths of a
run lead to one place, each file has in the end what the run wrote there. For the
tables of a dataset this is the dataset as its logs are aligned, before the run or
after it, since no run writes a log.

Key definitions: `FileTree.Writes`, `tableWrites`, `Config.Tabulates`.
Key theorems: `FileTree.Writes.readText_of_mem`, `exists_of_processCategory`,
`run_writes`.
-/
import BenchLog.Proofs.KeptLogs

namespace BenchLog

namespace FileTree

/-! ### Contents -/

variable {t u v : FileTree} {p : Path} {c : Content} {ps : List Path}
  {ws xs : List (Path × Content)} {text : List Char}

/-- One tree becomes another by writing the given contents, in this order;
directories may be made before, in between and behind. -/
inductive Writes : FileTree → List (Path × Content) → FileTree → Prop
  | done (t : FileTree) : Writes t [] t
  | directory {t u v : FileTree} {r : Route} {ws : List (Path × Content)} :
      t.makeDirectory r = .ok u → Writes u ws v → Writes t ws v
  | file {t u v : FileTree} {p : Path} {c : Content} {ws : List (Path × Content)} :
      t.write p c = .ok u → Writes u ws v → Writes t ((p, c) :: ws) v

theorem Writes.trans (h : Writes t ws u) (h' : Writes u xs v) : Writes t (ws ++ xs) v := by
  induction h with
  | done t => exact h'
  | directory hd _ ih => exact .directory hd (ih h')
  | file hw _ ih => exact .file hw (ih h')

theorem Writes.toEvolves (h : Writes t ws u) : t.Evolves (ws.map (·.1)) u := by
  induction h with
  | done t => exact .done t
  | directory hd _ ih => exact .directory hd ih
  | file hw _ ih => exact .file hw ih

theorem Evolves.exists_writes (h : t.Evolves ps u) :
    ∃ ws, t.Writes ws u ∧ ws.map (·.1) = ps := by
  induction h with
  | done t => exact ⟨[], .done t, rfl⟩
  | directory hd _ ih =>
    obtain ⟨ws, hws, hpaths⟩ := ih
    exact ⟨ws, .directory hd hws, hpaths⟩
  | @file t u v p c ps hw _ ih =>
    obtain ⟨ws, hws, rfl⟩ := ih
    exact ⟨(p, c) :: ws, .file hw hws, rfl⟩

/-- If no two paths lead to one place, a file has the content that was written to it. -/
theorem Writes.exists_of_mem (h : t.Writes ws u)
    (hplaces : ((ws.map (·.1)).map u.locate).Nodup) (hmem : (p, c) ∈ ws) :
    ∃ place, u.locate p = .ok place ∧ u.content? place = some c ∧ p.ending = .step := by
  induction h with
  | done t => cases hmem
  | directory _ _ ih => exact ih hplaces hmem
  | @file t u v p' c' ws hwrite hrest ih =>
    rw [List.map_cons, List.map_cons, List.nodup_cons] at hplaces
    rcases List.mem_cons.mp hmem with he | hmem
    · cases he
      have hu := Evolves.extends_of_write hwrite
      obtain ⟨place, hl, hd, hending, rfl⟩ := exists_of_write hwrite
      have hplace : v.locate p = .ok place := hrest.toEvolves.toExtends.locate (hu.locate hl)
      refine ⟨place, hplace, ?_, hending⟩
      rw [hrest.toEvolves.content?_eq fun q hq hsame => ?_]
      · exact content?_eq_some_iff.mpr (Extends.find?_put_self hd _)
      · exact hplaces.1 (hplace.trans hsame.symm ▸ List.mem_map_of_mem hq)
    · exact ih hplaces.2 hmem

theorem Writes.readText_of_mem (h : t.Writes ws u)
    (hplaces : ((ws.map (·.1)).map u.locate).Nodup) (hmem : (p, .text text) ∈ ws) :
    u.readText p = .ok text :=
  readText_eq_ok_iff.mpr (h.exists_of_mem hplaces hmem)

end FileTree

/-! ### What is written of a dataset -/

/-- The tables of a dataset and where they go. -/
def tableWrites (dir : Path) (name : String) (d : AlignedDataset) : List (Path × Content) :=
  Metric.all.map fun m => (artifact dir name (m.stem ++ ".csv"), .text (d.table m).toCsv)

namespace FileTask

variable {t u : FileTree}

theorem writes_of_save {p : Path} {c : Content} (h : save p c t = (.ok (), u)) :
    t.Writes [(p, c)] u := by
  obtain ⟨_, v, hparent, hwrite⟩ := exists_of_bind_ok h
  obtain ⟨hv, -⟩ := makeParent_makes p hparent
  obtain ⟨ws, hws, hnil⟩ := hv.exists_writes
  rw [List.map_eq_nil_iff] at hnil
  subst hnil
  cases hw : v.write p c with
  | error e =>
    rw [write, hw] at hwrite
    cases hwrite
  | ok w =>
    rw [write, hw] at hwrite
    cases hwrite
    exact hws.trans (.file hw (.done u))

theorem exists_of_mapM {f : α → FileTask β} : ∀ {as : List α} {bs : List β} {t u : FileTree},
    as.mapM f t = (.ok bs, u) → ∀ a ∈ as, ∃ v b w, f a v = (.ok b, w)
  | [], _, _, _, _ => nofun
  | a :: as, _, t, _, h => by
    rw [List.mapM_cons] at h
    obtain ⟨b, v, hb, h⟩ := exists_of_bind_ok h
    obtain ⟨bs, w, hbs, -⟩ := exists_of_bind_ok h
    exact List.forall_mem_cons.mpr ⟨⟨t, b, v, hb⟩, exists_of_mapM hbs⟩

/-- A repeated task writes what it writes for each member. -/
theorem writes_of_mapM {f : α → FileTask β} {writes : α → List (Path × Content)}
    (hf : ∀ a t b u, f a t = (.ok b, u) → t.Writes (writes a) u) :
    ∀ {as : List α} {bs : List β} {t u : FileTree}, as.mapM f t = (.ok bs, u) →
      t.Writes (as.flatMap writes) u
  | [], _, t, _, h => by
    rw [List.mapM_nil] at h
    cases h
    exact .done t
  | a :: as, _, _, _, h => by
    rw [List.mapM_cons] at h
    obtain ⟨b, v, hb, h⟩ := exists_of_bind_ok h
    obtain ⟨bs, w, hbs, hpure⟩ := exists_of_bind_ok h
    cases hpure
    exact (hf a _ b v hb).trans (writes_of_mapM hf hbs)

end FileTask

theorem writes_of_writeAligned {name : String} {d : AlignedDataset} {dir : Path} {t u : FileTree}
    {ps : List Path} (h : writeAligned name d dir t = (.ok ps, u)) :
    t.Writes (tableWrites dir name d) u := by
  rw [tableWrites, List.map_eq_flatMap]
  refine FileTask.writes_of_mapM (fun m t p u hm => ?_) h
  obtain ⟨_, v, hsave, hpure⟩ := FileTask.exists_of_bind_ok hm
  cases hpure
  exact FileTask.writes_of_save hsave

/-- A dataset that was processed was aligned, and its tables were written. -/
theorem exists_of_processDataset {folder : String} {input dir plots : Path} {style : ChartStyle}
    {l : DatasetLayout} {t u : FileTree} {r : ProcessedDataset}
    (h : processDataset folder input dir plots style l t = (.ok r, u)) :
    ∃ d ws, alignDataset t l input folder = .ok d ∧ t.Writes ws u ∧
      ws.map (·.1) = datasetOutputs dir plots l ∧ tableWrites dir l.name d ⊆ ws := by
  obtain ⟨d, v, halign, h⟩ := FileTask.exists_of_bind_ok h
  obtain ⟨ps, w, htables, h⟩ := FileTask.exists_of_bind_ok h
  obtain ⟨chart, x, hchart, hpure⟩ := FileTask.exists_of_bind_ok h
  cases hpure
  have hv : (alignDataset t l input folder, t) = (.ok d, v) := halign
  rw [Prod.mk.injEq] at hv
  obtain ⟨hd, rfl⟩ := hv
  obtain ⟨hpicture, -⟩ := renderRamUsage_makes l.name d plots style hchart
  obtain ⟨ws, hws, hpaths⟩ := hpicture.exists_writes
  refine ⟨d, tableWrites dir l.name d ++ ws, hd, (writes_of_writeAligned htables).trans hws, ?_,
    List.subset_append_left _ _⟩
  rw [List.map_append, hpaths, tableWrites, List.map_map]
  rfl

/-- Each dataset is aligned at the end as it was at its turn, and its tables are among what
was written. -/
def Tabulated (ds : List DatasetLayout) (folder : String) (input dir : Path) (u : FileTree)
    (ws : List (Path × Content)) : Prop :=
  ∀ l ∈ ds, ∃ d, alignDataset u l input folder = .ok d ∧ tableWrites dir l.name d ⊆ ws

theorem Tabulated.mono {ds : List DatasetLayout} {folder : String} {input dir : Path}
    {u v : FileTree} {ws xs : List (Path × Content)} {ps : List Path}
    (h : Tabulated ds folder input dir u ws) (hu : u.Evolves ps v) (hps : ∀ p ∈ ps, p.IsOutput)
    (hsubset : ws ⊆ xs) : Tabulated ds folder input dir v xs := by
  intro l hl
  obtain ⟨d, hd, htables⟩ := h l hl
  exact ⟨d, alignDataset_of_evolves hu hps hd, List.Subset.trans htables hsubset⟩

theorem isOutput_of_mem_flatMap {dir plots p : Path} {ds : List DatasetLayout}
    (h : p ∈ ds.flatMap (datasetOutputs dir plots)) : p.IsOutput := by
  obtain ⟨l, -, hp⟩ := List.mem_flatMap.mp h
  exact .inl (isArtifact_of_mem_datasetOutputs hp)

theorem exists_of_mapM_processDataset {folder : String} {input dir plots : Path}
    {style : ChartStyle} : ∀ {ds : List DatasetLayout} {rs : List ProcessedDataset}
    {t u : FileTree}, ds.mapM (processDataset folder input dir plots style) t = (.ok rs, u) →
      ∃ ws, t.Writes ws u ∧ ws.map (·.1) = ds.flatMap (datasetOutputs dir plots) ∧
        Tabulated ds folder input dir u ws
  | [], _, t, _, h => by
    rw [List.mapM_nil] at h
    cases h
    exact ⟨[], .done t, rfl, nofun⟩
  | l :: ds, _, t, u, h => by
    rw [List.mapM_cons] at h
    obtain ⟨r, v, hr, h⟩ := FileTask.exists_of_bind_ok h
    obtain ⟨rs, w, hrs, hpure⟩ := FileTask.exists_of_bind_ok h
    cases hpure
    obtain ⟨d, ws, hd, hws, hpaths, htables⟩ := exists_of_processDataset hr
    obtain ⟨xs, hxs, hmore, hall⟩ := exists_of_mapM_processDataset hrs
    have hpaths' : (ws ++ xs).map (·.1) = (l :: ds).flatMap (datasetOutputs dir plots) := by
      rw [List.map_append, hpaths, hmore, List.flatMap_cons]
    have hoverall := (hws.trans hxs).toEvolves
    refine ⟨ws ++ xs, hws.trans hxs, hpaths', List.forall_mem_cons.mpr ⟨⟨d, ?_, ?_⟩, ?_⟩⟩
    · exact alignDataset_of_evolves hoverall
        (fun p hp => isOutput_of_mem_flatMap (hpaths' ▸ hp)) hd
    · exact List.Subset.trans htables (List.subset_append_left _ _)
    · exact hall.mono (.done u) nofun (List.subset_append_right _ _)

/-! ### Categories and runs -/

section Run

variable {config : Config} {category c : Category} {l k : CategoryLayout} {t u : FileTree}
  {s : RunSummary} {now : Instant}

/-- The datasets of a layout are tabulated where its tables go. -/
def Config.Tabulates (config : Config) (l : CategoryLayout) (u : FileTree)
    (ws : List (Path × Content)) : Prop :=
  Tabulated l.datasets l.folder (config.logs l) (config.tables l) u ws

theorem exists_of_processCategory {r : ProcessedCategory} (hl : config.layout category = .ok l)
    (h : processCategory config category t = (.ok r, u)) :
    ∃ ws, t.Writes ws u ∧ ws.map (·.1) = r.outputs ∧ (∀ p ∈ r.outputs, p.IsOutput) ∧
      config.Tabulates l u ws := by
  obtain ⟨b, -, hof⟩ := isOf_of_processCategory hl h
  have hartifacts : ∀ p ∈ r.outputs, p.IsOutput := fun p hp =>
    .inl (Config.isArtifact_of_mem_categoryOutputs (hof.outputs ▸ hp))
  rw [processCategory_eq hl] at h
  obtain ⟨rs, v, hrs, h⟩ := FileTask.exists_of_bind_ok h
  obtain ⟨timeline, w, htimeline, hpure⟩ := FileTask.exists_of_bind_ok h
  cases hpure
  obtain ⟨ws, hws, hpaths, hall⟩ := exists_of_mapM_processDataset hrs
  obtain ⟨-, -, hps, -⟩ := exists_of_processTimeline htimeline
  obtain ⟨xs, hxs, hmore⟩ := hps.exists_writes
  have hoverall : (ws ++ xs).map (·.1) = (ProcessedCategory.mk rs timeline).outputs := by
    rw [List.map_append, hpaths, hmore, ProcessedCategory.outputs, flatMap_outputs hof.datasets]
  refine ⟨ws ++ xs, hws.trans hxs, hoverall, hartifacts, ?_⟩
  exact hall.mono hps (fun p hp => hartifacts p (List.mem_append_right _ hp))
    (List.subset_append_left _ _)

/-- A dataset that is compared has a sequential one of its name. -/
theorem exists_of_compareProcessed {sequential : List ProcessedDataset} {dir plots : Path}
    {d : ProcessedDataset} {ps : List Path}
    (h : compareProcessed config category c sequential dir plots d t = (.ok ps, u)) :
    ∃ s ∈ sequential, s.name = d.name := by
  cases hs : sequential.find? (·.name == d.name) with
  | none =>
    rw [compareProcessed, hs] at h
    cases h
  | some s => exact ⟨s, List.mem_of_find?_eq_some hs, by simpa using List.find?_some hs⟩

theorem exists_of_processCounterpart {own : ProcessedCategory}
    {r : ProcessedCategory × List Path} (hl : config.layout category = .ok l)
    (hk : config.layout c = .ok k) (hown : own.datasets.map (·.name) = l.datasets.map (·.name))
    (h : processCounterpart config category c own t = (.ok r, u)) :
    ∃ ws, t.Writes ws u ∧ ws.map (·.1) = r.1.outputs ++ r.2 ∧
      (∀ p ∈ r.1.outputs ++ r.2, p.IsOutput) ∧ config.Tabulates k u ws ∧
      ∀ d ∈ l.datasets, ∃ d' ∈ k.datasets, d'.name = d.name := by
  rw [processCounterpart_eq hl] at h
  obtain ⟨sequential, v, hsequential, h⟩ := FileTask.exists_of_bind_ok h
  obtain ⟨made, w, hmade, hpure⟩ := FileTask.exists_of_bind_ok h
  cases hpure
  obtain ⟨ws, hws, hpaths, houtputs, hall⟩ := exists_of_processCategory hk hsequential
  obtain ⟨hps, hcompared⟩ :=
    compareAll_makes config category c sequential.datasets own.datasets hown hmade
  obtain ⟨xs, hxs, hmore⟩ := hps.exists_writes
  have hcomparedOutputs : ∀ p ∈ config.comparedOutputs l, p.IsOutput := fun p hp =>
    .inl (Config.isArtifact_of_mem_comparedOutputs hp)
  refine ⟨ws ++ xs, hws.trans hxs, ?_, ?_, ?_, ?_⟩
  · rw [List.map_append, hpaths, hmore, hcompared]
  · rw [hcompared]
    exact List.forall_mem_append.mpr ⟨houtputs, hcomparedOutputs⟩
  · exact hall.mono hps hcomparedOutputs (List.subset_append_left _ _)
  · intro d hd
    have hname : d.name ∈ own.datasets.map (·.name) := hown ▸ List.mem_map_of_mem hd
    obtain ⟨o, ho, hoName⟩ := List.mem_map.mp hname
    obtain ⟨_, _, _, hcompare⟩ := FileTask.exists_of_mapM hmade o ho
    obtain ⟨s, hs, hsName⟩ := exists_of_compareProcessed hcompare
    obtain ⟨_, -, hof⟩ := isOf_of_processCategory hk hsequential
    have hmem : s.name ∈ k.datasets.map (·.name) := map_name hof.datasets ▸ List.mem_map_of_mem hs
    obtain ⟨d', hd', hdName⟩ := List.mem_map.mp hmem
    exact ⟨d', hd', hdName.trans (hsName.trans hoName)⟩

/-- A run that succeeds writes what its summary lists; among it are the tables of all datasets
as they are aligned at the end, and each dataset that is compared has a sequential one. -/
theorem run_writes (h : run config category now t = (.ok s, u)) :
    ∃ l ws, config.layout category = .ok l ∧ t.Writes ws u ∧ ws.map (·.1) = s.outputs ∧
      (∀ c ∈ category.processed, ∃ k, config.layout c = .ok k ∧ config.Tabulates k u ws) ∧
      ∀ c k, category.counterpart? = some c → config.layout c = .ok k →
        ∀ d ∈ l.datasets, ∃ d' ∈ k.datasets, d'.name = d.name := by
  obtain ⟨own, v, hown, hrest⟩ := FileTask.exists_of_bind_ok h
  obtain ⟨l, hl⟩ := exists_layout_of_processCategory hown
  obtain ⟨ws, hws, hpaths, -, hall⟩ := exists_of_processCategory hl hown
  have hsummary : ∀ p ∈ [config.summaryPath l], p.IsOutput := by
    intro p hp
    rw [List.mem_singleton.mp hp]
    exact .inr (nameEnds_summaryPath config l)
  cases hc : category.counterpart? with
  | none =>
    rw [hc] at hrest
    obtain ⟨hps, houtputs, -⟩ := exists_of_writeSummary hl hrest
    obtain ⟨xs, hxs, hmore⟩ := hps.exists_writes
    refine ⟨l, ws ++ xs, hl, hws.trans hxs, ?_, ?_, nofun⟩
    · rw [List.map_append, hpaths, hmore, houtputs]
    · rw [Category.processed, hc]
      refine List.forall_mem_singleton.mpr ⟨l, hl, ?_⟩
      exact hall.mono hps hsummary (List.subset_append_left _ _)
  | some c =>
    rw [hc] at hrest
    obtain ⟨r, w, hr, hrest⟩ := FileTask.exists_of_bind_ok hrest
    obtain ⟨sequential, x, hsequential, -⟩ := FileTask.exists_of_bind_ok hr
    obtain ⟨k, hk⟩ := exists_layout_of_processCategory hsequential
    obtain ⟨_, -, hof⟩ := isOf_of_processCategory hl hown
    obtain ⟨ys, hys, hmiddle, hcounterpart, hall', hshared⟩ :=
      exists_of_processCounterpart hl hk (map_name hof.datasets) hr
    obtain ⟨hps, houtputs, -⟩ := exists_of_writeSummary hl hrest
    obtain ⟨xs, hxs, hmore⟩ := hps.exists_writes
    refine ⟨l, ws ++ (ys ++ xs), hl, hws.trans (hys.trans hxs), ?_, ?_, ?_⟩
    · rw [List.map_append, List.map_append, hpaths, hmiddle, hmore, houtputs]
      simp only [List.append_assoc]
    · have hlater : ∀ p ∈ (ys ++ xs).map (·.1), p.IsOutput := by
        rw [List.map_append, hmiddle, hmore]
        exact List.forall_mem_append.mpr ⟨hcounterpart, hsummary⟩
      have hsubset : ys ⊆ ws ++ (ys ++ xs) :=
        List.Subset.trans (List.subset_append_left ys xs) (List.subset_append_right ws _)
      rw [Category.processed, hc]
      refine List.forall_mem_cons.mpr ⟨⟨l, hl, ?_⟩, List.forall_mem_singleton.mpr ⟨k, hk, ?_⟩⟩
      · exact hall.mono (hys.trans hxs).toEvolves hlater (List.subset_append_left _ _)
      · exact hall'.mono hps hsummary hsubset
    · intro c' k' hc' hk'
      rw [Option.some.injEq] at hc'
      subst hc'
      rw [hk, Except.ok.injEq] at hk'
      subst hk'
      exact hshared

end Run

end BenchLog
