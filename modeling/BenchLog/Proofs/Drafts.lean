/-
# What a task saves, told beforehand

Once the logs are read, it is settled which contents a task saves where, in which order, and
what it gives in the end: this is its draft. Saving a draft goes on file by file and stops at
the first file that cannot be saved (`Draft.Leads`, `FileTask.Saves`). A task that reads logs
on its way follows the draft that the tree it leaves tells of it, since logs are kept
(`FileTask.Follows`). So two runs are compared by comparing their drafts, and what a run has
saved when it fails is the front of its draft.

Key definitions: `Draft`, `Draft.Plans`, `Draft.Leads`, `FileTask.Saves`, `FileTask.Follows`,
`datasetDraft`, `timelineDraft`, `comparisonDraft`.
Key theorems: `Draft.Leads.bind`, `FileTask.Saves.mapM`, `FileTask.Follows.mapM`,
`processDataset_follows`, `writeTimeline_follows`, `compareProcessed_follows`,
`writeSummary_saves`.
-/
import BenchLog.Proofs.SaveOrder
import BenchLog.Proofs.WrittenTables

namespace BenchLog

/-- The files that a task saves, in order, and what it gives when they are saved. -/
structure Draft (α : Type) where
  saves : List (Path × Content)
  result : Except Error α

namespace Draft

variable {α β : Type}

/-- Nothing is saved. -/
def ofExcept (r : Except Error α) : Draft α :=
  ⟨[], r⟩

/-- One file is saved. -/
def save (p : Path) (c : Content) : Draft Unit :=
  ⟨[(p, c)], .ok ()⟩

/-- One draft behind the other, unless the first one ends in an error. -/
def andThen (d : Draft α) (f : α → Draft β) : Draft β :=
  match d.result with
  | .error e => ⟨d.saves, .error e⟩
  | .ok a => ⟨d.saves ++ (f a).saves, (f a).result⟩

/-- The drafts of all members in turn. -/
def all (f : α → Draft β) : List α → Draft (List β)
  | [] => ofExcept (.ok [])
  | a :: as => (f a).andThen fun b => (all f as).andThen fun bs => ofExcept (.ok (b :: bs))

section Sequence

variable {d : Draft α} {f : α → Draft β} {r : Except Error α} {a : α} {b : β} {e : Error}
  {zs : List (Path × Content)}

theorem andThen_of_error (h : d.result = .error e) (f : α → Draft β) :
    d.andThen f = ⟨d.saves, .error e⟩ := by
  unfold andThen
  rw [h]

theorem andThen_of_ok (h : d.result = .ok a) (f : α → Draft β) :
    d.andThen f = ⟨d.saves ++ (f a).saves, (f a).result⟩ := by
  unfold andThen
  rw [h]

theorem ofExcept_ok_andThen (a : α) (f : α → Draft β) : (ofExcept (.ok a)).andThen f = f a := rfl

theorem andThen_eq_ok_iff : d.andThen f = ⟨zs, .ok b⟩ ↔
    ∃ a ws xs, d = ⟨ws, .ok a⟩ ∧ f a = ⟨xs, .ok b⟩ ∧ ws ++ xs = zs := by
  obtain ⟨ws, r⟩ := d
  cases r with
  | error e => exact iff_of_false nofun nofun
  | ok a =>
    rw [andThen_of_ok rfl]
    constructor
    · intro h
      rw [Draft.mk.injEq] at h
      exact ⟨a, ws, (f a).saves, rfl, by rw [← h.2], h.1⟩
    · rintro ⟨_, _, xs, he, hf, rfl⟩
      cases he
      rw [hf]

theorem ofExcept_andThen_eq_ok_iff :
    (ofExcept r).andThen f = ⟨zs, .ok b⟩ ↔ ∃ a, r = .ok a ∧ f a = ⟨zs, .ok b⟩ := by
  cases r with
  | error e => exact iff_of_false nofun nofun
  | ok a => simp [ofExcept_ok_andThen]

/-- What holds of the files of both drafts holds of those of both in sequence. -/
theorem forall_mem_andThen {P : Path × Content → Prop} (hd : ∀ y ∈ d.saves, P y)
    (hf : ∀ a, ∀ y ∈ (f a).saves, P y) : ∀ y ∈ (d.andThen f).saves, P y := by
  cases hr : d.result with
  | error e =>
    rw [andThen_of_error hr]
    exact hd
  | ok a =>
    rw [andThen_of_ok hr]
    exact List.forall_mem_append.mpr ⟨hd, hf a⟩

end Sequence

/-! ### The drafts of all members -/

section All

variable {f : α → Draft β} {as as' : List α} {bs : List β} {ws : List (Path × Content)}

/-- The drafts of all members are the draft of each. -/
theorem all_eq_ok_iff : all f as = ⟨ws, .ok bs⟩ ↔ ∃ made : List (β × List (Path × Content)),
    List.Forall₂ (fun a y => f a = ⟨y.2, .ok y.1⟩) as made ∧ made.map (·.1) = bs ∧
      made.flatMap (·.2) = ws := by
  induction as generalizing bs ws with
  | nil =>
    constructor
    · intro h
      cases h
      exact ⟨[], .nil, rfl, rfl⟩
    · rintro ⟨made, hmade, rfl, rfl⟩
      cases hmade
      rfl
  | cons a as ih =>
    rw [all, andThen_eq_ok_iff]
    constructor
    · rintro ⟨b, xs, ys, ha, hall, rfl⟩
      obtain ⟨bs', zs, _, hbs, hpure, rfl⟩ := andThen_eq_ok_iff.mp hall
      cases hpure
      obtain ⟨made, hmade, rfl, rfl⟩ := ih.mp hbs
      refine ⟨(b, xs) :: made, .cons ha hmade, rfl, ?_⟩
      rw [List.flatMap_cons, List.append_nil]
    · rintro ⟨_, hmade, rfl, rfl⟩
      cases hmade with
      | @cons _ y _ made ha hmade =>
        refine ⟨y.1, y.2, made.flatMap (·.2), ha, ?_, by rw [List.flatMap_cons]⟩
        refine andThen_eq_ok_iff.mpr ⟨_, _, [], ih.mpr ⟨made, hmade, rfl, rfl⟩, rfl, ?_⟩
        rw [List.append_nil]

/-- The drafts of all members end in an error at the first one that does. -/
theorem exists_of_all_eq_error {e : Error} (h : (all f as).result = .error e) :
    ∃ front a back bs ws, as = front ++ a :: back ∧ all f front = ⟨ws, .ok bs⟩ ∧
      (f a).result = .error e ∧ (all f as).saves = ws ++ (f a).saves := by
  induction as with
  | nil => cases h
  | cons a as ih =>
    cases ha : (f a).result with
    | error e' =>
      rw [all, andThen_of_error ha] at h ⊢
      cases h
      exact ⟨[], a, as, [], [], rfl, rfl, ha, rfl⟩
    | ok b =>
      rw [all, andThen_of_ok ha] at h ⊢
      cases hall : (all f as).result with
      | ok bs =>
        rw [andThen_of_ok hall] at h
        cases h
      | error e' =>
        rw [andThen_of_error hall] at h ⊢
        cases h
        obtain ⟨front, a', back, bs, ws, rfl, hfront, ha', hsaves⟩ := ih hall
        refine ⟨a :: front, a', back, b :: bs, (f a).saves ++ ws, rfl, ?_, ha', ?_⟩
        · rw [all, andThen_of_ok ha, hfront, andThen_of_ok rfl, ofExcept, List.append_nil]
        · rw [hsaves, List.append_assoc]

end All

/-! ### Where the files of a draft go -/

/-- The files of a draft are the first of those planned, and all of them if it has a result. -/
structure Plans (d : Draft α) (ps : List Path) : Prop where
  isPrefix : d.saves.map (·.1) <+: ps
  map_fst : ∀ a, d.result = .ok a → d.saves.map (·.1) = ps

namespace Plans

variable {d : Draft α} {f : α → Draft β} {ps qs : List Path}

theorem ofExcept (r : Except Error α) : (Draft.ofExcept r).Plans [] :=
  ⟨List.prefix_rfl, fun _ _ => rfl⟩

theorem save (p : Path) (c : Content) : (Draft.save p c).Plans [p] :=
  ⟨List.prefix_rfl, fun _ _ => rfl⟩

/-- A draft that fails at once. -/
theorem fails (e : Error) (ps : List Path) : (⟨[], .error e⟩ : Draft α).Plans ps :=
  ⟨List.nil_prefix, nofun⟩

theorem andThen (hd : d.Plans ps) (hf : ∀ a, d.result = .ok a → (f a).Plans qs) :
    (d.andThen f).Plans (ps ++ qs) := by
  cases hr : d.result with
  | error e =>
    rw [andThen_of_error hr]
    exact ⟨hd.isPrefix.trans (List.prefix_append _ _), nofun⟩
  | ok a =>
    rw [andThen_of_ok hr]
    have hfront := hd.map_fst a hr
    refine ⟨?_, fun b hb => ?_⟩
    · rw [List.map_append, hfront]
      exact (List.prefix_append_right_inj ps).mpr (hf a hr).isPrefix
    · rw [List.map_append, hfront, (hf a hr).map_fst b hb]

theorem all {plan : α → List Path} (hf : ∀ a, (f a).Plans (plan a)) (as : List α) :
    (Draft.all f as).Plans (as.flatMap plan) := by
  induction as with
  | nil => exact ofExcept _
  | cons a as ih =>
    rw [List.flatMap_cons, ← List.append_nil (as.flatMap plan)]
    exact (hf a).andThen fun b _ => ih.andThen fun bs _ => ofExcept _

theorem isOutput (hd : d.Plans ps) (hps : ∀ p ∈ ps, p.IsOutput) : ∀ y ∈ d.saves, y.1.IsOutput :=
  fun _ hy => hps _ (hd.isPrefix.subset (List.mem_map_of_mem hy))

end Plans

end Draft

/-! ### Saving a draft -/

theorem FileTree.Evolves.writes_nil {t u : FileTree} (h : t.Evolves [] u) : t.Writes [] u := by
  obtain ⟨ws, hws, hpaths⟩ := h.exists_writes
  rwa [List.map_eq_nil_iff.mp hpaths] at hws

theorem FileTask.writes_of_save_fails {p : Path} {c : Content} {t : FileTree}
    (h : ∀ u, save p c t ≠ (.ok (), u)) : t.Writes [] (save p c t).2 := by
  have hmade := (evolves_makeParent p t).writes_nil
  rcases hparent : makeParent p t with ⟨e | _, v⟩
  · rw [hparent] at hmade
    rw [save, bind_of_error hparent]
    exact hmade
  · rw [hparent] at hmade
    rw [save, bind_of_ok hparent] at h ⊢
    cases hwrite : v.write p c with
    | ok w =>
      rw [write, hwrite] at h
      exact absurd rfl (h w)
    | error e =>
      rw [write, hwrite]
      exact hmade

/-- The same logs are kept in the same tree. -/
theorem FileTree.Same.keeps {t u : FileTree} (h : t.Same u) : t.Keeps u :=
  ⟨h.toExtends, h.workingDirectory, fun _ _ name _ rest => h.content?_eq (name :: rest)⟩

namespace Draft

variable {α β : Type} {t u v : FileTree} {d : Draft α} {f : α → Draft β} {a : α}
  {r : Except Error α} {e : Error}

/-- Saving a draft leads from a tree to an outcome. Either all files are saved, and the draft
gives its result, or those in front of one that cannot be saved; then the sizes of tables are
not what is told to be wrong. -/
inductive Leads (d : Draft α) (t : FileTree) (r : Except Error α) (u : FileTree) : Prop
  | done : FileTask.saveAll d.saves t = (.ok (), u) → r = d.result → Leads d t r u
  | stopped {ws rest : List (Path × Content)} {p : Path} {c : Content} {v : FileTree} {e : Error} :
      d.saves = ws ++ (p, c) :: rest → FileTask.saveAll ws t = (.ok (), v) →
        (∀ w, FileTask.save p c v ≠ (.ok (), w)) → u = (FileTask.save p c v).2 →
          r = .error e → e.isMismatch = false → Leads d t r u

namespace Leads

theorem ofExcept (r : Except Error α) (t : FileTree) : (Draft.ofExcept r).Leads t r t :=
  .done rfl rfl

theorem save (p : Path) (c : Content) (t : FileTree) :
    (Draft.save p c).Leads t (FileTask.save p c t).1 (FileTask.save p c t).2 := by
  rcases h : FileTask.save p c t with ⟨e | _, u⟩
  · have hfails : ∀ w, FileTask.save p c t ≠ (.ok (), w) := by
      rw [h]
      exact nofun
    have hfirst : (Draft.save p c).saves = [] ++ [(p, c)] := rfl
    exact .stopped hfirst rfl hfails (by rw [h]) rfl (FileTask.isMismatch_of_save h)
  · exact .done (FileTask.saveAll_cons_eq_ok_iff.mpr ⟨u, h, rfl⟩) rfl

theorem andThen_of_error (h : d.Leads t (.error e) u) (f : α → Draft β) :
    (d.andThen f).Leads t (.error e) u := by
  cases h with
  | done hsaved hr =>
    rw [Draft.andThen_of_error hr.symm]
    exact .done hsaved rfl
  | @stopped ws rest p c v e' hsaves hws hfails hu he hmismatch =>
    cases he
    have hmore : ∃ xs, (d.andThen f).saves = d.saves ++ xs := by
      cases hr : d.result with
      | error e => exact ⟨[], by rw [Draft.andThen_of_error hr, List.append_nil]⟩
      | ok a => exact ⟨(f a).saves, by rw [Draft.andThen_of_ok hr]⟩
    obtain ⟨xs, hxs⟩ := hmore
    have hboth : (d.andThen f).saves = ws ++ (p, c) :: (rest ++ xs) := by
      rw [hxs, hsaves, List.append_assoc, List.cons_append]
    exact .stopped hboth hws hfails hu rfl hmismatch

theorem andThen_of_ok {r : Except Error β} (h : d.Leads t (.ok a) u) (hf : (f a).Leads u r v) :
    (d.andThen f).Leads t r v := by
  cases h with
  | done hsaved hr =>
    rw [Draft.andThen_of_ok hr.symm]
    cases hf with
    | done hsaved' hr' => exact .done (FileTask.saveAll_append hsaved hsaved') hr'
    | @stopped ws rest p c w e hsaves hws hfails hv he hmismatch =>
      have hboth : d.saves ++ (f a).saves = (d.saves ++ ws) ++ (p, c) :: rest := by
        rw [hsaves, List.append_assoc]
      exact .stopped hboth (FileTask.saveAll_append hsaved hws) hfails hv he hmismatch
  | stopped _ _ _ _ he _ => cases he

/-- In sequence, the files of the second draft come behind those of the first. -/
theorem bind {m : FileTask α} {g : α → FileTask β} (hm : d.Leads t (m t).1 (m t).2)
    (hg : ∀ a u, m t = (.ok a, u) → (f a).Leads u (g a u).1 (g a u).2) :
    (d.andThen f).Leads t ((m >>= g) t).1 ((m >>= g) t).2 := by
  rw [FileTask.bind_eq]
  rcases h : m t with ⟨e | a, u⟩
  · rw [h] at hm
    exact hm.andThen_of_error f
  · rw [h] at hm
    exact hm.andThen_of_ok (hg a u h)

theorem eq_of_ok (h : d.Leads t (.ok a) u) :
    d = ⟨d.saves, .ok a⟩ ∧ FileTask.saveAll d.saves t = (.ok (), u) := by
  cases h with
  | done hsaved hr => exact ⟨by rw [hr], hsaved⟩
  | stopped _ _ _ _ he _ => cases he

/-- If all files can be saved, they are. -/
theorem eq_of_saveAll (h : d.Leads t r u) (hsaved : FileTask.saveAll d.saves t = (.ok (), v)) :
    r = d.result ∧ u = v := by
  cases h with
  | done hu hr =>
    rw [hu, Prod.mk.injEq] at hsaved
    exact ⟨hr, hsaved.2⟩
  | stopped hsaves hws hfails _ _ _ =>
    rw [hsaves] at hsaved
    obtain ⟨w, hw, hrest⟩ := FileTask.saveAll_append_eq_ok_iff.mp hsaved
    rw [hws, Prod.mk.injEq] at hw
    obtain ⟨-, rfl⟩ := hw
    obtain ⟨x, hx, -⟩ := FileTask.saveAll_cons_eq_ok_iff.mp hrest
    exact absurd hx (hfails x)

/-- The first files of the draft are written: all of them, and the draft gives its result, or
fewer, and then the sizes of tables are not what is told to be wrong. -/
theorem exists_writes (h : d.Leads t r u) :
    ∃ ws, t.Writes ws u ∧ (ws = d.saves ∧ r = d.result ∨
      NoMismatch r ∧ (∀ a, r ≠ .ok a) ∧ ∃ y rest, d.saves = ws ++ y :: rest) := by
  cases h with
  | done hsaved hr => exact ⟨d.saves, FileTask.writes_of_saveAll hsaved, .inl ⟨rfl, hr⟩⟩
  | @stopped ws rest p c v e hsaves hws hfails hu he hmismatch =>
    rw [he]
    refine ⟨ws, ?_, .inr ⟨noMismatch_error hmismatch, nofun, (p, c), rest, hsaves⟩⟩
    rw [hu, ← List.append_nil ws]
    exact (FileTask.writes_of_saveAll hws).trans (FileTask.writes_of_save_fails hfails)

/-- Logs are kept where the files of a draft of outputs are saved. -/
theorem keeps (h : d.Leads t r u) (hd : ∀ y ∈ d.saves, y.1.IsOutput) : t.Keeps u := by
  obtain ⟨ws, hws, hsaves⟩ := h.exists_writes
  have hsubset : ws ⊆ d.saves := by
    rcases hsaves with ⟨rfl, -⟩ | ⟨-, -, y, rest, hsaves⟩
    · exact List.Subset.refl _
    · rw [hsaves]
      exact List.subset_append_left _ _
  refine hws.toEvolves.keeps fun p hp => ?_
  obtain ⟨y, hy, rfl⟩ := List.mem_map.mp hp
  exact hd y (hsubset hy)

end Leads

end Draft

namespace FileTask

variable {α β : Type} {t u : FileTree}

/-! ### Tasks that do not look at files -/

/-- A task saves a draft, from whichever tree. -/
def Saves (m : FileTask α) (d : Draft α) : Prop :=
  ∀ t, d.Leads t (m t).1 (m t).2

namespace Saves

variable {m : FileTask α} {d : Draft α} {f : α → FileTask β} {g : α → Draft β}

/-- The task succeeds just when the files of the draft can be saved and the draft has a result. -/
theorem eq_ok_iff (hm : m.Saves d) {a : α} :
    m t = (.ok a, u) ↔ ∃ ws, d = ⟨ws, .ok a⟩ ∧ saveAll ws t = (.ok (), u) := by
  have hleads := hm t
  constructor
  · intro h
    rw [h] at hleads
    exact ⟨d.saves, hleads.eq_of_ok⟩
  · rintro ⟨ws, rfl, hws⟩
    obtain ⟨hresult, htree⟩ := hleads.eq_of_saveAll hws
    exact Prod.ext hresult htree

theorem pure (a : α) : Saves (Pure.pure a) (.ofExcept (.ok a)) :=
  fun t => .ofExcept _ t

theorem ofExcept (r : Except Error α) : (FileTask.ofExcept r).Saves (.ofExcept r) :=
  fun t => .ofExcept r t

theorem save (p : Path) (c : Content) : (FileTask.save p c).Saves (.save p c) :=
  fun t => .save p c t

theorem bind (hm : m.Saves d) (hf : ∀ a, (f a).Saves (g a)) : (m >>= f).Saves (d.andThen g) :=
  fun t => (hm t).bind fun a u _ => hf a u

/-- A repeated task saves the files of each member in turn. -/
theorem mapM (hf : ∀ a, (f a).Saves (g a)) (as : List α) : (as.mapM f).Saves (Draft.all g as) := by
  induction as with
  | nil => exact pure []
  | cons a as ih =>
    rw [List.mapM_cons]
    exact (hf a).bind fun b => ih.bind fun bs => pure (b :: bs)

theorem same (hm : m.Saves d) {a : α} {v : FileTree} (h : m t = (.ok a, u)) (hv : t.Same v) :
    ∃ w, m v = (.ok a, w) ∧ u.Same w := by
  obtain ⟨ws, hd, hws⟩ := hm.eq_ok_iff.mp h
  obtain ⟨w, hw, hu⟩ := exists_saveAll_of_same hws hv
  exact ⟨w, hm.eq_ok_iff.mpr ⟨ws, hd, hw⟩, hu⟩

end Saves

/-! ### Tasks that read logs -/

/-- A task follows what trees tell of it. The tree that it leaves tells what it has saved and
gives, and one in which it has not begun what it will, if all files can be saved. In trees that
are the same it does the same. -/
structure Follows (m : FileTask α) (look : FileTree → Draft α) : Prop where
  forall_isOutput : ∀ t, ∀ y ∈ (look t).saves, y.1.IsOutput
  keeps : ∀ {t u a ws}, look t = ⟨ws, .ok a⟩ → t.Keeps u → look u = ⟨ws, .ok a⟩
  agrees : ∀ {t u a b ws xs}, look t = ⟨ws, .ok a⟩ → look u = ⟨xs, .ok b⟩ → t.SameLogs u →
    (⟨ws, .ok a⟩ : Draft α) = ⟨xs, .ok b⟩
  leads : ∀ t, (look (m t).2).Leads t (m t).1 (m t).2
  eq_ok : ∀ {t a ws u}, look t = ⟨ws, .ok a⟩ → saveAll ws t = (.ok (), u) → m t = (.ok a, u)
  same : ∀ {t v a u}, m t = (.ok a, u) → t.Same v → ∃ w, m v = (.ok a, w) ∧ u.Same w

/-- Logs are kept where the files of a draft of outputs are saved. -/
theorem keeps_of_saveAll {ws : List (Path × Content)} (h : saveAll ws t = (.ok (), u))
    (hws : ∀ y ∈ ws, y.1.IsOutput) : t.Keeps u := by
  refine (evolves_of_saveAll h).keeps fun p hp => ?_
  obtain ⟨y, hy, rfl⟩ := List.mem_map.mp hp
  exact hws y hy

namespace Follows

section Told

variable {m : FileTask α} {look : FileTree → Draft α} {a : α} {ws : List (Path × Content)}

theorem isOutput (hm : m.Follows look) (h : look t = ⟨ws, .ok a⟩) : ∀ y ∈ ws, y.1.IsOutput := by
  have hall := hm.forall_isOutput t
  rwa [h] at hall

/-- Logs are kept whether the task succeeds or not. -/
theorem keepsLogs (hm : m.Follows look) : m.KeepsLogs :=
  fun t => (hm.leads t).keeps (hm.forall_isOutput _)

theorem of_saves {d : Draft α} (hm : m.Saves d) (hd : ∀ y ∈ d.saves, y.1.IsOutput) :
    m.Follows fun _ => d where
  forall_isOutput _ := hd
  keeps h _ := h
  agrees h h' _ := h.symm.trans h'
  leads := hm
  eq_ok h h' := hm.eq_ok_iff.mpr ⟨_, h, h'⟩
  same h hv := hm.same h hv

end Told

/-- What was read from logs decides what is saved. -/
theorem of_look {look : FileTree → Except Error α} {f : α → FileTask β} {g : α → Draft β}
    (hf : ∀ a, (f a).Saves (g a)) (hg : ∀ a, ∀ y ∈ (g a).saves, y.1.IsOutput)
    (hkeeps : ∀ {t u a}, look t = .ok a → t.Keeps u → look u = .ok a)
    (hagrees : ∀ {t u a a'}, look t = .ok a → look u = .ok a' → t.SameLogs u → a = a') :
    Follows ((fun t => (look t, t) : FileTask α) >>= f)
      fun t => (Draft.ofExcept (look t)).andThen g where
  forall_isOutput t := Draft.forall_mem_andThen nofun hg
  keeps h hu := by
    obtain ⟨a, ha, hb⟩ := Draft.ofExcept_andThen_eq_ok_iff.mp h
    rw [hkeeps ha hu]
    exact hb
  agrees h h' hu := by
    obtain ⟨a, ha, hb⟩ := Draft.ofExcept_andThen_eq_ok_iff.mp h
    obtain ⟨a', ha', hb'⟩ := Draft.ofExcept_andThen_eq_ok_iff.mp h'
    cases hagrees ha ha' hu
    exact hb.symm.trans hb'
  leads t := by
    rw [bind_eq]
    cases hlook : look t with
    | error e =>
      dsimp only
      rw [hlook]
      exact (Draft.Leads.ofExcept (.error e) t).andThen_of_error g
    | ok a =>
      -- What is saved leaves the log as it was read.
      dsimp only
      rw [hkeeps hlook ((hf a t).keeps (hg a))]
      exact hf a t
  eq_ok {t b ws u} h hsaved := by
    obtain ⟨a, ha, hb⟩ := Draft.ofExcept_andThen_eq_ok_iff.mp h
    have hlook : (look t, t) = (.ok a, t) := by rw [ha]
    exact (bind_of_ok (m := fun t => (look t, t)) hlook).trans
      ((hf a).eq_ok_iff.mpr ⟨ws, hb, hsaved⟩)
  same {t v b u} h hv := by
    obtain ⟨a, x, hx, h⟩ := exists_of_bind_ok h
    have hlook : (look t, t) = (.ok a, x) := hx
    rw [Prod.mk.injEq] at hlook
    obtain ⟨ha, rfl⟩ := hlook
    obtain ⟨w, hw, hu⟩ := (hf a).same h hv
    have hlook' : (look v, v) = (.ok a, v) := by rw [hkeeps ha hv.keeps]
    exact ⟨w, (bind_of_ok (m := fun t => (look t, t)) hlook').trans hw, hu⟩

section Sequence

variable {m : FileTask α} {f : α → FileTask β} {look : FileTree → Draft α}

/-- In sequence, what is told of the second task depends on what the first one gives. -/
theorem bind {next : α → FileTree → Draft β} (hm : m.Follows look)
    (hf : ∀ a, (f a).Follows (next a)) :
    (m >>= f).Follows fun t => (look t).andThen fun a => next a t where
  forall_isOutput t :=
    Draft.forall_mem_andThen (hm.forall_isOutput t) fun a => (hf a).forall_isOutput t
  keeps h hu := by
    obtain ⟨a, ws, xs, ha, hb, rfl⟩ := Draft.andThen_eq_ok_iff.mp h
    exact Draft.andThen_eq_ok_iff.mpr ⟨a, ws, xs, hm.keeps ha hu, (hf a).keeps hb hu, rfl⟩
  agrees h h' hu := by
    obtain ⟨a, ws, xs, ha, hb, rfl⟩ := Draft.andThen_eq_ok_iff.mp h
    obtain ⟨a', ws', xs', ha', hb', rfl⟩ := Draft.andThen_eq_ok_iff.mp h'
    cases hm.agrees ha ha' hu
    cases (hf a).agrees hb hb' hu
    rfl
  leads t := by
    have hleads := hm.leads t
    rw [bind_eq]
    rcases hmt : m t with ⟨e | a, v⟩
    · rw [hmt] at hleads
      exact hleads.andThen_of_error _
    · -- What was told of the first task is still told when the second one has ended.
      rw [hmt] at hleads
      have hlook := hm.keeps hleads.eq_of_ok.1 ((hf a).keepsLogs v)
      rw [← hleads.eq_of_ok.1] at hlook
      dsimp only
      rw [hlook]
      exact hleads.andThen_of_ok ((hf a).leads v)
  eq_ok h hsaved := by
    obtain ⟨a, ws, xs, ha, hb, rfl⟩ := Draft.andThen_eq_ok_iff.mp h
    obtain ⟨v, hws, hxs⟩ := saveAll_append_eq_ok_iff.mp hsaved
    have hkeeps := keeps_of_saveAll hws (hm.isOutput ha)
    rw [bind_of_ok (hm.eq_ok ha hws)]
    exact (hf a).eq_ok ((hf a).keeps hb hkeeps) hxs
  same h hv := by
    obtain ⟨a, x, hx, h⟩ := exists_of_bind_ok h
    obtain ⟨x', hx', hsame⟩ := hm.same hx hv
    obtain ⟨w, hw, hu⟩ := (hf a).same h hsame
    exact ⟨w, (bind_of_ok hx').trans hw, hu⟩

theorem pure (a : α) : Follows (Pure.pure a) fun _ => .ofExcept (.ok a) :=
  of_saves (.pure a) nofun

/-- A repeated task follows what is told of each member. -/
theorem mapM {next : α → FileTree → Draft β} (hf : ∀ a, (f a).Follows (next a)) (as : List α) :
    (as.mapM f).Follows fun t => Draft.all (next · t) as := by
  induction as with
  | nil => exact pure []
  | cons a as ih =>
    rw [List.mapM_cons]
    exact (hf a).bind fun b => ih.bind fun bs => pure (b :: bs)

end Sequence

end Follows
end FileTask

/-! ### Pictures -/

theorem saveDrawing_of_save {d : Drawing} {p : Path} (hp : hasEnding pictureEndings p = true)
    {t u : FileTree} (h : FileTask.save p (.chart d) t = (.ok (), u)) :
    saveDrawing d p t = (.ok (), u) := by
  obtain ⟨w, hw, hwrite⟩ := FileTask.save_eq_ok_iff.mp h
  rw [saveDrawing, FileTask.bind_of_ok hw]
  simp only [hp, if_true, hwrite]

/-- A picture that cannot be saved leaves what any other file leaves. -/
theorem saveDrawing_of_save_eq_error {d : Drawing} {p : Path}
    (hp : hasEnding pictureEndings p = true) {t u : FileTree} {e : Error}
    (h : FileTask.save p (.chart d) t = (.error e, u)) :
    ∃ e', saveDrawing d p t = (.error e', u) ∧ e'.isMismatch = false := by
  rw [FileTask.save, FileTask.bind_eq] at h
  rw [saveDrawing, FileTask.bind_eq]
  rcases hw : FileTask.makeParent p t with ⟨e' | _, w⟩
  · rw [hw] at h
    cases h
    exact ⟨e, rfl, FileTask.isMismatch_of_makeParent hw⟩
  · rw [hw] at h
    simp only [hp, if_true, FileTask.write] at h ⊢
    cases hwrite : w.write p (.chart d) with
    | ok x =>
      rw [hwrite] at h
      cases h
    | error e' =>
      rw [hwrite] at h
      cases h
      exact ⟨_, rfl, rfl⟩

theorem saveDrawing_saves (d : Drawing) {p : Path} (hp : hasEnding pictureEndings p = true) :
    (saveDrawing d p).Saves (.save p (.chart d)) := by
  intro t
  rcases h : FileTask.save p (.chart d) t with ⟨e | _, u⟩
  · obtain ⟨e', he', hmismatch⟩ := saveDrawing_of_save_eq_error hp h
    have hfirst : (Draft.save p (.chart d)).saves = [] ++ [(p, .chart d)] := rfl
    have hfails : ∀ w, FileTask.save p (.chart d) t ≠ (.ok (), w) := by
      rw [h]
      exact nofun
    rw [he']
    exact .stopped hfirst rfl hfails (by rw [h]) rfl hmismatch
  · rw [saveDrawing_of_save hp h]
    exact .done (FileTask.saveAll_cons_eq_ok_iff.mpr ⟨u, h, rfl⟩) rfl

/-- The picture of a table's columns, if they have values. -/
def renderDraft (table : Table) (spec : ChartSpec) (style : ChartStyle) (p : Path) : Draft Unit :=
  (Draft.ofExcept (Drawing.ofTable table spec style)).andThen fun d => .save p (.chart d)

theorem renderTable_saves (table : Table) (spec : ChartSpec) (style : ChartStyle) {p : Path}
    (hp : hasEnding pictureEndings p = true) :
    (renderTable table spec style p).Saves (renderDraft table spec style p) :=
  (FileTask.Saves.ofExcept (Drawing.ofTable table spec style)).bind
    fun d => saveDrawing_saves d hp

theorem plans_renderDraft (table : Table) (spec : ChartSpec) (style : ChartStyle) (p : Path) :
    (renderDraft table spec style p).Plans [p] :=
  (Draft.Plans.ofExcept _).andThen fun _ _ => Draft.Plans.save p _

/-- A table that is saved, and drawn as it is read back. -/
def drawnDraft (file : Path) (text : List Char) (spec : ChartSpec) (style : ChartStyle)
    (chart : Path) : Draft (List Path) :=
  (Draft.save file (.text text)).andThen fun _ =>
    (Draft.ofExcept (Table.ofContent file (.text text))).andThen fun table =>
      (renderDraft table spec style chart).andThen fun _ => .ofExcept (.ok [file, chart])

theorem plans_drawnDraft (file : Path) (text : List Char) (spec : ChartSpec) (style : ChartStyle)
    (chart : Path) : (drawnDraft file text spec style chart).Plans [file, chart] :=
  (Draft.Plans.save file _).andThen fun _ _ =>
    (Draft.Plans.ofExcept _).andThen fun table _ =>
      (plans_renderDraft table spec style chart).andThen fun _ _ => Draft.Plans.ofExcept _

/-- What is drawn from a file that has been saved is what was saved. -/
theorem renderFile_of_save {file chart : Path} {text : List Char} {t u : FileTree}
    (h : FileTask.save file (.text text) t = (.ok (), u)) (spec : ChartSpec) (style : ChartStyle) :
    renderFile file spec style chart u =
      (FileTask.ofExcept (Table.ofContent file (.text text)) >>= fun table =>
        renderTable table spec style chart) u := by
  rw [renderFile, FileTask.bind_eq, FileTask.bind_eq,
    Table.load_of_readText (FileTask.readText_of_save h), FileTask.ofExcept]

theorem saveAndRender_saves (file : Path) (text : List Char) (spec : ChartSpec)
    (style : ChartStyle) {chart : Path} (hp : hasEnding pictureEndings chart = true) :
    FileTask.Saves (do
        FileTask.save file (.text text)
        renderFile file spec style chart
        return [file, chart])
      (drawnDraft file text spec style chart) := by
  intro t
  refine (Draft.Leads.save file (.text text) t).bind fun _ u hsave => ?_
  have hread : (do
        renderFile file spec style chart
        return [file, chart]) u =
      (do
        let table ← FileTask.ofExcept (Table.ofContent file (.text text))
        renderTable table spec style chart
        return [file, chart] : FileTask (List Path)) u := by
    simp only [FileTask.bind_eq, renderFile_of_save hsave]
    rcases (FileTask.ofExcept (Table.ofContent file (.text text)) u) with ⟨e | table, v⟩
    · rfl
    · rfl
  rw [hread]
  exact (FileTask.Saves.ofExcept (Table.ofContent file (.text text))).bind (fun table =>
    (renderTable_saves table spec style hp).bind fun _ => FileTask.Saves.pure [file, chart]) u

/-! ### Datasets -/

/-- The tables of a dataset. -/
def tablesDraft (dir : Path) (name : String) (data : AlignedDataset) : Draft (List Path) :=
  ⟨tableWrites dir name data, .ok ((tableWrites dir name data).map (·.1))⟩

theorem writeAligned_saves (name : String) (data : AlignedDataset) (dir : Path) :
    (writeAligned name data dir).Saves (tablesDraft dir name data) :=
  FileTask.Saves.mapM (fun m : Metric =>
    (FileTask.Saves.save (artifact dir name (m.stem ++ ".csv")) (.text (data.table m).toCsv)).bind
      fun _ => FileTask.Saves.pure (artifact dir name (m.stem ++ ".csv"))) Metric.all

/-- The chart of a dataset's memory usage. -/
def ramDraft (name : String) (data : AlignedDataset) (plots : Path) (style : ChartStyle) :
    Draft Path :=
  (renderDraft data.ram (ramChart name) style (artifact plots name "ram.png")).andThen
    fun _ => .ofExcept (.ok (artifact plots name "ram.png"))

theorem renderRamUsage_saves (name : String) (data : AlignedDataset) (plots : Path)
    (style : ChartStyle) :
    (renderRamUsage name data plots style).Saves (ramDraft name data plots style) := by
  have hpicture := hasEnding_of_nameEnds (nameEnds_ramPicture plots name)
  exact (renderTable_saves data.ram (ramChart name) style hpicture).bind
    fun _ => FileTask.Saves.pure (artifact plots name "ram.png")

/-- A dataset whose logs are aligned. -/
def datasetDraft (dir plots : Path) (style : ChartStyle) (name : String) (data : AlignedDataset) :
    Draft ProcessedDataset :=
  (tablesDraft dir name data).andThen fun tables =>
    (ramDraft name data plots style).andThen fun chart =>
      .ofExcept (.ok ⟨name, data, tables ++ [chart]⟩)

theorem plans_datasetDraft (dir plots : Path) (style : ChartStyle) (l : DatasetLayout)
    (data : AlignedDataset) :
    (datasetDraft dir plots style l.name data).Plans (datasetOutputs dir plots l) := by
  have htables : (tablesDraft dir l.name data).Plans
      (Metric.all.map fun m => artifact dir l.name (m.stem ++ ".csv")) :=
    ⟨List.prefix_rfl, fun _ _ => rfl⟩
  have hchart : (ramDraft l.name data plots style).Plans [artifact plots l.name "ram.png"] :=
    (plans_renderDraft _ _ _ _).andThen fun _ _ => Draft.Plans.ofExcept _
  exact htables.andThen fun _ _ => hchart.andThen fun _ _ => Draft.Plans.ofExcept _

theorem exists_of_datasetDraft {dir plots : Path} {style : ChartStyle} {name : String}
    {data : AlignedDataset} {r : ProcessedDataset} {ws : List (Path × Content)}
    (h : datasetDraft dir plots style name data = ⟨ws, .ok r⟩) :
    r = ⟨name, data, ws.map (·.1)⟩ := by
  obtain ⟨_, _, _, htables, hrest, rfl⟩ := Draft.andThen_eq_ok_iff.mp h
  obtain ⟨_, _, _, hram, hresult, rfl⟩ := Draft.andThen_eq_ok_iff.mp hrest
  obtain ⟨_, _, _, hchart, hpath, rfl⟩ := Draft.andThen_eq_ok_iff.mp hram
  obtain ⟨d, -, hd⟩ := Draft.ofExcept_andThen_eq_ok_iff.mp hchart
  cases htables
  cases hd
  cases hpath
  cases hresult
  simp

/-- What is told of a dataset. -/
def datasetLook (folder : String) (input dir plots : Path) (style : ChartStyle)
    (l : DatasetLayout) (t : FileTree) : Draft ProcessedDataset :=
  (Draft.ofExcept (alignDataset t l input folder)).andThen (datasetDraft dir plots style l.name)

theorem plans_datasetLook (folder : String) (input dir plots : Path) (style : ChartStyle)
    (l : DatasetLayout) (t : FileTree) :
    (datasetLook folder input dir plots style l t).Plans (datasetOutputs dir plots l) :=
  (Draft.Plans.ofExcept _).andThen fun data _ => plans_datasetDraft dir plots style l data

/-- What is told of a dataset is told of its aligned logs. -/
theorem exists_of_datasetLook {folder : String} {input dir plots : Path} {style : ChartStyle}
    {l : DatasetLayout} {t : FileTree} {r : ProcessedDataset} {ws : List (Path × Content)}
    (h : datasetLook folder input dir plots style l t = ⟨ws, .ok r⟩) :
    alignDataset t l input folder = .ok r.data ∧ r.name = l.name ∧ r.outputs = ws.map (·.1) := by
  obtain ⟨data, hdata, h⟩ := Draft.ofExcept_andThen_eq_ok_iff.mp h
  cases exists_of_datasetDraft h
  exact ⟨hdata, rfl, rfl⟩

theorem processDataset_follows (folder : String) (input dir plots : Path) (style : ChartStyle)
    (l : DatasetLayout) :
    (processDataset folder input dir plots style l).Follows
      (datasetLook folder input dir plots style l) := by
  refine FileTask.Follows.of_look (fun data => ?_) (fun data => ?_)
    (fun h hu => alignDataset_of_keeps hu h) (fun h h' hu => alignDataset_agrees hu h h')
  · exact (writeAligned_saves l.name data dir).bind fun tables =>
      (renderRamUsage_saves l.name data plots style).bind fun chart =>
        FileTask.Saves.pure (⟨l.name, data, tables ++ [chart]⟩ : ProcessedDataset)
  · exact (plans_datasetDraft dir plots style l data).isOutput
      fun p hp => .inl (isArtifact_of_mem_datasetOutputs hp)

/-! ### Timelines -/

/-- The table and the chart of a timeline. -/
def timelineDraft (dir plots : Path) (table : Table) : Draft (List Path) :=
  drawnDraft (dir.join ⟨"preprocessing_timeline.csv"⟩) table.toCsv timelineChart .line
    (plots.join ⟨"preprocessing_timeline.png"⟩)

theorem plans_timelineDraft (dir plots : Path) (table : Table) :
    (timelineDraft dir plots table).Plans (timelineOutputs dir plots) :=
  plans_drawnDraft _ _ _ _ _

/-- What is told of a timeline whose log is there. -/
def timelineLook (config : Config) (l : CategoryLayout) (t : FileTree) : Draft (List Path) :=
  (Draft.ofExcept (readTimeline t (config.preprocessingLog l))).andThen
    (timelineDraft (config.tables l) (config.plots l))

theorem writeTimeline_follows (config : Config) (l : CategoryLayout) :
    (writeTimeline (config.preprocessingLog l) (config.tables l) (config.plots l)).Follows
      (timelineLook config l) := by
  have hpicture := hasEnding_of_nameEnds (nameEnds_timelinePicture (config.plots l))
  refine FileTask.Follows.of_look (fun table => saveAndRender_saves _ _ _ _ hpicture)
    (fun table => ?_)
    (fun h hu => readTimeline_of_keeps hu h) (fun h h' hu => readTimeline_agrees hu h h')
  exact (plans_timelineDraft _ _ table).isOutput
    fun p hp => .inl (isArtifact_of_mem_timelineOutputs hp)

/-! ### Comparisons -/

/-- The merged table of a metric and its chart. -/
def metricDraft (name : String) (sequential parallel : AlignedDataset) (dir plots : Path)
    (style : ChartStyle) (m : Metric) : Draft (List Path) :=
  (Draft.ofExcept (mergeMetric sequential parallel m)).andThen fun merged =>
    drawnDraft (artifact dir name (m.stem ++ "_merged.csv")) merged.toCsv (comparisonChart name m)
      style (artifact plots name (m.stem ++ "_comparison.png"))

theorem plans_metricDraft (name : String) (sequential parallel : AlignedDataset)
    (dir plots : Path) (style : ChartStyle) (m : Metric) :
    (metricDraft name sequential parallel dir plots style m).Plans
      (comparisonOutputs dir plots name m) :=
  (Draft.Plans.ofExcept _).andThen fun _ _ => plans_drawnDraft _ _ _ _ _

theorem compareMetric_saves (name : String) (sequential parallel : AlignedDataset)
    (dir plots : Path) (style : ChartStyle) (m : Metric) :
    (compareMetric name sequential parallel dir plots style m).Saves
      (metricDraft name sequential parallel dir plots style m) := by
  have hpicture := hasEnding_of_nameEnds (nameEnds_comparisonPicture plots name m)
  exact (FileTask.Saves.ofExcept (mergeMetric sequential parallel m)).bind fun merged =>
    saveAndRender_saves (artifact dir name (m.stem ++ "_merged.csv")) merged.toCsv
      (comparisonChart name m) style hpicture

/-- A dataset with the sequential one of its name. -/
def comparisonDraft (config : Config) (category c : Category) (sequential : List ProcessedDataset)
    (dir plots : Path) (d : ProcessedDataset) : Draft (List Path) :=
  match sequential.find? (·.name == d.name) with
  | none => .ofExcept (.error (.config (.noCounterpart d.name category c)))
  | some s =>
    (Draft.all (metricDraft d.name s.data d.data dir plots config.style) Metric.all).andThen
      fun made => .ofExcept (.ok made.flatten)

section Comparisons

variable {config : Config} {category c : Category} {sequential : List ProcessedDataset}
  {dir plots : Path} {d : ProcessedDataset}

theorem plans_comparisonDraft :
    (comparisonDraft config category c sequential dir plots d).Plans
      (Metric.all.flatMap (comparisonOutputs dir plots d.name)) := by
  unfold comparisonDraft
  split
  · exact ⟨List.nil_prefix, nofun⟩
  · rename_i s hs
    have hmetrics := Draft.Plans.all (plans_metricDraft d.name s.data d.data dir plots config.style)
      Metric.all
    rw [← List.append_nil (Metric.all.flatMap _)]
    exact hmetrics.andThen fun _ _ => Draft.Plans.ofExcept _

theorem compareProcessed_saves (config : Config) (category c : Category)
    (sequential : List ProcessedDataset) (dir plots : Path) (d : ProcessedDataset) :
    (compareProcessed config category c sequential dir plots d).Saves
      (comparisonDraft config category c sequential dir plots d) := by
  unfold compareProcessed comparisonDraft
  cases sequential.find? (·.name == d.name) with
  | none => exact FileTask.Saves.ofExcept _
  | some s =>
    exact (FileTask.Saves.mapM (compareMetric_saves d.name s.data d.data dir plots
      config.style) Metric.all).bind fun made => FileTask.Saves.pure made.flatten

theorem compareProcessed_follows (config : Config) (category c : Category)
    (sequential : List ProcessedDataset) (dir plots : Path) (d : ProcessedDataset) :
    (compareProcessed config category c sequential dir plots d).Follows
      fun _ => comparisonDraft config category c sequential dir plots d := by
  refine .of_saves (compareProcessed_saves config category c sequential dir plots d) ?_
  refine plans_comparisonDraft.isOutput fun p hp => ?_
  obtain ⟨m, -, hm⟩ := List.mem_flatMap.mp hp
  exact .inl (isArtifact_of_mem_comparisonOutputs hm)

end Comparisons

/-! ### The summary -/

theorem writeSummary_saves {config : Config} {category : Category} {l : CategoryLayout}
    (hl : config.layout category = .ok l) (now : Instant) (datasets : List DatasetSummary)
    (outputs : List Path) :
    (writeSummary config category now datasets outputs).Saves
      ⟨[(config.summaryPath l, .text
          (RunSummary.mk category now datasets (outputs ++ [config.summaryPath l])).text)],
        .ok ⟨category, now, datasets, outputs ++ [config.summaryPath l]⟩⟩ := by
  unfold writeSummary
  rw [Config.outputDir_of_layout hl, FileTask.ofExcept_ok_bind]
  exact (FileTask.Saves.save _ _).bind fun _ => FileTask.Saves.pure _

end BenchLog
