/-
# The first thing wrong with a configuration

A configuration is looked through in a fixed order: its layouts one after the other, and in
each layout the category, the folder, whether there are datasets at all, and then the datasets,
each first for its texts and then for its name. Whatever is wrong shows at a place of this order
(`FaultAt`), and much can be wrong at once. The check ends at the first such place, and it ends
well if and only if there is none.

Key definitions: `IsFirst`, `Config.DatasetFault`, `Config.LayoutFault`, `Config.FaultAt`,
`Config.IsSound`.
Key theorems: `Config.tells_check`, `Config.forall_not_faultAt_iff`, `Config.checked_outcome`.
-/
import Mathlib.Data.List.Nodup
import Mathlib.Data.Prod.Lex
import Mathlib.Order.Nat
import BenchLog.Config.Toml

namespace BenchLog

/-! ### Checks that end at the first fault -/

section Checks

variable {ι ε : Type*} {fault : ι → ε → Prop} {e : ε}

/-- The error of the first place at which there is a fault. -/
def IsFirst [LE ι] (fault : ι → ε → Prop) (e : ε) : Prop :=
  ∃ i, fault i e ∧ ∀ j e', fault j e' → i ≤ j

/-- From a place on, a check finds no fault or tells the first one. -/
def TellsFrom [LE ι] (k : ι) (fault : ι → ε → Prop) : Except ε Unit → Prop
  | .ok _ => ∀ i e, k ≤ i → ¬fault i e
  | .error e => ∃ i, k ≤ i ∧ fault i e ∧ ∀ j e', k ≤ j → fault j e' → i ≤ j

/-- One test at one place, and what is checked behind it. -/
theorem TellsFrom.test {fault : ℕ → ε → Prop} {k : ℕ} {P : Prop} [Decidable P]
    {next : Except ε Unit} (h : ∀ e', fault k e' ↔ P ∧ e' = e)
    (hnext : TellsFrom (k + 1) fault next) :
    TellsFrom k fault (if P then .error e else next) := by
  by_cases hP : P
  · rw [if_pos hP]
    exact ⟨k, le_rfl, (h e).mpr ⟨hP, rfl⟩, fun j _ hj _ => hj⟩
  · rw [if_neg hP]
    have hnone : ∀ e', ¬fault k e' := fun e' hf => hP ((h e').mp hf).1
    have hlater : ∀ j e', k ≤ j → fault j e' → k + 1 ≤ j := by
      intro j e' hj hf
      rcases Nat.eq_or_lt_of_le hj with rfl | hlt
      · exact absurd hf (hnone e')
      · exact hlt
    cases next with
    | ok _ => exact fun i e' hi hf => hnext i e' (hlater i e' hi hf) hf
    | error e'' =>
      obtain ⟨i, hi, hf, hfirst⟩ := hnext
      exact ⟨i, by omega, hf, fun j e' hj hf' => hfirst j e' (hlater j e' hj hf') hf'⟩

/-- Places may be counted from somewhere else. -/
theorem TellsFrom.shift {fault : ℕ → ε → Prop} {k m : ℕ} {outcome : Except ε Unit}
    (h : TellsFrom k (fun n => fault (n + m)) outcome) : TellsFrom (k + m) fault outcome := by
  have hback : ∀ {j}, k + m ≤ j → j - m + m = j := by omega
  cases outcome with
  | ok _ =>
    intro i e' hi hf
    exact h (i - m) e' (by omega) (by rw [← hback hi] at hf; exact hf)
  | error e' =>
    obtain ⟨i, hi, hf, hfirst⟩ := h
    refine ⟨i + m, by omega, hf, fun j e'' hj hf' => ?_⟩
    have := hfirst (j - m) e'' (by omega) (by rw [← hback hj] at hf'; exact hf')
    omega

/-- A whole check is followed by another one, whose places come later. -/
theorem TellsFrom.bind {fault : ℕ ×ₗ ℕ → ε → Prop} {i : ℕ} {first second : Except ε Unit}
    (hfirst : TellsFrom 0 (fun n => fault (toLex (i, n))) first)
    (hsecond : TellsFrom (toLex (i + 1, 0)) fault second) :
    TellsFrom (toLex (i, 0)) fault (first >>= fun _ => second) := by
  -- A place is one of the first check or one of the second.
  have hplace : ∀ p : ℕ ×ₗ ℕ, toLex (i, 0) ≤ p →
      (∃ n, p = toLex (i, n)) ∨ toLex (i + 1, 0) ≤ p := by
    intro p hp
    obtain ⟨j, n⟩ := p
    rcases Prod.Lex.toLex_le_toLex.mp hp with hlt | ⟨rfl, -⟩
    · rcases Nat.eq_or_lt_of_le hlt with heq | hlt
      · exact .inr (Prod.Lex.toLex_le_toLex.mpr (.inr ⟨heq, Nat.zero_le n⟩))
      · exact .inr (Prod.Lex.toLex_le_toLex.mpr (.inl hlt))
    · exact .inl ⟨n, rfl⟩
  have hle : toLex (i, 0) ≤ toLex (i + 1, 0) :=
    Prod.Lex.toLex_le_toLex.mpr (.inl (Nat.lt_succ_self i))
  have hbefore : ∀ {p : ℕ ×ₗ ℕ} n, toLex (i + 1, 0) ≤ p → toLex (i, n) ≤ p := fun n hp =>
    le_trans (Prod.Lex.toLex_le_toLex.mpr (.inl (Nat.lt_succ_self i))) hp
  cases first with
  | error e =>
    obtain ⟨n, -, hf, hmin⟩ := hfirst
    refine ⟨toLex (i, n), Prod.Lex.toLex_le_toLex.mpr (.inr ⟨rfl, Nat.zero_le n⟩), hf, ?_⟩
    intro p e' hp hf'
    rcases hplace p hp with ⟨m, rfl⟩ | hlater
    · exact Prod.Lex.toLex_le_toLex.mpr (.inr ⟨rfl, hmin m e' (Nat.zero_le m) hf'⟩)
    · exact hbefore n hlater
  | ok _ =>
    have hlater : ∀ p e', toLex (i, 0) ≤ p → fault p e' → toLex (i + 1, 0) ≤ p := by
      intro p e' hp hf
      rcases hplace p hp with ⟨m, rfl⟩ | hlater
      · exact absurd hf (hfirst m e' (Nat.zero_le m))
      · exact hlater
    show TellsFrom _ _ second
    cases second with
    | ok _ => exact fun p e' hp hf => hsecond p e' (hlater p e' hp hf) hf
    | error e =>
      obtain ⟨p, hp, hf, hmin⟩ := hsecond
      exact ⟨p, hle.trans hp, hf, fun q e' hq hf' => hmin q e' (hlater q e' hq hf') hf'⟩

/-- If a place has one fault at most, a check that looks at all places tells what is first. -/
theorem TellsFrom.eq_error_iff [PartialOrder ι] [OrderBot ι] {outcome : Except ε Unit}
    (h : TellsFrom ⊥ fault outcome) (hunique : ∀ {i e e'}, fault i e → fault i e' → e = e') :
    outcome = .error e ↔ IsFirst fault e := by
  cases outcome with
  | ok _ =>
    constructor
    · exact nofun
    · rintro ⟨i, hf, -⟩
      exact absurd hf (h i e bot_le)
  | error e' =>
    obtain ⟨i, -, hf, hmin⟩ := h
    constructor
    · intro he
      cases he
      exact ⟨i, hf, fun j e'' => hmin j e'' bot_le⟩
    · rintro ⟨j, hf', hmin'⟩
      obtain rfl : i = j := le_antisymm (hmin j e bot_le hf') (hmin' i e' hf)
      rw [hunique hf hf']

end Checks

namespace Config

/-! ### Faults -/

/-- What is wrong with a list of datasets, with the step at which it shows: each dataset takes a
step for its texts and one for its name. -/
inductive DatasetFault (category : Category) (ds : List DatasetLayout) : ℕ → ConfigError → Prop
  | blank {j : ℕ} {d : DatasetLayout} : ds[j]? = some d →
      (isBlankName d.name = true ∨ isBlankName d.logPrefix = true) →
        DatasetFault category ds (2 * j) (.blankDataset category)
  | repeated {j : ℕ} {d : DatasetLayout} : ds[j]? = some d →
      d.name ∈ (ds.take j).map (·.name) →
        DatasetFault category ds (2 * j + 1) (.repeatedDataset d.name category)

/-- What is wrong with a layout behind other ones, with the step at which it shows. -/
inductive LayoutFault (front : List CategoryLayout) (l : CategoryLayout) : ℕ → ConfigError → Prop
  | category : l.category ∈ front.map (·.category) →
      LayoutFault front l 0 (.repeatedCategory l.category)
  | folder : isBlankName l.folder = true → LayoutFault front l 1 (.noFolder l.category)
  | noDatasets : l.datasets = [] → LayoutFault front l 2 (.noDatasets l.category)
  | dataset {n : ℕ} {e : ConfigError} : DatasetFault l.category l.datasets n e →
      LayoutFault front l (n + 3) e

/-- What is wrong with a list of layouts, with the layout and the step at which it shows. -/
inductive FaultAt (ls : List CategoryLayout) : ℕ ×ₗ ℕ → ConfigError → Prop
  | layout {i n : ℕ} {l : CategoryLayout} {e : ConfigError} : ls[i]? = some l →
      LayoutFault (ls.take i) l n e → FaultAt ls (toLex (i, n)) e

variable {category : Category} {ds : List DatasetLayout} {l : CategoryLayout}
  {front ls : List CategoryLayout} {n : ℕ} {e e' : ConfigError}

theorem datasetFault_even {j : ℕ} {d : DatasetLayout} (hd : ds[j]? = some d) :
    DatasetFault category ds (2 * j) e ↔
      (isBlankName d.name || isBlankName d.logPrefix) = true ∧ e = .blankDataset category := by
  rw [Bool.or_eq_true]
  constructor
  · intro h
    generalize hn : 2 * j = n at h
    cases h with
    | @blank i d' hi hblank =>
      obtain rfl : j = i := by omega
      cases hd.symm.trans hi
      exact ⟨hblank, rfl⟩
    | repeated => omega
  · rintro ⟨hblank, rfl⟩
    exact .blank hd hblank

theorem datasetFault_odd {j : ℕ} {d : DatasetLayout} (hd : ds[j]? = some d) :
    DatasetFault category ds (2 * j + 1) e ↔
      d.name ∈ (ds.take j).map (·.name) ∧ e = .repeatedDataset d.name category := by
  constructor
  · intro h
    generalize hn : 2 * j + 1 = n at h
    cases h with
    | blank => omega
    | @repeated i d' hi hname =>
      obtain rfl : j = i := by omega
      cases hd.symm.trans hi
      exact ⟨hname, rfl⟩
  · rintro ⟨hname, rfl⟩
    exact .repeated hd hname

theorem DatasetFault.exists_step (h : DatasetFault category ds n e) :
    ∃ j d, ds[j]? = some d ∧ (n = 2 * j ∨ n = 2 * j + 1) := by
  cases h with
  | blank hd => exact ⟨_, _, hd, .inl rfl⟩
  | repeated hd => exact ⟨_, _, hd, .inr rfl⟩

theorem DatasetFault.unique (h : DatasetFault category ds n e)
    (h' : DatasetFault category ds n e') : e = e' := by
  obtain ⟨j, d, hd, rfl | rfl⟩ := h.exists_step
  · rw [((datasetFault_even hd).mp h).2, ((datasetFault_even hd).mp h').2]
  · rw [((datasetFault_odd hd).mp h).2, ((datasetFault_odd hd).mp h').2]

/-- A place has one fault at most. -/
theorem FaultAt.unique {p : ℕ ×ₗ ℕ} (h : FaultAt ls p e) (h' : FaultAt ls p e') : e = e' := by
  cases h with
  | @layout i n l _ hl h =>
    cases h' with
    | layout hl' h' =>
      cases hl.symm.trans hl'
      cases h with
      | dataset h =>
        cases h' with
        | dataset h' => exact h.unique h'
      | _ => cases h'; rfl

/-! ### What the checks tell -/

/-- Behind some datasets, whose names are known, the check tells the first fault. -/
theorem tells_checkDatasets : ∀ (ds front : List DatasetLayout) {all : List DatasetLayout}
    {seen : List String}, front ++ ds = all → (∀ name, name ∈ seen ↔ name ∈ front.map (·.name)) →
      TellsFrom (2 * front.length) (DatasetFault category all) (checkDatasets category seen ds)
  | [], front, all, seen, hall, hseen => by
    intro n e hn h
    obtain ⟨j, d, hd, hstep⟩ := h.exists_step
    have hlt : j < all.length := (List.getElem?_eq_some_iff.mp hd).1
    rw [← hall, List.append_nil] at hlt
    omega
  | d :: ds, front, all, seen, hall, hseen => by
    have hd : all[front.length]? = some d := by
      rw [← hall, List.getElem?_append_right le_rfl, Nat.sub_self]
      rfl
    have htake : all.take front.length = front := by
      rw [← hall, List.take_left]
    have hall' : front ++ [d] ++ ds = all := by
      rw [← hall, List.append_assoc, List.singleton_append]
    have hseen' : ∀ name, name ∈ d.name :: seen ↔ name ∈ (front ++ [d]).map (·.name) := by
      simp [hseen, or_comm]
    have hrest := tells_checkDatasets ds (front ++ [d]) hall' hseen'
    rw [checkDatasets]
    refine .test (fun e => datasetFault_even hd) (.test (fun e => ?_) ?_)
    · rw [datasetFault_odd hd, htake, List.contains_iff_mem, hseen]
    · convert hrest using 1
      simp
      omega

theorem layoutFault_zero : LayoutFault front l 0 e ↔
    l.category ∈ front.map (·.category) ∧ e = .repeatedCategory l.category := by
  constructor
  · intro h
    cases h with
    | category h => exact ⟨h, rfl⟩
  · rintro ⟨h, rfl⟩
    exact .category h

theorem layoutFault_one : LayoutFault front l 1 e ↔
    isBlankName l.folder = true ∧ e = .noFolder l.category := by
  constructor
  · intro h
    cases h with
    | folder h => exact ⟨h, rfl⟩
  · rintro ⟨h, rfl⟩
    exact .folder h

theorem layoutFault_two : LayoutFault front l 2 e ↔
    l.datasets = [] ∧ e = .noDatasets l.category := by
  constructor
  · intro h
    cases h with
    | noDatasets h => exact ⟨h, rfl⟩
  · rintro ⟨h, rfl⟩
    exact .noDatasets h

theorem layoutFault_add_three :
    LayoutFault front l (n + 3) e ↔ DatasetFault l.category l.datasets n e := by
  constructor
  · intro h
    cases h with
    | dataset h => exact h
  · exact .dataset

/-- Behind layouts whose categories are known, the check of a layout tells its first fault. -/
theorem tells_checkLayout {seen : List Category}
    (hseen : ∀ category, category ∈ seen ↔ category ∈ front.map (·.category)) :
    TellsFrom 0 (LayoutFault front l) (checkLayout seen l) := by
  have hdatasets : TellsFrom 0 (fun n => LayoutFault front l (n + 3))
      (checkDatasets l.category [] l.datasets) := by
    have hfault : (fun n => LayoutFault front l (n + 3)) = DatasetFault l.category l.datasets :=
      funext₂ fun n e => propext layoutFault_add_three
    rw [hfault]
    exact tells_checkDatasets l.datasets [] rfl (by simp)
  unfold checkLayout
  refine .test (fun e => ?_) (.test (fun e => ?_) (.test (fun e => ?_) hdatasets.shift))
  · rw [layoutFault_zero, List.contains_iff_mem, hseen]
  · exact layoutFault_one
  · rw [layoutFault_two, List.isEmpty_iff]

theorem faultAt_iff {i : ℕ} (hl : ls[i]? = some l) :
    FaultAt ls (toLex (i, n)) e ↔ LayoutFault (ls.take i) l n e := by
  constructor
  · intro h
    cases h with
    | layout hl' h =>
      cases hl.symm.trans hl'
      exact h
  · exact .layout hl

/-- Behind some layouts, whose categories are known, the check tells the first fault. -/
theorem tells_checkLayouts : ∀ (ls front : List CategoryLayout) {all : List CategoryLayout}
    {seen : List Category}, front ++ ls = all →
      (∀ category, category ∈ seen ↔ category ∈ front.map (·.category)) →
        TellsFrom (toLex (front.length, 0)) (FaultAt all) (checkLayouts seen ls)
  | [], front, all, seen, hall, hseen => by
    rintro p e hp ⟨hl, -⟩
    have hlt := (List.getElem?_eq_some_iff.mp hl).1
    rw [← hall, List.append_nil] at hlt
    rcases Prod.Lex.toLex_le_toLex.mp hp with hle | ⟨heq, -⟩
    · exact absurd hlt hle.not_gt
    · exact absurd hlt heq.not_gt
  | l :: ls, front, all, seen, hall, hseen => by
    have hl : all[front.length]? = some l := by
      rw [← hall, List.getElem?_append_right le_rfl, Nat.sub_self]
      rfl
    have htake : all.take front.length = front := by
      rw [← hall, List.take_left]
    have hall' : front ++ [l] ++ ls = all := by
      rw [← hall, List.append_assoc, List.singleton_append]
    have hseen' : ∀ category, category ∈ l.category :: seen ↔
        category ∈ (front ++ [l]).map (·.category) := by
      simp [hseen, or_comm]
    have hrest := tells_checkLayouts ls (front ++ [l]) hall' hseen'
    rw [List.length_append, List.length_singleton] at hrest
    rw [checkLayouts]
    refine .bind ?_ hrest
    have hfault : (fun n => FaultAt all (toLex (front.length, n))) = LayoutFault front l :=
      funext₂ fun n e => propext (by rw [faultAt_iff hl, htake])
    rw [hfault]
    exact tells_checkLayout hseen

/-- The check tells the first fault of all. -/
theorem tells_check (c : Config) : TellsFrom ⊥ (FaultAt c.categories) c.check :=
  tells_checkLayouts c.categories [] rfl (by simp)

end Config

/-! ### Nothing wrong -/

open Config (isBlankName)

/-- Nothing is wrong with a layout by itself. -/
structure CategoryLayout.IsSound (l : CategoryLayout) : Prop where
  folder : isBlankName l.folder = false
  datasets_ne : l.datasets ≠ []
  texts : ∀ d ∈ l.datasets, isBlankName d.name = false ∧ isBlankName d.logPrefix = false
  names_nodup : (l.datasets.map (·.name)).Nodup

namespace Config

/-- No category occurs twice, and nothing is wrong with any layout. -/
structure AreSound (ls : List CategoryLayout) : Prop where
  categories_nodup : (ls.map (·.category)).Nodup
  layouts : ∀ l ∈ ls, l.IsSound

variable {category : Category} {ds : List DatasetLayout} {l : CategoryLayout}
  {ls : List CategoryLayout}

/-- Without repetitions, nothing occurs in front of itself. -/
theorem nodup_map_iff {α β : Type*} {f : α → β} {as : List α} :
    (as.map f).Nodup ↔ ∀ i a, as[i]? = some a → f a ∉ (as.take i).map f := by
  rw [List.nodup_iff_getElem?_ne_getElem?]
  constructor
  · intro h i a ha hmem
    obtain ⟨b, hb, hfb⟩ := List.mem_map.mp hmem
    obtain ⟨j, hj⟩ := List.mem_iff_getElem?.mp hb
    rw [List.getElem?_take] at hj
    split at hj
    · rename_i hlt
      have hi : i < as.length := (List.getElem?_eq_some_iff.mp ha).1
      exact h j i hlt (by simpa using hi) (by simp [ha, hj, hfb])
    · cases hj
  · intro h i j hij hj heq
    rw [List.length_map] at hj
    have hi : i < as.length := hij.trans hj
    have hsame : f as[i] = f as[j] := by simpa [hi, hj] using heq
    refine h j as[j] (List.getElem?_eq_getElem hj) (List.mem_map.mpr ⟨as[i], ?_, hsame⟩)
    exact List.mem_take_iff_getElem.mpr ⟨i, by omega, rfl⟩

theorem forall_not_datasetFault_iff : (∀ n e, ¬DatasetFault category ds n e) ↔
    (∀ d ∈ ds, isBlankName d.name = false ∧ isBlankName d.logPrefix = false) ∧
      (ds.map (·.name)).Nodup := by
  rw [nodup_map_iff]
  constructor
  · intro h
    refine ⟨fun d hd => ?_, fun j d hj hname => h _ _ (.repeated hj hname)⟩
    obtain ⟨j, hj⟩ := List.mem_iff_getElem?.mp hd
    have hblank := fun hblank => h _ _ (.blank hj hblank)
    simpa using hblank
  · rintro ⟨htexts, hnames⟩ n e h
    cases h with
    | blank hj hblank =>
      obtain ⟨hname, hprefix⟩ := htexts _ (List.mem_of_getElem? hj)
      simp [hname, hprefix] at hblank
    | repeated hj hname => exact hnames _ _ hj hname

theorem forall_not_faultAt_iff : (∀ p e, ¬FaultAt ls p e) ↔ AreSound ls := by
  constructor
  · intro h
    have hlayout : ∀ i l, ls[i]? = some l → ∀ n e, ¬LayoutFault (ls.take i) l n e :=
      fun i l hl n e hf => h _ _ (.layout hl hf)
    refine ⟨nodup_map_iff.mpr fun i l hl hmem => hlayout i l hl _ _ (.category hmem),
      fun l hl => ?_⟩
    obtain ⟨i, hi⟩ := List.mem_iff_getElem?.mp hl
    have hnone := hlayout i l hi
    obtain ⟨htexts, hnames⟩ := forall_not_datasetFault_iff.mp
      fun n e hf => hnone _ _ (.dataset hf)
    refine ⟨?_, fun hnil => hnone _ _ (.noDatasets hnil), htexts, hnames⟩
    by_contra hblank
    exact hnone _ _ (.folder (by simpa using hblank))
  · rintro ⟨hcategories, hlayouts⟩ p e h
    cases h with
    | @layout i n l e hl h =>
      have hsound := hlayouts l (List.mem_of_getElem? hl)
      cases h with
      | category hmem => exact nodup_map_iff.mp hcategories i l hl hmem
      | folder hblank => simp [hsound.folder] at hblank
      | noDatasets hnil => exact hsound.datasets_ne hnil
      | dataset hf =>
        exact forall_not_datasetFault_iff.mpr ⟨hsound.texts, hsound.names_nodup⟩ _ _ hf

theorem check_eq_ok_iff {c : Config} : c.check = .ok () ↔ AreSound c.categories := by
  rw [← forall_not_faultAt_iff]
  have htells := c.tells_check
  cases hcheck : c.check with
  | ok _ =>
    rw [hcheck] at htells
    exact ⟨fun _ p e => htells p e bot_le, fun _ => rfl⟩
  | error e =>
    rw [hcheck] at htells
    obtain ⟨p, -, hf, -⟩ := htells
    exact ⟨nofun, fun h => absurd hf (h p e)⟩

/-! ### The outcome -/

theorem checked_eq_ok_iff {c config : Config} :
    c.checked = .ok config ↔ c = config ∧ config.check = .ok () := by
  unfold checked
  constructor
  · intro h
    split at h
    · rename_i hcheck
      cases h
      exact ⟨rfl, hcheck⟩
    · cases h
  · rintro ⟨rfl, hcheck⟩
    rw [hcheck]

/-- What comes out when a configuration is checked that a text describes or that choices make. -/
inductive Validated (c : Config) : Except Error Config → Prop
  | ofToml {text : List Char} : (Toml.parse text).bind ofDocument? = some c →
      Validated c (ofToml text)
  | build {settings : List Setting} : settings.foldl set default = c →
      Validated c (build settings)

theorem Validated.eq_checked {c : Config} {outcome : Except Error Config}
    (h : Validated c outcome) : outcome = c.checked := by
  cases h with
  | ofToml hc => rw [Config.ofToml, hc]
  | build hc => rw [Config.build, hc]

/-- **A configuration passes the check if and only if nothing is wrong with its layouts, and
otherwise the error is the first one of all that is wrong, in the order of the layouts and their
datasets.** A configuration from a text or from choices is checked in no other way. -/
theorem checked_outcome (c : Config) :
    (∀ outcome, Validated c outcome → outcome = c.checked) ∧
      (c.checked = .ok c ↔ AreSound c.categories) ∧
      (∀ config, c.checked = .ok config → config = c) ∧
      ∀ e, c.checked = .error e ↔
        ∃ cause, e = .config cause ∧ IsFirst (FaultAt c.categories) cause := by
  have hfirst : ∀ cause, c.check = .error cause ↔ IsFirst (FaultAt c.categories) cause := fun _ =>
    c.tells_check.eq_error_iff FaultAt.unique
  refine ⟨fun _ => Validated.eq_checked, ?_, fun config hok => ?_, fun e => ?_⟩
  · rw [checked_eq_ok_iff, check_eq_ok_iff]
    exact and_iff_right rfl
  · exact (checked_eq_ok_iff.mp hok).1.symm
  · simp only [← hfirst]
    unfold checked
    cases hcheck : c.check with
    | ok _ => simp
    | error cause => simp [eq_comm]

/-- A text with a dataset that has a blank prefix, behind one of the same name, in front of a
category that occurs twice and has no datasets. -/
def faultyText : List Char :=
  ("[[categories]]\ncategory = \"singlePerformance\"\nfolder = \"a\"\n" ++
    "[[categories.datasets]]\nname = \"lwe\"\nlog_prefix = \"lwe\"\n" ++
    "[[categories.datasets]]\nname = \"lwe\"\nlog_prefix = \" \"\n" ++
    "[[categories]]\ncategory = \"singlePerformance\"\nfolder = \"b\"\ndatasets = []\n").toList

/-- What `faultyText` describes. -/
def faultyConfig : Config :=
  { default with
    categories :=
      [⟨.singlePerformance, "a", [.named "lwe", ⟨"lwe", " ", none⟩]⟩,
       ⟨.singlePerformance, "b", []⟩] }

theorem checked_outcome_of_faultyText :
    (Toml.parse faultyText).bind ofDocument? = some faultyConfig ∧
      ofToml faultyText = .error (.config (.blankDataset .singlePerformance)) ∧
      IsFirst (FaultAt faultyConfig.categories) (.blankDataset .singlePerformance) := by
  have hdocument : (Toml.parse faultyText).bind ofDocument? = some faultyConfig := by
    decide +kernel
  have herror : faultyConfig.checked = .error (.config (.blankDataset .singlePerformance)) := by
    rfl
  obtain ⟨hreached, -, -, hfaults⟩ := checked_outcome faultyConfig
  have houtcome := hreached _ (.ofToml hdocument)
  obtain ⟨cause, hcause, hfirst⟩ := (hfaults _).mp herror
  cases hcause
  exact ⟨hdocument, houtcome.trans herror, hfirst⟩

end Config
end BenchLog
