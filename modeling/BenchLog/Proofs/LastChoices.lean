/-
# The last choices hold

The choices that a configuration is built from are made one after the other, and a later one
takes the place of an earlier one of the same thing. So what holds in the end is the last choice
of each thing, or the default if there is none, whatever was chosen before. A new layout of a
category goes behind all other layouts, so their order changes with each of them, but every
category keeps exactly one (`categories_set`). The check can therefore not find a category
twice, and it fails for nothing but a layout that was chosen last.

Key definitions: `Config.last?`, `Config.chosen`.
Key theorems: `Config.categories_chosen`, `Config.layout_chosen`, `Config.areSound_chosen_iff`,
`Config.build_outcome`.
-/
import Mathlib.Data.List.Induction
import Mathlib.Data.List.Nodup
import BenchLog.Proofs.FirstFault

namespace BenchLog

open Config (isBlankName)

/-- Nothing is wrong with the built-in layouts. -/
theorem CategoryLayout.isSound_builtIn (category : Category) :
    (CategoryLayout.builtIn category).IsSound := by
  cases category <;> exact ⟨by decide, by decide, by decide, by decide⟩

namespace Config

/-! ### Choices -/

namespace Setting

/-- The input root that is chosen, if one is. -/
def inputRoot? : Setting → Option Path
  | .inputRoot path => some path
  | _ => none

/-- The output root that is chosen, if one is. -/
def outputRoot? : Setting → Option Path
  | .outputRoot path => some path
  | _ => none

/-- The style that is chosen, if one is. -/
def style? : Setting → Option ChartStyle
  | .style s => some s
  | _ => none

/-- The layout that is chosen for a category, if one is. -/
def layoutOf? (category : Category) : Setting → Option CategoryLayout
  | .layout l => if l.category = category then some l else none
  | _ => none

end Setting

/-- The last one of the choices of one thing. -/
def last? {α : Type*} (choice : Setting → Option α) (settings : List Setting) : Option α :=
  (settings.filterMap choice).getLast?

/-- The configuration that choices lead to, before it is checked. -/
def chosen (settings : List Setting) : Config := settings.foldl set default

variable {α β : Type*} {c : Config} {s : Setting} {settings : List Setting}
  {category : Category} {l : CategoryLayout}

theorem last?_append_singleton (choice : Setting → Option α) (settings : List Setting)
    (s : Setting) : last? choice (settings ++ [s]) = (choice s).or (last? choice settings) := by
  cases h : choice s with
  | none => simp [last?, h]
  | some a => simp [last?, h]

theorem chosen_append_singleton (settings : List Setting) (s : Setting) :
    chosen (settings ++ [s]) = (chosen settings).set s := by
  rw [chosen, List.foldl_append]
  rfl

/-- If a choice either settles something or leaves it as it was, then the last choice that
settles it does, and without such a choice it is as in the default. -/
theorem chosen_eq_elim (get : Config → β) {choice : Setting → Option α} {f : α → β}
    (hset : ∀ c s, get (c.set s) = (choice s).elim (get c) f) (settings : List Setting) :
    get (chosen settings) = (last? choice settings).elim (get default) f := by
  induction settings using List.reverseRecOn with
  | nil => rfl
  | append_singleton settings s ih =>
    rw [chosen_append_singleton, hset, last?_append_singleton, ih]
    cases choice s <;> rfl

theorem chosen_eq_getD (get : Config → α) {choice : Setting → Option α}
    (hset : ∀ c s, get (c.set s) = (choice s).getD (get c)) (settings : List Setting) :
    get (chosen settings) = (last? choice settings).getD (get default) := by
  have helim : ∀ (a? : Option α) (a : α), a?.elim a id = a?.getD a := by
    rintro (_ | _) _ <;> rfl
  rw [← helim]
  exact chosen_eq_elim get (fun c s => by rw [hset, helim]) settings

/-! ### One layout for each category -/

/-- A choice leaves every category with exactly one layout. -/
theorem categories_set (h : (c.categories.map (·.category)).Perm Category.all) (s : Setting) :
    ((c.set s).categories.map (·.category)).Perm Category.all := by
  cases s with
  | layout l =>
    have hnodup : (c.categories.map (·.category)).Nodup := h.nodup_iff.mpr (by decide)
    have hmem : l.category ∈ c.categories.map (·.category) :=
      h.mem_iff.mpr (Category.mem_all l.category)
    have hmap : (c.set (.layout l)).categories.map (·.category) =
        (c.categories.map (·.category)).erase l.category ++ [l.category] := by
      rw [hnodup.erase_eq_filter, List.filter_map, set, List.map_append]
      rfl
    rw [hmap]
    exact (List.perm_append_singleton ..).trans ((List.perm_cons_erase hmem).symm.trans h)
  | _ => exact h

theorem categories_chosen (settings : List Setting) :
    ((chosen settings).categories.map (·.category)).Perm Category.all := by
  induction settings using List.reverseRecOn with
  | nil => exact .refl _
  | append_singleton settings s ih =>
    rw [chosen_append_singleton]
    exact categories_set ih s

theorem nodup_categories_chosen (settings : List Setting) :
    ((chosen settings).categories.map (·.category)).Nodup :=
  (categories_chosen settings).nodup_iff.mpr (by decide)

/-- A layout that goes behind the others is found for its category, and no other one is. -/
theorem find?_replaced (l : CategoryLayout) (ls : List CategoryLayout) (category : Category) :
    (ls.filter (·.category != l.category) ++ [l]).find? (·.category == category) =
      if l.category = category then some l else ls.find? (·.category == category) := by
  rw [List.find?_append, List.find?_filter]
  by_cases h : l.category = category
  · have hnone : ls.find? (fun k => (k.category != l.category) = true ∧
        (k.category == category) = true) = none := by
      simp [List.find?_eq_none, h]
    rw [hnone, if_pos h, Option.none_or, List.find?_singleton, if_pos (beq_iff_eq.mpr h)]
  · have hsame : (fun k : CategoryLayout => decide ((k.category != l.category) = true ∧
        (k.category == category) = true)) = (·.category == category) := by
      funext k
      by_cases hk : k.category = category
      · simp [hk, Ne.symm h]
      · simp [hk]
    rw [hsame, if_neg h, List.find?_singleton, if_neg (by simpa using h), Option.or_none]

/-- A category has the layout that was chosen for it, or the one that it had. -/
theorem layout_set (category : Category) (c : Config) (s : Setting) :
    (c.set s).layout category = (s.layoutOf? category).elim (c.layout category) .ok := by
  cases s with
  | layout l =>
    rw [layout, set, find?_replaced, Setting.layoutOf?]
    by_cases h : l.category = category
    · rw [if_pos h, if_pos h]
      rfl
    · rw [if_neg h, if_neg h]
      rfl
  | _ => rfl

theorem layout_default (category : Category) :
    default.layout category = .ok (.builtIn category) := by
  cases category <;> rfl

/-- A category has the layout that was chosen for it last, or else the built-in one. -/
theorem layout_chosen (settings : List Setting) (category : Category) :
    (chosen settings).layout category =
      .ok ((last? (·.layoutOf? category) settings).getD (.builtIn category)) := by
  rw [chosen_eq_elim (fun c => c.layout category) (layout_set category), layout_default]
  cases last? (·.layoutOf? category) settings <;> rfl

/-! ### What the check finds -/

/-- If no category occurs twice, the layouts are those that categories have. -/
theorem mem_categories_iff (h : (c.categories.map (·.category)).Nodup) :
    l ∈ c.categories ↔ c.layout l.category = .ok l := by
  refine ⟨fun hl => ?_, mem_of_layout⟩
  obtain ⟨k, hk⟩ : ∃ k, c.categories.find? (·.category == l.category) = some k :=
    Option.isSome_iff_exists.mp (List.find?_isSome.mpr ⟨l, hl, by simp⟩)
  have hsame : k.category = l.category := by simpa using List.find?_some hk
  rw [layout, hk, List.inj_on_of_nodup_map h (List.mem_of_find?_eq_some hk) hl hsame]

/-- A layout that holds in the end was chosen last for its category, or is built in. -/
theorem last?_eq_some_or_builtIn (hl : l ∈ (chosen settings).categories) :
    last? (·.layoutOf? l.category) settings = some l ∨ CategoryLayout.builtIn l.category = l := by
  have hlayout := (mem_categories_iff (nodup_categories_chosen settings)).mp hl
  rw [layout_chosen, Except.ok.injEq] at hlayout
  cases h : last? (·.layoutOf? l.category) settings with
  | none =>
    rw [h] at hlayout
    exact .inr hlayout
  | some k =>
    rw [h] at hlayout
    exact .inl (congrArg some hlayout)

/-- Nothing is wrong in the end if and only if nothing is wrong with the layouts chosen last. -/
theorem areSound_chosen_iff : AreSound (chosen settings).categories ↔
    ∀ category l, last? (·.layoutOf? category) settings = some l → l.IsSound := by
  constructor
  · rintro ⟨-, hlayouts⟩ category l hlast
    have hlayout : (chosen settings).layout category = .ok l := by
      rw [layout_chosen, hlast]
      rfl
    exact hlayouts l (mem_of_layout hlayout)
  · refine fun hlast => ⟨nodup_categories_chosen settings, fun l hl => ?_⟩
    rcases last?_eq_some_or_builtIn hl with h | h
    · exact hlast _ l h
    · exact h ▸ CategoryLayout.isSound_builtIn _

/-! ### The outcome -/

theorem build_eq_checked (settings : List Setting) : build settings = (chosen settings).checked :=
  rfl

/-- A fault of a layout whose category no other layout has is one of the layout alone. -/
theorem LayoutFault.alone {front : List CategoryLayout} {n : ℕ} {cause : ConfigError}
    (h : LayoutFault front l n cause) (hnew : l.category ∉ front.map (·.category)) :
    LayoutFault [] l n cause := by
  cases h with
  | category hmem => exact absurd hmem hnew
  | folder h => exact .folder h
  | noDatasets h => exact .noDatasets h
  | dataset h => exact .dataset h

theorem not_layoutFault_of_isSound {n : ℕ} {cause : ConfigError} (h : l.IsSound) :
    ¬LayoutFault [] l n cause := fun hfault =>
  have hsound : AreSound [l] := ⟨List.nodup_singleton _, by simpa using h⟩
  forall_not_faultAt_iff.mpr hsound _ _ (.layout (i := 0) rfl hfault)

/-- A layout by itself does not have a category twice. -/
theorem not_layoutFault_repeatedCategory {n : ℕ} :
    ¬LayoutFault [] l n (.repeatedCategory category) := by
  rintro (h | _ | _ | ⟨⟨_, _⟩ | ⟨_, _⟩⟩)
  cases h

/-- What the check tells is wrong with a layout that was chosen last. -/
theorem exists_of_build_eq_error {e : Error} (h : build settings = .error e) :
    ∃ category l n cause, last? (·.layoutOf? category) settings = some l ∧
      LayoutFault [] l n cause ∧ e = .config cause := by
  rw [build_eq_checked, checked] at h
  cases hcheck : (chosen settings).check with
  | ok _ =>
    rw [hcheck] at h
    cases h
  | error cause =>
    rw [hcheck] at h
    cases h
    obtain ⟨p, hfault, -⟩ :=
      ((chosen settings).tells_check.eq_error_iff FaultAt.unique).mp hcheck
    cases hfault with
    | @layout i n l _ hl hfault =>
      have halone : LayoutFault [] l n cause :=
        hfault.alone (nodup_map_iff.mp (nodup_categories_chosen settings) i l hl)
      rcases last?_eq_some_or_builtIn (List.mem_of_getElem? hl) with hlast | hbuiltIn
      · exact ⟨l.category, l, n, cause, hlast, halone, rfl⟩
      · have hsound : l.IsSound := hbuiltIn ▸ CategoryLayout.isSound_builtIn _
        exact absurd halone (not_layoutFault_of_isSound hsound)

/-- **Building succeeds if and only if nothing is wrong with the layouts that were chosen last,
and then the last choices hold, and the defaults where nothing was chosen.** Whatever the choices
are, each category has exactly one layout, so none is found twice. If building fails, it tells
what is wrong with a layout that was chosen last; earlier ones do not matter. -/
theorem build_outcome (settings : List Setting) :
    ((chosen settings).categories.map (·.category)).Perm Category.all ∧
      (∀ category, build settings ≠ .error (.config (.repeatedCategory category))) ∧
      ((∃ e, build settings = .error e) ↔
        ∃ category l, last? (·.layoutOf? category) settings = some l ∧ ¬l.IsSound) ∧
      (∀ e, build settings = .error e →
        ∃ category l n cause, last? (·.layoutOf? category) settings = some l ∧
          LayoutFault [] l n cause ∧ e = .config cause) ∧
      ∀ c, build settings = .ok c →
        c.inputRoot = (last? Setting.inputRoot? settings).getD default.inputRoot ∧
        c.outputRoot = (last? Setting.outputRoot? settings).getD default.outputRoot ∧
        c.style = (last? Setting.style? settings).getD default.style ∧
        ∀ category, c.layout category =
          .ok ((last? (·.layoutOf? category) settings).getD (.builtIn category)) := by
  refine ⟨categories_chosen settings, fun category h => ?_, ?_,
    fun e => exists_of_build_eq_error, fun c hc => ?_⟩
  · obtain ⟨_, l, n, cause, -, hfault, hcause⟩ := exists_of_build_eq_error h
    cases hcause
    exact not_layoutFault_repeatedCategory hfault
  · have hok : (∃ c, build settings = .ok c) ↔
        ∀ category l, last? (·.layoutOf? category) settings = some l → l.IsSound := by
      rw [← areSound_chosen_iff, ← check_eq_ok_iff, build_eq_checked]
      simp [checked_eq_ok_iff]
    constructor
    · rintro ⟨e, he⟩
      by_contra hnone
      push Not at hnone
      obtain ⟨c, hc⟩ := hok.mpr hnone
      rw [he] at hc
      cases hc
    · rintro ⟨category, l, hlast, hl⟩
      cases h : build settings with
      | error e => exact ⟨e, rfl⟩
      | ok c => exact absurd (hok.mp ⟨c, h⟩ category l hlast) hl
  · obtain ⟨rfl, -⟩ : chosen settings = c ∧ _ := checked_eq_ok_iff.mp hc
    exact ⟨chosen_eq_getD inputRoot (fun c s => by cases s <;> rfl) settings,
      chosen_eq_getD outputRoot (fun c s => by cases s <;> rfl) settings,
      chosen_eq_getD style (fun c s => by cases s <;> rfl) settings, layout_chosen settings⟩

/-- Choices of which the first has neither folder nor datasets and is taken back later. -/
def revisedSettings : List Setting :=
  [.layout ⟨.singlePerformance, " ", []⟩, .inputRoot ⟨"old"⟩, .style .line,
   .layout ⟨.preprocessingPerformance, "trees", [.named "merkle"]⟩, .inputRoot ⟨"logs"⟩,
   .layout ⟨.singlePerformance, "curves", [.named "elliptic", .named "lwe"]⟩]

theorem build_outcome_of_revisedSettings :
    ∃ c, build revisedSettings = .ok c ∧ c.inputRoot = ⟨"logs"⟩ ∧ c.outputRoot = ⟨"results"⟩ ∧
      c.style = .line ∧
      c.layout .singlePerformance =
        .ok ⟨.singlePerformance, "curves", [.named "elliptic", .named "lwe"]⟩ ∧
      c.layout .singlePerformanceParallel = .ok (.builtIn .singlePerformanceParallel) := by
  obtain ⟨c, hc⟩ : ∃ c, build revisedSettings = .ok c := ⟨_, rfl⟩
  obtain ⟨-, -, -, -, hok⟩ := build_outcome revisedSettings
  obtain ⟨hinput, houtput, hstyle, hlayout⟩ := hok c hc
  exact ⟨c, hc, hinput, houtput, hstyle, hlayout _, hlayout _⟩

end Config
end BenchLog
