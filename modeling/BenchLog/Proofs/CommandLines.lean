/-
# The words of a command line

A command line that asks for a run spells its choices: the category as a bare word, every
other choice with its name, in any order and each at most once. A value stands behind an
equals sign, or in the next word if that could be no name; the category may be set apart by
two dashes in front of it at the end.

A reader that looks at its values at once does nothing but fill the slots that the words spell,
one after the other.

Key definitions: `Spelled`, `choicesOf`, `ArgumentReader.placeAll`, `Arguments.IsGivenBy`.
Key theorems: `ArgumentReader.read_eq_run_iff_spelled`, `ArgumentReader.placeAll_eq_ok_iff`,
`ofArguments_eq_run_iff`.
-/
import BenchLog.Proofs.WordReading
import BenchLog.Proofs.WrittenSummaries

namespace BenchLog

/-! ### Words and choices -/

/-- The words of a command line spell choices, in the order in which they stand there. -/
inductive Spelled : List (Slot × String) → List String → Prop
  | done : Spelled [] []
  | dashes : Spelled [] ["--"]
  | last {word : String} : Spelled [(.category, word)] ["--", word]
  | bare {word : String} {choices : List (Slot × String)} {words : List String} :
      IsPlain word → Spelled choices words → Spelled ((.category, word) :: choices) (word :: words)
  | joined {slot : Slot} {name value : String} {choices : List (Slot × String)}
      {words : List String} :
      slot.name? = some name → Spelled choices words →
        Spelled ((slot, value) :: choices) (("--" ++ name ++ "=" ++ value) :: words)
  | apart {slot : Slot} {name value : String} {choices : List (Slot × String)}
      {words : List String} :
      slot.name? = some name → IsPlain value → Spelled choices words →
        Spelled ((slot, value) :: choices) (("--" ++ name) :: value :: words)

/-- The slots in their order. -/
def Slot.all : List Slot := [.category, .config, .inputRoot, .outputRoot, .style]

/-- The slots that have a value, each with it. -/
def choicesOf (value? : Slot → Option String) : List (Slot × String) :=
  Slot.all.filterMap fun slot => (value? slot).map (slot, ·)

theorem mem_choicesOf_iff {value? : Slot → Option String} {slot : Slot} {value : String} :
    (slot, value) ∈ choicesOf value? ↔ value? slot = some value := by
  have hall : slot ∈ Slot.all := by cases slot <;> decide
  simp [choicesOf, List.mem_filterMap, hall]

theorem nodup_choicesOf (value? : Slot → Option String) :
    ((choicesOf value?).map (·.1)).Nodup := by
  have hslots : (choicesOf value?).map (·.1) =
      Slot.all.filter fun slot => (value? slot).isSome := by
    rw [choicesOf, List.map_filterMap, ← List.filterMap_eq_filter]
    congr 1
    funext slot
    cases h : value? slot <;> simp [Option.guard, h]
  rw [hslots]
  exact List.Nodup.filter _ (by decide)

/-- A value that comes into an empty slot is one more choice. -/
theorem choicesOf_update_perm {value? : Slot → Option String} {slot : Slot} {value : String}
    (h : value? slot = none) :
    (choicesOf (Function.update value? slot (some value))).Perm
      ((slot, value) :: choicesOf value?) := by
  have hnot : (slot, value) ∉ choicesOf value? := by
    rw [mem_choicesOf_iff, h]
    simp
  have hnodup := fun f => (nodup_choicesOf f).of_map
  rw [List.perm_ext_iff_of_nodup (hnodup _) ((hnodup _).cons hnot)]
  rintro ⟨slot', value'⟩
  rw [List.mem_cons, mem_choicesOf_iff, mem_choicesOf_iff, Prod.mk.injEq]
  by_cases heq : slot' = slot
  · subst heq
    simp [h, eq_comm]
  · simp [heq]

/-- The reader that has read arguments. -/
def Arguments.reader (a : Arguments) : ArgumentReader :=
  ⟨some a.category, a.config, a.inputRoot, a.outputRoot, a.style, none, true⟩

namespace ArgumentReader

/-! ### Looking at values at once -/

/-- Nothing is pending, and a bare word has come exactly if there is a category. -/
structure Settled (r : ArgumentReader) : Prop where
  pending : r.pending = none
  hasCategory : r.hasCategory = r.category.isSome

/-- Puts a value into its slot and notes whether there is a category now. -/
def place (r : ArgumentReader) (slot : Slot) (value : String) : Except Refusal ArgumentReader := do
  let r ← r.store slot value
  return { r with hasCategory := r.category.isSome }

/-- Puts values into their slots one after the other. -/
def placeAll (r : ArgumentReader) (choices : List (Slot × String)) :
    Except Refusal ArgumentReader :=
  choices.foldlM (fun r c => r.place c.1 c.2) r

variable {r u : ArgumentReader} {slot : Slot} {word name value : String} {words : List String}
  {isOpen : Bool} {a : Arguments}

theorem fill_eq_ok_iff {old new b : Option α} :
    fill old new = .ok b ↔ old = none ∧ new.isSome ∧ b = new := by
  cases old <;> cases new <;> simp [fill, eq_comm]

theorem fill_of_eq_some {old new : Option α} {b : α} (hold : old = none) (hnew : new = some b) :
    fill old new = .ok (some b) :=
  fill_eq_ok_iff.mpr ⟨hold, Option.isSome_of_eq_some hnew, hnew.symm⟩

theorem placeAll_cons_eq_ok_iff {c : Slot × String} {choices : List (Slot × String)} :
    r.placeAll (c :: choices) = .ok u ↔
      ∃ v, r.place c.1 c.2 = .ok v ∧ v.placeAll choices = .ok u := by
  rw [placeAll, List.foldlM_cons, bind_eq_ok_iff]
  rfl

theorem store_category_eq_ok_iff : r.store .category value = .ok u ↔
    r.category = none ∧ ∃ c, Category.ofName? false value = some c ∧
      u = { r with category := some c } := by
  show (fill r.category (Category.ofName? false value) >>= fun c => pure { r with category := c }) =
    .ok u ↔ _
  rw [bind_eq_ok_iff]
  constructor
  · rintro ⟨b, hb, hu⟩
    obtain ⟨hnone, hsome, rfl⟩ := fill_eq_ok_iff.mp hb
    obtain ⟨c, hc⟩ := Option.isSome_iff_exists.mp hsome
    cases hu
    exact ⟨hnone, c, hc, by rw [hc]⟩
  · rintro ⟨hnone, c, hc, rfl⟩
    exact ⟨some c, fill_of_eq_some hnone hc, rfl⟩

theorem place_eq_ok_iff : r.place slot value = .ok u ↔
    ∃ v, r.store slot value = .ok v ∧ u = { v with hasCategory := v.category.isSome } := by
  unfold place
  rw [bind_eq_ok_iff]
  refine exists_congr fun v => and_congr_right fun _ => ?_
  show Except.ok _ = Except.ok u ↔ _
  rw [Except.ok.injEq, eq_comm]

theorem place_category_eq_ok_iff : r.place .category value = .ok u ↔
    r.category = none ∧ ∃ c, Category.ofName? false value = some c ∧
      u = { r with category := some c, hasCategory := true } := by
  simp only [place_eq_ok_iff, store_category_eq_ok_iff]
  constructor
  · rintro ⟨v, ⟨hnone, c, hc, rfl⟩, rfl⟩
    exact ⟨hnone, c, hc, rfl⟩
  · rintro ⟨hnone, c, hc, rfl⟩
    exact ⟨_, ⟨hnone, c, hc, rfl⟩, rfl⟩

namespace Settled

theorem place (hr : r.Settled) (h : r.place slot value = .ok u) : u.Settled := by
  obtain ⟨v, hv, rfl⟩ := place_eq_ok_iff.mp h
  exact ⟨(frame_store hv).1.trans hr.pending, rfl⟩

theorem place_eq_store (hr : r.Settled) (hname : slot.name? = some name) :
    r.place slot value = r.store slot value := by
  unfold ArgumentReader.place
  rcases hstore : r.store slot value with e | v
  · rfl
  have hcategory : v.category = r.category := by
    cases slot
    case category => cases hname
    all_goals
      obtain ⟨b, -, hv⟩ := exists_of_bind_eq_ok hstore
      cases hv
      rfl
  have hkept : v.hasCategory = v.category.isSome := by
    rw [(frame_store hstore).2, hcategory, hr.hasCategory]
  show Except.ok { v with hasCategory := v.category.isSome } = Except.ok v
  rw [← hkept]

theorem settle_eq_store (hr : r.Settled) :
    { r with pending := some (slot, some value) }.settle = r.store slot value := by
  obtain ⟨hpending, -⟩ := hr
  cases r
  cases hpending
  rfl

theorem takeUnnamed_eq_ok_iff (hr : r.Settled) : r.takeUnnamed word = .ok u ↔
    r.category = none ∧
      u = { r with pending := some (.category, some word), hasCategory := true } := by
  rw [ArgumentReader.takeUnnamed_eq_ok_iff, settle_of_none hr.pending, hr.hasCategory]
  simp

/-- A bare word goes into the slot of the category. -/
theorem exists_takeUnnamed_iff (hr : r.Settled) :
    (∃ u, r.takeUnnamed word = .ok u ∧ u.read isOpen words = .ok (.run a)) ↔
      ∃ u, r.place .category word = .ok u ∧ u.read isOpen words = .ok (.run a) := by
  simp only [hr.takeUnnamed_eq_ok_iff, place_category_eq_ok_iff]
  obtain ⟨hpending, -⟩ := hr
  cases r
  cases hpending
  constructor
  · rintro ⟨u, ⟨hnone, rfl⟩, hread⟩
    obtain ⟨v, hv, hrest⟩ := (read_eq_run_iff_of_pending rfl).mp hread
    obtain ⟨-, c, hc, rfl⟩ := store_category_eq_ok_iff.mp hv
    exact ⟨_, ⟨hnone, c, hc, rfl⟩, hrest⟩
  · rintro ⟨u, ⟨hnone, c, hc, rfl⟩, hread⟩
    refine ⟨_, ⟨hnone, rfl⟩, (read_eq_run_iff_of_pending rfl).mpr ⟨_, ?_, hread⟩⟩
    exact store_category_eq_ok_iff.mpr ⟨hnone, c, hc, rfl⟩

theorem finish_eq_run_iff (hr : r.Settled) : r.finish = .ok (.run a) ↔ r = a.reader := by
  rw [ArgumentReader.finish_eq_run_iff, settle_of_none hr.pending]
  obtain ⟨hpending, hcategory⟩ := hr
  obtain ⟨category, config, inputRoot, outputRoot, style, pending, hasCategory⟩ := r
  simp only at hpending hcategory
  subst hpending hcategory
  simp only [Except.ok.injEq, exists_eq_left', Arguments.reader, mk.injEq, true_and]
  constructor
  · rintro ⟨rfl, rfl, rfl, rfl, rfl⟩
    exact ⟨rfl, rfl, rfl, rfl, rfl, rfl⟩
  · rintro ⟨rfl, rfl, rfl, rfl, rfl, -⟩
    exact ⟨rfl, rfl, rfl, rfl, rfl⟩

theorem read_closed_cons_iff (hr : r.Settled) :
    r.read false (word :: words) = .ok (.run a) ↔
      ∃ u, r.place .category word = .ok u ∧ u.read false words = .ok (.run a) := by
  rw [← hr.exists_takeUnnamed_iff]
  constructor
  · intro h
    obtain ⟨u, isOpen', hreads, hrest⟩ := read_cons_eq_run_iff.mp h
    cases hreads with
    | bare _ hu => exact ⟨u, hu, hrest⟩
  · rintro ⟨u, hu, hrest⟩
    exact (Reads.bare (fun hopen => by cases hopen) hu).read_eq.trans hrest

end Settled

/-- A run that is asked for is asked for in choices that the words spell. -/
theorem exists_spelled_of_read : ∀ {words : List String} {r : ArgumentReader}, r.Settled →
    r.read true words = .ok (.run a) →
      ∃ choices, Spelled choices words ∧ r.placeAll choices = .ok a.reader
  | [], r, hr, h => ⟨[], .done, congrArg Except.ok (hr.finish_eq_run_iff.mp h)⟩
  | word :: words, r, hr, h => by
    obtain ⟨u, isOpen', hreads, hrest⟩ := read_cons_eq_run_iff.mp h
    cases hreads with
    | bare hplain hu =>
      obtain ⟨v, hv, hrest⟩ := hr.exists_takeUnnamed_iff.mp ⟨u, hu, hrest⟩
      obtain ⟨choices, hspelled, hplaced⟩ := exists_spelled_of_read (hr.place hv) hrest
      exact ⟨_, .bare (hplain rfl).1 hspelled, placeAll_cons_eq_ok_iff.mpr ⟨v, hv, hplaced⟩⟩
    | dashes =>
      cases words with
      | nil => exact ⟨[], .dashes, congrArg Except.ok (hr.finish_eq_run_iff.mp hrest)⟩
      | cons word words =>
        obtain ⟨v, hv, hrest⟩ := hr.read_closed_cons_iff.mp hrest
        cases words with
        | nil =>
          have hv' := (hr.place hv).finish_eq_run_iff.mp hrest
          exact ⟨_, .last, placeAll_cons_eq_ok_iff.mpr ⟨v, hv, congrArg Except.ok hv'⟩⟩
        | cons word' words =>
          -- There is a category already.
          obtain ⟨w, hw, -⟩ := (hr.place hv).read_closed_cons_iff.mp hrest
          obtain ⟨-, c, -, rfl⟩ := place_category_eq_ok_iff.mp hv
          cases (place_category_eq_ok_iff.mp hw).1
    | joined hname hv hu =>
      cases (settle_of_none hr.pending).symm.trans hv
      rw [← hr.place_eq_store hname] at hu
      obtain ⟨choices, hspelled, hplaced⟩ := exists_spelled_of_read (hr.place hu) hrest
      exact ⟨_, .joined hname hspelled, placeAll_cons_eq_ok_iff.mpr ⟨u, hu, hplaced⟩⟩
    | @named slot name _ hname hu =>
      cases (settle_of_none hr.pending).symm.trans hu
      obtain ⟨value, rest, rfl, -, hplain, hrest⟩ := exists_value_of_read rfl hrest
      obtain ⟨v, hv, hrest⟩ := (read_eq_run_iff_of_pending rfl).mp hrest
      have hv : r.place slot value = .ok v := by
        rw [hr.place_eq_store hname, ← hr.settle_eq_store]
        exact hv
      obtain ⟨choices, hspelled, hplaced⟩ := exists_spelled_of_read (hr.place hv) hrest
      exact ⟨_, .apart hname hplain hspelled, placeAll_cons_eq_ok_iff.mpr ⟨v, hv, hplaced⟩⟩
    | value hpending => cases hr.pending.symm.trans hpending

/-- Words that spell choices have them placed in their slots. -/
theorem read_of_spelled {choices : List (Slot × String)} (h : Spelled choices words) :
    ∀ {r : ArgumentReader}, r.Settled → r.placeAll choices = .ok a.reader →
      r.read true words = .ok (.run a) := by
  induction h with
  | done =>
    intro r hr hplaced
    exact hr.finish_eq_run_iff.mpr (Except.ok.inj hplaced)
  | dashes =>
    intro r hr hplaced
    exact hr.finish_eq_run_iff.mpr (Except.ok.inj hplaced)
  | last =>
    intro r hr hplaced
    obtain ⟨u, hu, hplaced⟩ := placeAll_cons_eq_ok_iff.mp hplaced
    refine hr.read_closed_cons_iff.mpr ⟨u, hu, ?_⟩
    exact (hr.place hu).finish_eq_run_iff.mpr (Except.ok.inj hplaced)
  | @bare word choices words hplain _ ih =>
    intro r hr hplaced
    obtain ⟨u, hu, hplaced⟩ := placeAll_cons_eq_ok_iff.mp hplaced
    obtain ⟨v, hv, hrest⟩ := hr.exists_takeUnnamed_iff.mpr ⟨u, hu, ih (hr.place hu) hplaced⟩
    have hpending : ∀ slot, r.pending ≠ some (slot, none) := by
      rw [hr.pending]
      simp
    exact (Reads.bare (fun _ => ⟨hplain, hpending⟩) hv).read_eq.trans hrest
  | joined hname _ ih =>
    intro r hr hplaced
    obtain ⟨u, hu, hplaced⟩ := placeAll_cons_eq_ok_iff.mp hplaced
    have hrest := ih (hr.place hu) hplaced
    rw [hr.place_eq_store hname] at hu
    exact (Reads.joined hname (settle_of_none hr.pending) hu).read_eq.trans hrest
  | @apart slot name value choices words hname hplain _ ih =>
    intro r hr hplaced
    obtain ⟨u, hu, hplaced⟩ := placeAll_cons_eq_ok_iff.mp hplaced
    have hrest := ih (hr.place hu) hplaced
    rw [hr.place_eq_store hname, ← hr.settle_eq_store] at hu
    rw [(Reads.named hname (settle_of_none hr.pending)).read_eq, (Reads.value rfl hplain).read_eq]
    exact (read_eq_run_iff_of_pending rfl).mpr ⟨u, hu, hrest⟩

/-- **Reading is spelling.** A reader with nothing pending is asked for a run exactly if the
words spell choices that fill its slots. -/
theorem read_eq_run_iff_spelled (hr : r.Settled) : r.read true words = .ok (.run a) ↔
    ∃ choices, Spelled choices words ∧ r.placeAll choices = .ok a.reader :=
  ⟨exists_spelled_of_read hr, fun ⟨_, hspelled, hplaced⟩ => read_of_spelled hspelled hr hplaced⟩

/-! ### Filling slots -/

/-- What a reader has in a slot, as it is written. -/
def value? (r : ArgumentReader) : Slot → Option String
  | .category => r.category.map Category.name
  | .config => r.config.map Path.text
  | .inputRoot => r.inputRoot.map Path.text
  | .outputRoot => r.outputRoot.map Path.text
  | .style => r.style.map ChartStyle.name

/-- What is found by its name was written as that. -/
theorem eq_of_find?_name {α : Type} {all : List α} {name : α → String} {x : α}
    (h : (all.find? fun x => namesMatch false value (name x)) = some x) : value = name x := by
  simpa [namesMatch] using List.find?_some h

theorem path?_eq_some_iff {p : Path} : path? value = some p ↔ value = p.text ∧ value ≠ "" := by
  obtain ⟨text⟩ := p
  simp [path?, and_comm]

theorem styleName?_name (s : ChartStyle) : ChartStyle.ofName? false s.name = some s := by
  cases s <;> rfl

theorem styleName_injective {s s' : ChartStyle} (h : s.name = s'.name) : s = s' := by
  cases s <;> cases s' <;> simp_all [ChartStyle.name]

/-- A value that is put into a slot finds it empty, fills it, and leaves the others alone. -/
theorem value?_of_place (h : r.place slot value = .ok u) :
    r.value? slot = none ∧ value ≠ "" ∧
      u.value? = Function.update r.value? slot (some value) := by
  obtain ⟨v, hv, rfl⟩ := place_eq_ok_iff.mp h
  cases slot <;> obtain ⟨b, hb, hv⟩ := exists_of_bind_eq_ok hv <;> cases hv <;>
    obtain ⟨hnone, hsome, rfl⟩ := fill_eq_ok_iff.mp hb <;>
      obtain ⟨shown, hshown⟩ := Option.isSome_iff_exists.mp hsome
  case' category =>
    obtain rfl := eq_of_find?_name hshown
    have hne : shown.name ≠ "" := by cases shown <;> decide
  case' style =>
    obtain rfl := eq_of_find?_name hshown
    have hne : shown.name ≠ "" := by cases shown <;> decide
  case' config | inputRoot | outputRoot =>
    obtain ⟨rfl, hne⟩ := path?_eq_some_iff.mp hshown
  all_goals
    refine ⟨by rw [value?, hnone]; rfl, hne, ?_⟩
    funext slot
    cases slot <;> simp [value?, Function.update, hshown]

/-- A value that some reader has goes into an empty slot. -/
theorem exists_place (hnone : r.value? slot = none) (hsome : u.value? slot = some value)
    (hne : value ≠ "") : ∃ v, r.place slot value = .ok v := by
  suffices h : ∃ v, r.store slot value = .ok v by
    obtain ⟨v, hv⟩ := h
    exact ⟨_, place_eq_ok_iff.mpr ⟨v, hv, rfl⟩⟩
  cases slot <;> obtain ⟨shown, -, rfl⟩ := Option.map_eq_some_iff.mp hsome <;>
    replace hnone := Option.map_eq_none_iff.mp hnone
  case' category => have hread := Category.ofName?_name shown
  case' style => have hread := styleName?_name shown
  case' config | inputRoot | outputRoot => have hread := path?_eq_some_iff.mpr ⟨rfl, hne⟩
  all_goals exact ⟨_, bind_eq_ok_iff.mpr ⟨_, fill_of_eq_some hnone hread, rfl⟩⟩

/-- Readers with the same values are the same if nothing is pending. -/
theorem Settled.eq_of_value? (hr : r.Settled) (hu : u.Settled) (h : r.value? = u.value?) :
    r = u := by
  have hpaths : Function.Injective (Option.map Path.text) :=
    Option.map_injective fun p p' hp => by cases p; cases p'; cases hp; rfl
  have hcategory : r.category = u.category :=
    Option.map_injective (fun _ _ => Category.name_injective) (congrFun h .category)
  have hconfig : r.config = u.config := hpaths (congrFun h .config)
  have hinput : r.inputRoot = u.inputRoot := hpaths (congrFun h .inputRoot)
  have houtput : r.outputRoot = u.outputRoot := hpaths (congrFun h .outputRoot)
  have hstyle : r.style = u.style :=
    Option.map_injective (fun _ _ => styleName_injective) (congrFun h .style)
  have hpending := hr.pending.trans hu.pending.symm
  have hkept : r.hasCategory = u.hasCategory := by
    rw [hr.hasCategory, hu.hasCategory, hcategory]
  cases r
  cases u
  simp only at hcategory hconfig hinput houtput hstyle hpending hkept
  subst hcategory hconfig hinput houtput hstyle hpending hkept
  rfl

/-- **Filling slots.** Putting values into their slots leads from one reader to another exactly
if none of them is empty and, with the values of the first, they are those of the second. -/
theorem placeAll_eq_ok_iff {choices : List (Slot × String)} (hr : r.Settled) (hu : u.Settled) :
    r.placeAll choices = .ok u ↔ (∀ c ∈ choices, c.2 ≠ "") ∧
      (choices ++ choicesOf r.value?).Perm (choicesOf u.value?) := by
  induction choices generalizing r with
  | nil =>
    constructor
    · intro h
      cases h
      exact ⟨fun _ h => absurd h List.not_mem_nil, .refl _⟩
    · rintro ⟨-, hperm⟩
      refine congrArg Except.ok (hr.eq_of_value? hu ?_)
      funext slot
      apply Option.ext
      intro value
      rw [← mem_choicesOf_iff, ← mem_choicesOf_iff]
      exact hperm.mem_iff
  | cons c choices ih =>
    obtain ⟨slot, value⟩ := c
    rw [placeAll_cons_eq_ok_iff]
    constructor
    · rintro ⟨v, hv, hplaced⟩
      obtain ⟨hnone, hne, hvalues⟩ := value?_of_place hv
      obtain ⟨hall, hperm⟩ := (ih (hr.place hv)).mp hplaced
      refine ⟨List.forall_mem_cons.mpr ⟨hne, hall⟩, ?_⟩
      rw [hvalues] at hperm
      calc ((slot, value) :: choices ++ choicesOf r.value?).Perm
            (choices ++ (slot, value) :: choicesOf r.value?) := List.perm_middle.symm
        List.Perm _ (choices ++ choicesOf (Function.update r.value? slot (some value))) :=
            (choicesOf_update_perm hnone).symm.append_left _
        List.Perm _ (choicesOf u.value?) := hperm
    · rintro ⟨hall, hperm⟩
      obtain ⟨hne, hall⟩ := List.forall_mem_cons.mp hall
      have hmem : (slot, value) ∈ choicesOf u.value? := hperm.subset List.mem_cons_self
      have hnone : r.value? slot = none := by
        rcases hvalue : r.value? slot with _ | value'
        · rfl
        have hnodup := (hperm.map Prod.fst).nodup_iff.mpr (nodup_choicesOf u.value?)
        have hslot : slot ∈ (choices ++ choicesOf r.value?).map Prod.fst :=
          List.mem_map_of_mem (List.mem_append_right _ (mem_choicesOf_iff.mpr hvalue))
        exact absurd hslot (List.nodup_cons.mp hnodup).1
      obtain ⟨v, hv⟩ := exists_place hnone (mem_choicesOf_iff.mp hmem) hne
      obtain ⟨-, -, hvalues⟩ := value?_of_place hv
      refine ⟨v, hv, (ih (hr.place hv)).mpr ⟨hall, ?_⟩⟩
      rw [hvalues]
      calc (choices ++ choicesOf (Function.update r.value? slot (some value))).Perm
            (choices ++ (slot, value) :: choicesOf r.value?) :=
              (choicesOf_update_perm hnone).append_left _
        List.Perm _ ((slot, value) :: (choices ++ choicesOf r.value?)) := List.perm_middle
        List.Perm _ (choicesOf u.value?) := hperm

end ArgumentReader

/-! ### Command lines -/

namespace Arguments

/-- What arguments have in a slot, as it is written. -/
def value? (a : Arguments) : Slot → Option String
  | .category => some a.category.name
  | .config => a.config.map Path.text
  | .inputRoot => a.inputRoot.map Path.text
  | .outputRoot => a.outputRoot.map Path.text
  | .style => a.style.map ChartStyle.name

/-- The words of a command line ask for a run with the arguments: they spell the choices of the
arguments in some order, and no value is empty. -/
def IsGivenBy (a : Arguments) (words : List String) : Prop :=
  ∃ choices, Spelled choices words ∧ (∀ c ∈ choices, c.2 ≠ "") ∧
    choices.Perm (choicesOf a.value?)

theorem settled_reader (a : Arguments) : a.reader.Settled := ⟨rfl, rfl⟩

theorem value?_reader (a : Arguments) : a.reader.value? = a.value? := by
  funext slot
  cases slot <;> rfl

end Arguments

/-- **Which command lines ask for a run.** They do if they spell the choices of its arguments. -/
theorem ofArguments_eq_run_iff {words : List String} {a : Arguments} :
    Request.ofArguments words = .ok (.run a) ↔ a.IsGivenBy words := by
  have hempty : ArgumentReader.empty.Settled := ⟨rfl, rfl⟩
  have hnothing : choicesOf ArgumentReader.empty.value? = [] := rfl
  rw [Request.ofArguments, ArgumentReader.read_eq_run_iff_spelled hempty, Arguments.IsGivenBy]
  simp only [ArgumentReader.placeAll_eq_ok_iff hempty a.settled_reader, a.value?_reader, hnothing,
    List.append_nil]

end BenchLog
