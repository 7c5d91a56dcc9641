/-
# How arguments are read, word by word

A reader that is asked for a run takes a word in one of five ways: as a bare word, as the two
dashes, as a name with its value, as a name without it, or as the value that is missing. It
looks at a value late, when the next choice or the end is reached; whether it has looked at it
already makes no difference to what is asked for.

Key definitions: `Slot.name?`, `IsPlain`, `ArgumentReader.Reads`.
Key theorems: `ArgumentReader.read_cons_eq_run_iff`,
`ArgumentReader.read_eq_run_iff_of_pending`, `ArgumentReader.exists_value_of_read`.
-/
import Mathlib.Data.List.TakeWhile
import BenchLog.Arguments
import BenchLog.Proofs.AlignedTables

namespace BenchLog

/-! ### Words -/

/-- The name of a slot. The category has none. -/
def Slot.name? : Slot → Option String
  | category => none
  | config => some "config"
  | inputRoot => some "input-root"
  | outputRoot => some "output-root"
  | style => some "style"

theorem Slot.ofName?_eq_some_iff {slot : Slot} {name : String} :
    Slot.ofName? name = some slot ↔ slot.name? = some name := by
  unfold ofName?
  split_ifs <;> cases slot <;> simp_all [name?, eq_comm]

/-- A word that can be no name: nothing stands behind a dash at its front. -/
def IsPlain (word : String) : Prop :=
  ∀ c rest, word.toList ≠ '-' :: c :: rest

namespace ArgumentReader

/-- A name ends at the first equals sign. -/
theorem takeWhile_name {name : List Char} (h : ∀ c ∈ name, c ≠ '=') (value : List Char) :
    (name ++ '=' :: value).takeWhile (· ≠ '=') = name := by
  rw [List.takeWhile_append_of_pos (by simpa using h)]
  simp

theorem dropWhile_name {name : List Char} (h : ∀ c ∈ name, c ≠ '=') (value : List Char) :
    (name ++ '=' :: value).dropWhile (· ≠ '=') = '=' :: value := by
  rw [List.dropWhile_append_of_pos (by simpa using h)]
  simp

theorem longName?_joined {name : String} (h : ∀ c ∈ name.toList, c ≠ '=') (value : String) :
    longName? ("--" ++ name ++ "=" ++ value) = some (name, some value) := by
  have hword : ("--" ++ name ++ "=" ++ value).toList =
      '-' :: '-' :: (name.toList ++ '=' :: value.toList) := by simp
  simp only [longName?, hword, dropWhile_name h, takeWhile_name h, String.ofList_toList]

theorem longName?_apart {name : String} (h : ∀ c ∈ name.toList, c ≠ '=') :
    longName? ("--" ++ name) = some (name, none) := by
  have hword : ("--" ++ name).toList = '-' :: '-' :: name.toList := by simp
  have hnone : name.toList.dropWhile (· ≠ '=') = [] := by
    rw [List.dropWhile_eq_nil_iff]
    simpa using h
  simp only [longName?, hword, hnone, String.ofList_toList]

theorem eq_of_longName? {word name : String} {value : Option String}
    (h : longName? word = some (name, value)) :
    word = value.elim ("--" ++ name) fun v => "--" ++ name ++ "=" ++ v := by
  unfold longName? at h
  split at h
  case h_2 => cases h
  rename_i cs hword
  apply String.toList_inj.mp
  split at h
  · cases h
    simp [hword]
  · rename_i c rest hdrop
    cases h
    have hc : c = '=' := by
      have hne : cs.dropWhile (· ≠ '=') ≠ [] := by
        rw [hdrop]
        exact List.cons_ne_nil c rest
      have hhead := List.head_dropWhile_not _ hne
      simpa only [hdrop, List.head_cons, decide_eq_false_iff_not, not_not] using hhead
    have hcs : cs.takeWhile (· ≠ '=') ++ c :: rest = cs := by
      rw [← hdrop, List.takeWhile_append_dropWhile]
    rw [hc] at hcs
    simpa [hword] using hcs.symm

theorem shortName?_eq_none_iff {word : String} : shortName? word = none ↔ IsPlain word := by
  unfold shortName? IsPlain
  split
  · rename_i c cs hcs
    simp [hcs]
  · rename_i hnone
    simpa using hnone

/-- A word that can be no name is not taken for one. -/
theorem of_isPlain {word : String} (h : IsPlain word) :
    word ≠ "--" ∧ longName? word = none ∧ shortName? word = none := by
  refine ⟨?_, ?_, shortName?_eq_none_iff.mpr h⟩
  · rintro rfl
    exact h '-' [] rfl
  · unfold longName?
    split
    · rename_i cs hcs
      exact absurd hcs (h _ _)
    · rfl

/-! ### Looking at a value -/

variable {r u : ArgumentReader} {slot : Slot} {word name value : String} {words : List String}
  {isOpen : Bool} {a : Arguments}

/-- A value that is put into its slot changes nothing else. -/
theorem frame_store (h : r.store slot value = .ok u) :
    u.pending = r.pending ∧ u.hasCategory = r.hasCategory := by
  cases slot <;>
  · obtain ⟨b, -, hu⟩ := exists_of_bind_eq_ok h
    cases hu
    exact ⟨rfl, rfl⟩

theorem frame_settle (h : r.settle = .ok u) :
    u.pending = none ∧ u.hasCategory = r.hasCategory := by
  unfold settle at h
  split at h
  · rename_i hnone
    cases h
    exact ⟨hnone, rfl⟩
  · cases h
  · exact frame_store h

theorem settle_settle (h : r.settle = .ok u) : u.settle = .ok u :=
  settle_of_none (frame_settle h).1

/-- A bare word may come after the value has been looked at. -/
theorem takeUnnamed_eq_ok_iff {v : ArgumentReader} :
    r.takeUnnamed word = .ok v ↔ r.hasCategory = false ∧ ∃ u, r.settle = .ok u ∧
      v = { u with pending := some (.category, some word), hasCategory := true } := by
  unfold takeUnnamed
  by_cases h : r.hasCategory
  · rw [if_pos h]
    constructor
    · intro hthrow
      cases hthrow
    · rintro ⟨hfalse, -⟩
      rw [h] at hfalse
      cases hfalse
  · rw [if_neg h, bind_eq_ok_iff]
    simp only [Bool.not_eq_true] at h
    simp [h, pure, Except.pure, eq_comm]

theorem finish_eq_run_iff :
    r.finish = .ok (.run a) ↔ ∃ u, r.settle = .ok u ∧ u.category = some a.category ∧
      u.config = a.config ∧ u.inputRoot = a.inputRoot ∧ u.outputRoot = a.outputRoot ∧
        u.style = a.style := by
  unfold finish
  rw [bind_eq_ok_iff]
  refine exists_congr fun u => and_congr_right fun _ => ?_
  cases u.category
  · simp [throw, throwThe, MonadExceptOf.throw]
  · cases a
    simp [pure, Except.pure]

/-! ### One word -/

/-- How a reader takes a word when a run is asked for. -/
inductive Reads (r : ArgumentReader) : Bool → String → ArgumentReader → Bool → Prop
  | bare {isOpen : Bool} {word : String} {u : ArgumentReader} :
      (isOpen = true → IsPlain word ∧ ∀ slot, r.pending ≠ some (slot, none)) →
        r.takeUnnamed word = .ok u → Reads r isOpen word u isOpen
  | dashes : Reads r true "--" r false
  | joined {slot : Slot} {name value : String} {v u : ArgumentReader} :
      slot.name? = some name → r.settle = .ok v → v.store slot value = .ok u →
        Reads r true ("--" ++ name ++ "=" ++ value) u true
  | named {slot : Slot} {name : String} {u : ArgumentReader} :
      slot.name? = some name → r.settle = .ok u →
        Reads r true ("--" ++ name) { u with pending := some (slot, none) } true
  | value {slot : Slot} {word : String} :
      r.pending = some (slot, none) → IsPlain word →
        Reads r true word { r with pending := some (slot, some word) } true

theorem of_name? (h : slot.name? = some name) :
    (∀ c ∈ name.toList, c ≠ '=') ∧ longRequest? name = none ∧ name ≠ "" := by
  cases slot <;> cases h <;> simp [longRequest?]

theorem longRequest?_ne_run : longRequest? name ≠ some (.run a) := by
  unfold longRequest?
  split_ifs <;> simp

theorem shortRequest?_ne_run {letter : Char} : shortRequest? letter ≠ some (.run a) := by
  unfold shortRequest?
  split_ifs <;> simp

/-- The name of a slot comes with the value or in front of it. -/
theorem read_name {value : Option String} (hname : slot.name? = some name)
    (hlong : longName? word = some (name, value)) (hdashes : word ≠ "--") :
    r.read true (word :: words) = r.settle >>= fun v =>
      match value with
      | some value => v.store slot value >>= fun u => u.read true words
      | none => { v with pending := some (slot, none) }.read true words := by
  obtain ⟨-, hrequest, -⟩ := of_name? hname
  rw [read, if_neg (by decide), if_neg hdashes, hlong]
  dsimp only
  rw [hrequest, Slot.ofName?_eq_some_iff.mpr hname]
  cases value <;> rfl

/-- A reader reads on as the one that has taken the word. -/
theorem Reads.read_eq {isOpen' : Bool} (h : r.Reads isOpen word u isOpen') :
    r.read isOpen (word :: words) = u.read isOpen' words := by
  cases h with
  | bare hword hu =>
    cases isOpen
    case false =>
      rw [read, if_pos (by decide), hu]
      rfl
    case true =>
      obtain ⟨hplain, hpending⟩ := hword rfl
      obtain ⟨hdashes, hlong, hshort⟩ := of_isPlain hplain
      rw [read, if_neg (by decide), if_neg hdashes, hlong, hshort]
      dsimp only
      split
      · rename_i slot h
        exact absurd h (hpending slot)
      · rw [hu]
        rfl
  | dashes => rw [read, if_neg (by decide), if_pos rfl]
  | @joined slot name value v u hname hv hu =>
    have hlong := longName?_joined (of_name? hname).1 value
    have hdashes : "--" ++ name ++ "=" ++ value ≠ "--" := by
      intro h
      rw [h] at hlong
      cases hlong
    rw [read_name hname hlong hdashes, hv]
    show (v.store slot value >>= fun u => u.read true words) = _
    rw [hu]
    rfl
  | @named slot name u hname hu =>
    obtain ⟨hequals, -, hne⟩ := of_name? hname
    have hdashes : "--" ++ name ≠ "--" := by simpa using hne
    rw [read_name hname (longName?_apart hequals) hdashes, hu]
    rfl
  | value hpending hplain =>
    obtain ⟨hdashes, hlong, hshort⟩ := of_isPlain hplain
    rw [read, if_neg (by decide), if_neg hdashes, hlong, hshort]
    dsimp only
    rw [hpending]

/-- A reader that is asked for a run takes every word in one of the ways. -/
theorem exists_reads (h : r.read isOpen (word :: words) = .ok (.run a)) :
    ∃ u isOpen', r.Reads isOpen word u isOpen' := by
  unfold read at h
  split at h
  · rename_i hclosed
    obtain ⟨u, hu, -⟩ := exists_of_bind_eq_ok h
    obtain rfl : isOpen = false := by simpa using hclosed
    exact ⟨u, false, .bare (fun hopen => by cases hopen) hu⟩
  rename_i hopen
  obtain rfl : isOpen = true := by simpa using hopen
  split at h
  · rename_i hdashes
    exact ⟨r, false, hdashes ▸ .dashes⟩
  split at h
  · rename_i name value hlong
    have hword := eq_of_longName? hlong
    split at h
    · rename_i hrequest
      obtain ⟨_, -, hrun⟩ := exists_of_bind_eq_ok h
      cases hrun
      exact absurd hrequest longRequest?_ne_run
    · cases h
    · cases h
    · rename_i hslot
      obtain ⟨v, hv, h⟩ := exists_of_bind_eq_ok h
      obtain ⟨u, hu, -⟩ := exists_of_bind_eq_ok h
      rw [hword]
      exact ⟨u, true, .joined (Slot.ofName?_eq_some_iff.mp hslot) hv hu⟩
    · rename_i hslot
      obtain ⟨u, hu, -⟩ := exists_of_bind_eq_ok h
      rw [hword]
      exact ⟨_, true, .named (Slot.ofName?_eq_some_iff.mp hslot) hu⟩
  · split at h
    · rename_i request hrequest
      obtain ⟨_, -, hrun⟩ := exists_of_bind_eq_ok h
      cases hrun
      exact absurd hrequest shortRequest?_ne_run
    · cases h
  · rename_i hshort
    have hplain := shortName?_eq_none_iff.mp hshort
    split at h
    · rename_i hpending
      exact ⟨_, true, .value hpending hplain⟩
    · rename_i hpending
      obtain ⟨u, hu, -⟩ := exists_of_bind_eq_ok h
      exact ⟨u, true, .bare (fun _ => ⟨hplain, hpending⟩) hu⟩

/-- What a word does to a reader that is asked for a run, and all that it can do. -/
theorem read_cons_eq_run_iff : r.read isOpen (word :: words) = .ok (.run a) ↔
    ∃ u isOpen', r.Reads isOpen word u isOpen' ∧ u.read isOpen' words = .ok (.run a) := by
  constructor
  · intro h
    obtain ⟨u, isOpen', hreads⟩ := exists_reads h
    exact ⟨u, isOpen', hreads, hreads.read_eq ▸ h⟩
  · rintro ⟨u, isOpen', hreads, h⟩
    exact hreads.read_eq.trans h

/-! ### A value that is pending -/

/-- Where the value is there, taking a word does not depend on whether it has been looked at.
Two dashes leave it as it is. -/
theorem reads_iff_of_pending {isOpen' : Bool} (h : r.pending = some (slot, some value))
    (hword : isOpen = true → word ≠ "--") :
    r.Reads isOpen word u isOpen' ↔ ∃ v, r.settle = .ok v ∧ v.Reads isOpen word u isOpen' := by
  constructor
  · intro hreads
    cases hreads with
    | bare hplain hu =>
      obtain ⟨hcategory, v, hv, rfl⟩ := takeUnnamed_eq_ok_iff.mp hu
      obtain ⟨hpending, hkept⟩ := frame_settle hv
      refine ⟨v, hv, .bare (fun hopen => ⟨(hplain hopen).1, fun slot => ?_⟩) ?_⟩
      · rw [hpending]
        simp
      · exact takeUnnamed_eq_ok_iff.mpr ⟨hkept.trans hcategory, v, settle_settle hv, rfl⟩
    | dashes => exact absurd rfl (hword rfl)
    | joined hname hv hu => exact ⟨_, hv, .joined hname (settle_settle hv) hu⟩
    | named hname hu => exact ⟨_, hu, .named hname (settle_settle hu)⟩
    | value hpending => cases hpending.symm.trans h
  · rintro ⟨v, hv, hreads⟩
    obtain ⟨hpending, hkept⟩ := frame_settle hv
    have hv' := settle_of_none hpending
    cases hreads with
    | bare hplain hu =>
      obtain ⟨hcategory, w, hw, rfl⟩ := takeUnnamed_eq_ok_iff.mp hu
      cases hv'.symm.trans hw
      refine .bare (fun hopen => ⟨(hplain hopen).1, fun slot => ?_⟩) ?_
      · rw [h]
        simp
      · exact takeUnnamed_eq_ok_iff.mpr ⟨hkept ▸ hcategory, v, hv, rfl⟩
    | dashes => exact absurd rfl (hword rfl)
    | joined hname hw hu =>
      cases hv'.symm.trans hw
      exact .joined hname hv hu
    | named hname hu =>
      cases hv'.symm.trans hu
      exact .named hname hv
    | value hvalue => cases hpending.symm.trans hvalue

/-- A reader whose value is there may look at it before it reads on. -/
theorem read_eq_run_iff_of_pending (h : r.pending = some (slot, some value)) :
    r.read isOpen words = .ok (.run a) ↔
      ∃ u, r.settle = .ok u ∧ u.read isOpen words = .ok (.run a) := by
  induction words generalizing isOpen with
  | nil =>
    simp only [read, finish_eq_run_iff]
    constructor
    · rintro ⟨u, hu, hfields⟩
      exact ⟨u, hu, u, settle_settle hu, hfields⟩
    · rintro ⟨u, hu, v, hv, hfields⟩
      rw [settle_settle hu] at hv
      cases hv
      exact ⟨u, hu, hfields⟩
  | cons word words ih =>
    by_cases hdashes : isOpen = true ∧ word = "--"
    · obtain ⟨rfl, rfl⟩ := hdashes
      simp only [Reads.dashes.read_eq]
      exact ih
    · have hword : isOpen = true → word ≠ "--" := not_and.mp hdashes
      simp only [read_cons_eq_run_iff, reads_iff_of_pending h hword]
      constructor
      · rintro ⟨u, isOpen', ⟨v, hv, hreads⟩, hrest⟩
        exact ⟨v, hv, u, isOpen', hreads, hrest⟩
      · rintro ⟨v, hv, u, isOpen', hreads, hrest⟩
        exact ⟨u, isOpen', ⟨v, hv, hreads⟩, hrest⟩

/-- Without its value a slot ends the reading, unless the value is the next word. -/
theorem exists_value_of_read (h : r.pending = some (slot, none))
    (hread : r.read isOpen words = .ok (.run a)) :
    ∃ value rest, words = value :: rest ∧ isOpen = true ∧ IsPlain value ∧
      { r with pending := some (slot, some value) }.read true rest = .ok (.run a) := by
  have hsettle : ∀ u, r.settle ≠ .ok u := by
    intro u hu
    rw [settle, h] at hu
    cases hu
  induction words generalizing isOpen with
  | nil =>
    obtain ⟨u, hu, -⟩ := finish_eq_run_iff.mp hread
    exact absurd hu (hsettle u)
  | cons word words ih =>
    obtain ⟨u, isOpen', hreads, hrest⟩ := read_cons_eq_run_iff.mp hread
    cases hreads with
    | bare _ hu =>
      obtain ⟨-, v, hv, -⟩ := takeUnnamed_eq_ok_iff.mp hu
      exact absurd hv (hsettle v)
    | dashes =>
      obtain ⟨_, _, -, hopen, -⟩ := ih hrest
      cases hopen
    | joined _ hv => exact absurd hv (hsettle _)
    | named _ hu => exact absurd hu (hsettle _)
    | value hpending hplain =>
      cases h.symm.trans hpending
      exact ⟨word, words, rfl, rfl, hplain, hrest⟩

end ArgumentReader
end BenchLog
