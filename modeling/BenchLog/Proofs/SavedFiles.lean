/-
# Saving a file

Saving a file succeeds if its path starts at a directory, nothing on the way is a file and
the place itself is no directory. Then there are directories on the way and the file
is at its place, and nothing else has changed.

Key definitions: `FileTree.AddsDirectories`, `FileTree.Takes`.
Key theorems: `FileTree.addsDirectories_of_makeDirectories`,
`FileTree.exists_makeDirectories`, `FileTask.find?_of_save`, `FileTask.exists_save`.
-/
import BenchLog.Proofs.Trails
import BenchLog.Proofs.WrittenContents

namespace BenchLog

namespace FileTree

variable {t u v : FileTree} {p : Path} {place start : Location} {steps : List String}

/-! ### Making directories -/

/-- Makes a directory where there is none. -/
def ensureDirectory (t : FileTree) (r : Route) : Except FileFailure Unit × FileTree :=
  match t.makeDirectory r with
  | .ok t => (.ok (), t)
  | .error e => (if t.isDirectory r then .ok () else .error e, t)

theorem makeDirectories_cons (isRooted : Bool) (step : String) (steps : List String)
    (t : FileTree) :
    makeDirectories isRooted (step :: steps) t =
      match t.makeDirectory ⟨isRooted, step :: steps⟩ with
      | .error .missing =>
        match makeDirectories isRooted steps t with
        | (.ok (), t) => t.ensureDirectory ⟨isRooted, step :: steps⟩
        | failed => failed
      | _ => t.ensureDirectory ⟨isRooted, step :: steps⟩ := rfl

theorem isDirectory_iff {r : Route} :
    t.isDirectory r = true ↔ ∃ place, t.follow r = .ok place ∧ t.find? place = some .directory := by
  unfold isDirectory
  cases hf : t.follow r with
  | error e => simp [Except.map]
  | ok place =>
    simp only [Except.map, Except.ok.injEq, exists_eq_left']
    cases t.find? place with
    | none => simp
    | some node => cases node <;> simp

/-- One tree is another with directories at the given places. -/
structure AddsDirectories (t u : FileTree) (places : List Location) : Prop where
  workingDirectory : u.workingDirectory = t.workingDirectory
  find?_eq : ∀ x, u.find? x = if x ∈ places then some .directory else t.find? x

namespace AddsDirectories

variable {places more : List Location}

/-- Directories that are there already. -/
theorem of_forall (h : ∀ x ∈ places, t.find? x = some .directory) : t.AddsDirectories t places := by
  refine ⟨rfl, fun x => ?_⟩
  split
  · rename_i hx
    exact h x hx
  · rfl

theorem trans (h : t.AddsDirectories u places) (h' : u.AddsDirectories v more) :
    t.AddsDirectories v (more ++ places) := by
  refine ⟨h'.workingDirectory.trans h.workingDirectory, fun x => ?_⟩
  rw [h'.find?_eq, h.find?_eq]
  by_cases hx : x ∈ more <;> simp [hx]

theorem find?_of_mem (h : t.AddsDirectories u places) {x : Location} (hx : x ∈ places) :
    u.find? x = some .directory := by
  rw [h.find?_eq, if_pos hx]

end AddsDirectories

section Making

variable {isRooted : Bool} {step : String}

/-- The place where steps start is on their way. -/
theorem start_mem_trailFrom (start : Location) (step : String) (steps : List String) :
    start ∈ trailFrom start (step :: steps) := by
  induction steps generalizing step with
  | nil => exact List.mem_cons_self
  | cons last steps ih => exact List.mem_cons_of_mem _ (ih last)

theorem addsDirectories_of_ensureDirectory {r : Route} (h : t.ensureDirectory r = (.ok (), u)) :
    ∃ place, t.follow r = .ok place ∧ t.AddsDirectories u [place] := by
  unfold ensureDirectory at h
  cases hmade : t.makeDirectory r with
  | ok w =>
    rw [hmade] at h
    cases h
    unfold makeDirectory at hmade
    cases hf : t.follow r with
    | error e =>
      rw [hf] at hmade
      cases hmade
    | ok place =>
      rw [hf] at hmade
      simp only [bind, Except.bind] at hmade
      split at hmade
      · cases hmade
      · rename_i hnone
        cases hmade
        refine ⟨place, rfl, rfl, fun x => ?_⟩
        by_cases hx : x = place
        · rw [hx, if_pos List.mem_cons_self]
          exact Extends.find?_put_self (by simp [hnone]) _
        · rw [if_neg (by simpa using hx)]
          exact find?_put_of_ne hx
  | error e =>
    rw [hmade, Prod.mk.injEq] at h
    obtain ⟨hok, rfl⟩ := h
    split at hok
    · rename_i hdirectory
      obtain ⟨place, hplace, hfind⟩ := isDirectory_iff.mp hdirectory
      exact ⟨place, hplace, .of_forall (List.forall_mem_singleton.mpr hfind)⟩
    · cases hok

theorem exists_ensureDirectory {r : Route} (hf : t.follow r = .ok place)
    (hplace : t.content? place = none) : ∃ u, t.ensureDirectory r = (.ok (), u) := by
  unfold ensureDirectory makeDirectory
  rw [hf]
  simp only [bind, Except.bind]
  cases hfind : t.find? place with
  | none => exact ⟨_, rfl⟩
  | some node =>
    cases node with
    | file c => exact absurd hfind (content?_eq_none_iff.mp hplace c)
    | directory =>
      refine ⟨t, ?_⟩
      simp only [isDirectory_iff.mpr ⟨place, hf, hfind⟩, if_true]

/-- Making a directory and those above it adds the places that a step behind it passes. -/
theorem addsDirectories_of_makeDirectories
    (hstart : t.find? (startOf isRooted t.workingDirectory) = some .directory)
    (h : makeDirectories isRooted steps t = (.ok (), u)) (step : String) :
    t.AddsDirectories u (trailFrom (startOf isRooted t.workingDirectory) (step :: steps)) := by
  induction steps generalizing u step with
  | nil =>
    cases h
    exact .of_forall (List.forall_mem_singleton.mpr hstart)
  | cons last steps ih =>
    -- The directory is made or found in the tree itself, or where those above it were made.
    have hlast : ∀ w : FileTree, w.ensureDirectory ⟨isRooted, last :: steps⟩ = (.ok (), u) →
        t.AddsDirectories w (trailFrom (startOf isRooted t.workingDirectory) (last :: steps)) →
        t.AddsDirectories u
          (trailFrom (startOf isRooted t.workingDirectory) (step :: last :: steps)) := by
      intro w hw hadds
      obtain ⟨place, hplace, hu⟩ := addsDirectories_of_ensureDirectory hw
      obtain ⟨rfl, -⟩ := follow_eq_ok_iff.mp hplace
      rw [hadds.workingDirectory] at hu
      exact hadds.trans hu
    have hhere : t.ensureDirectory ⟨isRooted, last :: steps⟩ = (.ok (), u) →
        t.AddsDirectories u
          (trailFrom (startOf isRooted t.workingDirectory) (step :: last :: steps)) := by
      intro hu
      obtain ⟨place, hplace, -⟩ := addsDirectories_of_ensureDirectory hu
      exact hlast t hu (.of_forall (follow_eq_ok_iff.mp hplace).2)
    rw [makeDirectories_cons] at h
    split at h
    · split at h
      · rename_i w hw
        exact hlast w h (ih hw last)
      · rename_i hfailed
        exact absurd h (hfailed u)
    · exact hhere h

/-- Directories can be made where no file is in the way. -/
theorem exists_makeDirectories
    (hstart : t.find? (startOf isRooted t.workingDirectory) = some .directory)
    (hfree : ∀ x ∈ trailFrom (startOf isRooted t.workingDirectory) (step :: steps),
      t.content? x = none) :
    ∃ u, makeDirectories isRooted steps t = (.ok (), u) := by
  induction steps generalizing step with
  | nil => exact ⟨t, rfl⟩
  | cons last steps ih =>
    rw [trailFrom, List.forall_mem_cons] at hfree
    rw [makeDirectories_cons]
    cases hf : t.follow ⟨isRooted, last :: steps⟩ with
    | ok place =>
      obtain ⟨rfl, -⟩ := follow_eq_ok_iff.mp hf
      obtain ⟨u, hu⟩ := exists_ensureDirectory hf hfree.1
      refine ⟨u, ?_⟩
      rw [← hu]
      unfold makeDirectory
      rw [hf]
      simp only [bind, Except.bind]
      cases t.find? (goalFrom (startOf isRooted t.workingDirectory) (last :: steps)) <;> rfl
    | error e =>
      have hmissing : e = .missing := by
        refine (walk_eq_error hf).resolve_right ?_
        rintro ⟨x, hx, hfile⟩
        exact hfile (hfree.2 x hx)
      subst hmissing
      obtain ⟨w, hw⟩ := @ih last hfree.2
      have hadds := addsDirectories_of_makeDirectories hstart hw last
      have hthere : w.follow ⟨isRooted, last :: steps⟩ =
          .ok (goalFrom (startOf isRooted t.workingDirectory) (last :: steps)) := by
        refine follow_eq_ok_iff.mpr ⟨by rw [hadds.workingDirectory], fun x hx => ?_⟩
        rw [hadds.workingDirectory] at hx
        exact hadds.find?_of_mem hx
      have hgoal : w.content? (goalFrom (startOf isRooted t.workingDirectory) (last :: steps)) =
          none := by
        refine content?_eq_none_iff.mpr fun c hc => ?_
        rw [hadds.find?_eq] at hc
        split at hc
        · cases hc
        · exact content?_eq_none_iff.mp hfree.1 c hc
      obtain ⟨u, hu⟩ := exists_ensureDirectory hthere hgoal
      refine ⟨u, ?_⟩
      rw [← hu]
      unfold makeDirectory
      rw [hf]
      simp only [bind, Except.bind, hw]

/-- Nothing is made where the first step cannot be taken. -/
theorem makeDirectories_of_no_start
    (hstart : t.find? (startOf isRooted t.workingDirectory) ≠ some .directory) :
    (makeDirectories isRooted steps t).2 = t := by
  induction steps with
  | nil => rfl
  | cons step steps ih =>
    have hmake : ∃ e, t.makeDirectory ⟨isRooted, step :: steps⟩ = .error e := by
      unfold makeDirectory
      cases hf : t.follow ⟨isRooted, step :: steps⟩ with
      | error e => exact ⟨e, rfl⟩
      | ok place =>
        exact absurd ((follow_eq_ok_iff.mp hf).2 _ (start_mem_trailFrom _ step steps)) hstart
    obtain ⟨e, he⟩ := hmake
    have hensure : (t.ensureDirectory ⟨isRooted, step :: steps⟩).2 = t := by
      rw [ensureDirectory, he]
    rw [makeDirectories_cons, he]
    cases e
    case missing =>
      rcases hrest : makeDirectories isRooted steps t with ⟨_ | _, w⟩
      · rw [hrest] at ih
        exact ih
      · rw [hrest] at ih
        subst ih
        exact hensure
    all_goals exact hensure

end Making

/-! ### Saving one file -/

/-- A tree takes a file of a path: the path starts at a directory and ends with a name,
no file is in its way, and its place is no directory and will not become one. -/
structure Takes (t : FileTree) (p : Path) : Prop where
  ending : p.ending = .step
  start : t.find? (p.start t.workingDirectory) = some .directory
  trail : ∀ x ∈ p.trail t.workingDirectory, t.content? x = none
  goal_not_mem : p.goal t.workingDirectory ∉ p.trail t.workingDirectory
  goal_ne : t.find? (p.goal t.workingDirectory) ≠ some .directory

theorem write_eq_ok_iff {c : Content} : t.write p c = .ok u ↔
    p.ending = .step ∧ ∃ place, t.locate p = .ok place ∧ t.find? place ≠ some .directory ∧
      u = t.put place (.file c) := by
  constructor
  · intro h
    obtain ⟨place, hplace, hdirectory, hending, hu⟩ := exists_of_write h
    exact ⟨hending, place, hplace, hdirectory, hu⟩
  · rintro ⟨hending, place, hplace, hdirectory, rfl⟩
    unfold write
    rw [hplace, hending]
    simp only [bind, Except.bind]

end FileTree

namespace FileTask

variable {t u v : FileTree} {p q : Path} {c : Content}

theorem save_eq_ok_iff : save p c t = (.ok (), u) ↔
    ∃ w, makeParent p t = (.ok (), w) ∧ w.write p c = .ok u := by
  constructor
  · intro h
    obtain ⟨_, w, hw, h⟩ := exists_of_bind_ok h
    refine ⟨w, hw, ?_⟩
    cases hwrite : w.write p c with
    | error e =>
      rw [write, hwrite] at h
      cases h
    | ok x =>
      rw [write, hwrite] at h
      cases h
      rfl
  · rintro ⟨w, hw, hwrite⟩
    rw [save, bind_of_ok hw, write, hwrite]

theorem makeParent_eq_ok_iff {name : String} {steps : List String}
    (h : p.route.steps = name :: steps) :
    makeParent p t = (.ok (), u) ↔
      FileTree.makeDirectories p.route.isRooted steps t = (.ok (), u) := by
  simp only [makeParent, Route.parent?, h]
  rcases FileTree.makeDirectories p.route.isRooted steps t with ⟨_ | _, w⟩
  · exact iff_of_false (fun hmade => by cases hmade) fun hmade => by cases hmade
  · constructor
    · intro hmade
      cases hmade
      rfl
    · intro hmade
      cases hmade
      rfl

/-- Saving a file leaves directories on its way and the file at its place. -/
theorem find?_of_save (h : save p c t = (.ok (), u)) :
    t.Takes p ∧ u.workingDirectory = t.workingDirectory ∧ ∀ x, u.find? x =
      if x = p.goal t.workingDirectory then some (.file c)
      else if x ∈ p.trail t.workingDirectory then some .directory else t.find? x := by
  obtain ⟨w, hparent, hwrite⟩ := save_eq_ok_iff.mp h
  obtain ⟨hending, place, hplace, hdirectory, rfl⟩ := FileTree.write_eq_ok_iff.mp hwrite
  obtain ⟨name, steps, hsteps⟩ := Path.exists_steps_of_ending hending
  rw [makeParent_eq_ok_iff hsteps] at hparent
  have hextends := (evolves_makeDirectories p.route.isRooted steps t).toExtends
  rw [hparent] at hextends
  obtain ⟨-, hgoal, htrail⟩ := FileTree.locate_eq_ok_iff.mp hplace
  rw [hextends.workingDirectory] at hgoal htrail
  subst hgoal
  have hstart : t.find? (p.start t.workingDirectory) = some .directory := by
    by_contra hnot
    -- Then nothing is made, and the first step cannot be taken at the end either.
    have hw : (FileTree.makeDirectories p.route.isRooted steps t).2 = t :=
      FileTree.makeDirectories_of_no_start hnot
    rw [hparent] at hw
    subst hw
    refine hnot (htrail _ ?_)
    rw [Path.trail, hsteps]
    exact FileTree.start_mem_trailFrom _ name steps
  have hadds := FileTree.addsDirectories_of_makeDirectories hstart hparent name
  have hway : trailFrom (startOf p.route.isRooted t.workingDirectory) (name :: steps) =
      p.trail t.workingDirectory := by
    rw [Path.trail, hsteps, Path.start]
  rw [hway] at hadds
  refine ⟨⟨hending, hstart, fun x hx => ?_, fun hmem => ?_, fun hgoal => ?_⟩, ?_, fun x => ?_⟩
  · refine FileTree.content?_eq_none_iff.mpr fun d hd => ?_
    obtain ⟨d', hd'⟩ := hextends.file x d hd
    rw [htrail x hx] at hd'
    cases hd'
  · exact hdirectory (htrail _ hmem)
  · exact hdirectory (hextends.directory _ hgoal)
  · exact hadds.workingDirectory
  · split
    · rename_i hx
      rw [hx]
      exact FileTree.Extends.find?_put_self hdirectory _
    · rename_i hx
      rw [FileTree.find?_put_of_ne hx, hadds.find?_eq]

/-- A file can be saved where the tree takes it. -/
theorem exists_save (h : t.Takes p) (c : Content) : ∃ u, save p c t = (.ok (), u) := by
  obtain ⟨name, steps, hsteps⟩ := Path.exists_steps_of_ending h.ending
  have hway : trailFrom (startOf p.route.isRooted t.workingDirectory) (name :: steps) =
      p.trail t.workingDirectory := by
    rw [Path.trail, hsteps, Path.start]
  have hfree := h.trail
  rw [← hway] at hfree
  obtain ⟨w, hw⟩ := FileTree.exists_makeDirectories h.start hfree
  have hadds := FileTree.addsDirectories_of_makeDirectories h.start hw name
  rw [hway] at hadds
  refine ⟨w.put (p.goal t.workingDirectory) (.file c),
    save_eq_ok_iff.mpr ⟨w, (makeParent_eq_ok_iff hsteps).mpr hw, ?_⟩⟩
  refine FileTree.write_eq_ok_iff.mpr ⟨h.ending, p.goal t.workingDirectory, ?_, ?_, rfl⟩
  · refine FileTree.locate_eq_ok_iff.mpr ⟨Path.text_ne_of_ending h.ending, ?_, fun x hx => ?_⟩
    · rw [hadds.workingDirectory]
    · rw [hadds.workingDirectory] at hx
      exact hadds.find?_of_mem hx
  · rw [hadds.find?_eq, if_neg h.goal_not_mem]
    exact h.goal_ne

end FileTask

end BenchLog
