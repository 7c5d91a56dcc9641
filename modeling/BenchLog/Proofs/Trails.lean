/-
# The way of a path

Where a path leads is told by its steps and by where they start; the tree only says
whether the steps can be taken. So two trees with one working directory agree on the
place of a path whenever both of them lead there.

Key definitions: `Path.goal`, `Path.trail`.
Key theorems: `FileTree.locate_eq_ok_iff`, `FileTree.locate_join_eq_ok_iff`,
`FileTree.walk_eq_error`.
-/
import BenchLog.Proofs.Places

namespace BenchLog

/-! ### Places on the way -/

/-- The place that a step leads to. -/
def stepFrom (place : Location) (step : String) : Location :=
  if step = ".." then place.tail else step :: place

/-- Where steps start. -/
def startOf (isRooted : Bool) (workingDirectory : Location) : Location :=
  if isRooted then [] else workingDirectory

/-- The place that steps lead to, the last step first. -/
def goalFrom (start : Location) : List String → Location
  | [] => start
  | step :: steps => stepFrom (goalFrom start steps) step

/-- The places that steps are taken from, the last one first. -/
def trailFrom (start : Location) : List String → List Location
  | [] => []
  | _ :: steps => goalFrom start steps :: trailFrom start steps

namespace Path

/-- Where the steps of a path start. -/
def start (p : Path) (workingDirectory : Location) : Location :=
  startOf p.route.isRooted workingDirectory

/-- The place that a path leads to if its steps can be taken. -/
def goal (p : Path) (workingDirectory : Location) : Location :=
  goalFrom (p.start workingDirectory) p.route.steps

/-- The places that have to be directories for that. -/
def trail (p : Path) (workingDirectory : Location) : List Location :=
  trailFrom (p.start workingDirectory) p.route.steps

/-- A path that ends with a name has a last step. -/
theorem exists_steps_of_ending {p : Path} (h : p.ending = .step) :
    ∃ name steps, p.route.steps = name :: steps := by
  unfold ending at h
  cases hlast : (pieces p.text.toList).getLast? with
  | none => exact absurd (List.getLast?_eq_none_iff.mp hlast) (pieces_ne_nil _)
  | some piece =>
    have hnil : piece ≠ [] := by
      rintro rfl
      rw [hlast] at h
      cases h
    have hdot : piece ≠ ['.'] := by
      rintro rfl
      rw [hlast] at h
      cases h
    obtain ⟨others, hothers⟩ := List.getLast?_eq_some_iff.mp hlast
    refine ⟨String.ofList piece,
      (others.filter fun s => s ≠ [] ∧ s ≠ ['.']).reverse.map String.ofList, ?_⟩
    simp only [route, hothers]
    rw [List.filter_append, List.filter_cons_of_pos (by simp [hnil, hdot]), List.filter_nil,
      List.reverse_append, List.reverse_singleton, List.singleton_append, List.map_cons]

theorem text_ne_of_ending {p : Path} (h : p.ending = .step) : p.text ≠ "" := by
  intro he
  rw [ending, he] at h
  cases h

end Path

namespace FileTree

variable {t u v : FileTree} {p q : Path} {place start : Location} {steps : List String}

/-- Steps can be taken if they are taken from directories. -/
theorem walk_eq_ok_iff : t.walk steps.reverse start = .ok place ↔
    place = goalFrom start steps ∧ ∀ x ∈ trailFrom start steps, t.find? x = some .directory := by
  induction steps generalizing place with
  | nil => simp [walk, goalFrom, trailFrom, eq_comm]
  | cons step steps ih =>
    rw [List.reverse_cons, walk_append, trailFrom, List.forall_mem_cons, goalFrom]
    cases hw : t.walk steps.reverse start with
    | error e =>
      have hnot : ¬∀ x ∈ trailFrom start steps, t.find? x = some .directory := fun h => by
        rw [ih.mpr ⟨rfl, h⟩] at hw
        cases hw
      exact iff_of_false (fun h => by cases h) fun h => hnot h.2.2
    | ok above =>
      obtain ⟨rfl, htrail⟩ := ih.mp hw
      have hbind : (Except.ok (goalFrom start steps) >>= t.walk [step]) =
          t.walk [step] (goalFrom start steps) := rfl
      rw [hbind, walk]
      cases hfind : t.find? (goalFrom start steps) with
      | none => simp
      | some node =>
        cases node with
        | directory =>
          have hlast : t.walk [] (stepFrom (goalFrom start steps) step) = .ok place ↔
              place = stepFrom (goalFrom start steps) step := by
            rw [walk, Except.ok.injEq, eq_comm]
          exact hlast.trans (and_iff_left ⟨rfl, htrail⟩).symm
        | file c => simp

theorem follow_eq_ok_iff {isRooted : Bool} : t.follow ⟨isRooted, steps⟩ = .ok place ↔
    place = goalFrom (startOf isRooted t.workingDirectory) steps ∧
      ∀ x ∈ trailFrom (startOf isRooted t.workingDirectory) steps, t.find? x = some .directory :=
  walk_eq_ok_iff

theorem locate_eq_ok_iff : t.locate p = .ok place ↔
    p.text ≠ "" ∧ place = p.goal t.workingDirectory ∧
      ∀ x ∈ p.trail t.workingDirectory, t.find? x = some .directory := by
  unfold locate
  split
  · simp_all
  · rename_i hne
    rw [follow]
    exact walk_eq_ok_iff.trans (and_iff_right hne).symm

theorem content?_eq_none_iff : t.content? place = none ↔ ∀ c, t.find? place ≠ some (.file c) := by
  simp only [Option.eq_none_iff_forall_ne_some, ne_eq, content?_eq_some_iff]

/-- Where steps cannot be taken, something on the way is missing or is a file. -/
theorem walk_eq_error {e : FileFailure} (h : t.walk steps.reverse start = .error e) :
    e = .missing ∨ ∃ x ∈ trailFrom start steps, t.content? x ≠ none := by
  induction steps generalizing e with
  | nil => cases h
  | cons step steps ih =>
    rw [List.reverse_cons, walk_append] at h
    cases hw : t.walk steps.reverse start with
    | error e' =>
      rw [hw] at h
      cases h
      exact (ih hw).imp_right fun ⟨x, hx, hfile⟩ => ⟨x, List.mem_cons_of_mem _ hx, hfile⟩
    | ok above =>
      obtain ⟨rfl, -⟩ := walk_eq_ok_iff.mp hw
      rw [hw] at h
      have hstep : t.walk [step] (goalFrom start steps) = .error e := h
      rw [walk] at hstep
      split at hstep
      · cases hstep
        exact .inl rfl
      · rename_i c hc
        refine .inr ⟨_, List.mem_cons_self, ?_⟩
        rw [content?_eq_some_iff.mpr hc]
        exact Option.some_ne_none c
      · cases hstep

end FileTree
end BenchLog
