/-
# Where the files in a directory stand

A name that is a step of its own, joined to the path of a directory, leads to the
file of this name at the place of the directory. So two such files are at one
place if and only if they have one name and their directories are at one place,
whatever the paths of the directories look like.

Key definitions: `Path.IsStep`.
Key theorems: `Path.route_join`, `FileTree.exists_locate_join`,
`FileTree.locate_join_eq_iff`.
-/
import BenchLog.Proofs.FileEffects

namespace BenchLog

namespace Path

/-- A name that takes one step downwards. -/
structure IsStep (name : String) : Prop where
  no_slash : '/' ∉ name.toList
  not_empty : name ≠ ""
  not_dot : name ≠ "."
  not_up : name ≠ ".."

/-- The name is kept when the steps of a path are taken from its pieces. -/
theorem IsStep.filter_pieces {name : String} (h : IsStep name) :
    (pieces name.toList).filter (fun s => s ≠ [] ∧ s ≠ ['.']) = [name.toList] := by
  have hnil : name.toList ≠ [] := fun he => h.not_empty (String.toList_eq_nil_iff.mp he)
  have hdot : name.toList ≠ ['.'] := fun he => h.not_dot (String.toList_inj.mp he)
  rw [pieces_of_no_slash h.no_slash, List.filter_cons_of_pos (by simp [hnil, hdot]),
    List.filter_nil]

/-- A name takes one step if it ends with a text that has no slash and is long enough. -/
theorem isStep_append {front ending : String} (hfront : '/' ∉ front.toList)
    (hending : '/' ∉ ending.toList) (hlong : 3 ≤ ending.length) : IsStep (front ++ ending) := by
  have hne : ∀ short : String, short.length < 3 → front ++ ending ≠ short := by
    rintro short hshort rfl
    rw [String.length_append] at hshort
    omega
  refine ⟨?_, hne _ (by decide), hne _ (by decide), hne _ (by decide)⟩
  rw [String.toList_append, List.mem_append, not_or]
  exact ⟨hfront, hending⟩

theorem join_text_ne {dir below : Path} (h : below.text ≠ "") : (dir.join below).text ≠ "" := by
  have hne : ∀ front : String, front ++ below.text ≠ "" := fun front he =>
    h (String.append_eq_empty_iff.mp he).2
  unfold join
  split
  · exact h
  · split
    · exact hne dir.text
    · exact hne (dir.text ++ "/")

variable {dir : Path} {name : String}

theorem not_isAbsolute_of_isStep (h : IsStep name) : (⟨name⟩ : Path).isAbsolute = false := by
  rw [isAbsolute, beq_eq_false_iff_ne]
  exact fun he => h.no_slash (List.mem_of_head? he)

/-- One slash stands between the directory and the name. -/
theorem exists_toList_join (hdir : dir.text ≠ "") (h : IsStep name) :
    ∃ front, (dir.join ⟨name⟩).text.toList = front ++ '/' :: name.toList ∧
      (dir.text.toList = front ∧ front ≠ [] ∨ dir.text.toList = front ++ ['/']) := by
  have hne : dir.text.toList ≠ [] := fun he => hdir (String.toList_eq_nil_iff.mp he)
  rw [join, if_neg (by rw [not_isAbsolute_of_isStep h]; exact Bool.false_ne_true)]
  split
  · rename_i hslash
    obtain ⟨front, hfront⟩ := List.getLast?_eq_some_iff.mp (hslash.resolve_left hne)
    exact ⟨front, by simp [hfront], .inr hfront⟩
  · exact ⟨dir.text.toList, by simp, .inl ⟨rfl, hne⟩⟩

/-- A step behind a directory is its last one. -/
theorem route_join (hdir : dir.text ≠ "") (h : IsStep name) :
    (dir.join ⟨name⟩).route = ⟨dir.route.isRooted, name :: dir.route.steps⟩ := by
  obtain ⟨front, htext, hfront⟩ := exists_toList_join hdir h
  have hrooted : (dir.join ⟨name⟩).isAbsolute = dir.isAbsolute := by
    rw [isAbsolute, isAbsolute, htext]
    rcases hfront with ⟨hfront, hne⟩ | hfront
    · obtain ⟨c, cs, rfl⟩ := List.exists_cons_of_ne_nil hne
      rw [hfront]
      rfl
    · rw [hfront]
      cases front <;> rfl
  -- An empty piece at the end of the directory is no step.
  have hpieces : (pieces dir.text.toList).filter (fun s => s ≠ [] ∧ s ≠ ['.']) =
      (pieces front).filter (fun s => s ≠ [] ∧ s ≠ ['.']) := by
    rcases hfront with ⟨hfront, -⟩ | hfront
    · rw [hfront]
    · have hempty : (pieces []).filter (fun s => s ≠ [] ∧ s ≠ ['.']) = [] := rfl
      rw [hfront, pieces_append_slash, List.filter_append, hempty, List.append_nil]
  rw [route, route, hrooted, htext, pieces_append_slash, List.filter_append, hpieces,
    h.filter_pieces, List.reverse_append, List.reverse_singleton, List.singleton_append,
    List.map_cons, String.ofList_toList]

/-- A step is the last one behind any text. -/
theorem exists_steps_join (dir : Path) (h : IsStep name) :
    ∃ steps, (dir.join ⟨name⟩).route.steps = name :: steps := by
  have hlast : (pieces (dir.join ⟨name⟩).text.toList).getLast? = some name.toList := by
    rw [getLast?_pieces_join, pieces_of_no_slash h.no_slash]
    rfl
  obtain ⟨others, hothers⟩ := List.getLast?_eq_some_iff.mp hlast
  refine ⟨(others.filter fun s => s ≠ [] ∧ s ≠ ['.']).reverse.map String.ofList, ?_⟩
  have hkept := h.filter_pieces
  rw [pieces_of_no_slash h.no_slash] at hkept
  rw [route, hothers, List.filter_append, hkept, List.reverse_append, List.reverse_singleton,
    List.singleton_append, List.map_cons, String.ofList_toList]

end Path

namespace FileTree

variable {t : FileTree} {dir dir' : Path} {name name' : String} {place : Location}

theorem walk_append : ∀ (steps more : List String) (place : Location),
    t.walk (steps ++ more) place = t.walk steps place >>= t.walk more
  | [], _, _ => rfl
  | step :: steps, more, place => by
    rw [List.cons_append, walk, walk]
    cases t.find? place with
    | none => rfl
    | some node =>
      cases node with
      | directory => exact walk_append steps more _
      | file c => rfl

theorem locate_of_text_ne {p : Path} (h : p.text ≠ "") : t.locate p = t.follow p.route := by
  rw [locate, if_neg h]

/-- The place of a step has its name. -/
theorem head?_of_locate_join (dir : Path) (hname : Path.IsStep name)
    (h : t.locate (dir.join ⟨name⟩) = .ok place) : ∃ rest, place = name :: rest := by
  obtain ⟨steps, hsteps⟩ := Path.exists_steps_join dir hname
  rw [locate_of_text_ne (Path.join_text_ne hname.not_empty), follow, hsteps,
    List.reverse_cons] at h
  exact head?_of_walk hname.not_up h

/-- A file in a directory stands at the place of the directory, under its name. -/
theorem exists_locate_join (hdir : dir.text ≠ "") (hname : Path.IsStep name)
    (h : t.locate (dir.join ⟨name⟩) = .ok place) :
    ∃ above, t.locate dir = .ok above ∧ place = name :: above := by
  rw [locate_of_text_ne (Path.join_text_ne hname.not_empty), follow, Path.route_join hdir hname,
    List.reverse_cons, walk_append] at h
  rw [locate_of_text_ne hdir, follow]
  cases habove : t.walk dir.route.steps.reverse
      (if dir.route.isRooted = true then [] else t.workingDirectory) with
  | error e => rw [habove] at h; cases h
  | ok above =>
    refine ⟨above, rfl, ?_⟩
    have hstep : t.walk [name] above = .ok place := by
      rw [habove] at h
      exact h
    rw [walk] at hstep
    split at hstep
    · cases hstep
    · cases hstep
    · rw [walk, if_neg hname.not_up, Except.ok.injEq] at hstep
      exact hstep.symm

/-- Two files stand at one place if they have one name and their directories stand at one. -/
theorem locate_join_eq_iff {place' : Location} (hdir : dir.text ≠ "") (hdir' : dir'.text ≠ "")
    (hname : Path.IsStep name) (hname' : Path.IsStep name')
    (h : t.locate (dir.join ⟨name⟩) = .ok place) (h' : t.locate (dir'.join ⟨name'⟩) = .ok place') :
    place = place' ↔ name = name' ∧ t.locate dir = t.locate dir' := by
  obtain ⟨above, habove, rfl⟩ := exists_locate_join hdir hname h
  obtain ⟨above', habove', rfl⟩ := exists_locate_join hdir' hname' h'
  rw [habove, habove', List.cons.injEq, Except.ok.injEq]

end FileTree
end BenchLog
