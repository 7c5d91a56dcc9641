/-
# The names that paths end with

The last step of a joined path is the last step of what was joined, and a text
without a slash at the end of a path stays at the end of its last step. So the
name of a file that a run makes ends as it was written, whatever the directory
and the dataset are called, and the place that its path leads to has this name.

Key definitions: `Path.NameEnds`.
Key theorems: `Path.nameEnds_join`, `Path.ending_of_nameEnds`,
`FileTree.exists_of_locate`, `hasEnding_of_nameEnds`.
-/
import BenchLog.Chart.Render

namespace BenchLog

namespace Path

/-! ### Pieces -/

theorem pieces_ne_nil (cs : List Char) : pieces cs ≠ [] := by
  simp [pieces]

/-- Behind a slash, the text in front no longer matters for the last piece. -/
theorem getLast?_pieces_slash (as bs : List Char) :
    (pieces (as ++ '/' :: bs)).getLast? = (pieces bs).getLast? := by
  rw [pieces_append_slash, List.getLast?_append, List.getLast?_eq_some_getLast (pieces_ne_nil bs),
    Option.some_or]

/-- The last piece of a joined path is that of what was joined. -/
theorem getLast?_pieces_join (dir below : Path) :
    (pieces (dir.join below).text.toList).getLast? = (pieces below.text.toList).getLast? := by
  unfold join
  split
  · rfl
  · split
    · rename_i h
      rw [String.toList_append]
      rcases h with h | h
      · rw [h, List.nil_append]
      · obtain ⟨front, hfront⟩ := List.getLast?_eq_some_iff.mp h
        rw [hfront, List.append_assoc, List.singleton_append, getLast?_pieces_slash]
    · have hslash : (dir.text ++ "/" ++ below.text).toList =
          dir.text.toList ++ '/' :: below.text.toList := by
        simp
      rw [hslash, getLast?_pieces_slash]

theorem pieces_cons_of_ne {c : Char} (h : c ≠ '/') (cs : List Char) :
    pieces (c :: cs) = (c :: (split cs).1) :: (split cs).2 := by
  simp [pieces, split, h]

theorem pieces_of_no_slash {cs : List Char} (h : '/' ∉ cs) : pieces cs = [cs] := by
  induction cs with
  | nil => rfl
  | cons c cs ih =>
    simp only [List.mem_cons, not_or] at h
    have hrest := ih h.2
    rw [pieces, List.cons.injEq] at hrest
    rw [pieces_cons_of_ne fun e => h.1 e.symm, hrest.1, hrest.2]

/-- A text without a slash stays at the end of the last piece. -/
theorem getLast?_pieces_append {suffix : List Char} (h : '/' ∉ suffix) :
    ∀ cs : List Char, ∃ front, (pieces (cs ++ suffix)).getLast? = some (front ++ suffix)
  | [] => ⟨[], by rw [List.nil_append, pieces_of_no_slash h]; rfl⟩
  | c :: cs => by
    obtain ⟨front, hfront⟩ := getLast?_pieces_append h cs
    by_cases hc : c = '/'
    · subst hc
      exact ⟨front, (getLast?_pieces_slash [] (cs ++ suffix)).trans hfront⟩
    · rw [List.cons_append, pieces_cons_of_ne hc]
      rw [pieces] at hfront
      -- The letter lengthens the last piece if there is no other one.
      cases hs : (split (cs ++ suffix)).2 with
      | nil =>
        rw [hs, List.getLast?_singleton, Option.some.injEq] at hfront
        exact ⟨c :: front, by rw [hfront]; rfl⟩
      | cons piece others =>
        rw [hs, List.getLast?_cons_cons] at hfront
        exact ⟨front, by rw [List.getLast?_cons_cons, hfront]⟩

/-! ### Names -/

/-- The last step of a path ends with a text. -/
def NameEnds (p : Path) (suffix : List Char) : Prop :=
  ∃ front, (pieces p.text.toList).getLast? = some (front ++ suffix)

/-- A file in a directory has the name that it was given there. -/
theorem nameEnds_join (dir : Path) {name : String} {front suffix : List Char}
    (hname : name.toList = front ++ suffix) (h : '/' ∉ suffix) :
    (dir.join ⟨name⟩).NameEnds suffix := by
  obtain ⟨front', hfront⟩ := getLast?_pieces_append h front
  exact ⟨front', by rw [getLast?_pieces_join, hname, hfront]⟩

variable {p : Path} {suffix : List Char}

theorem ne_of_append {front name : List Char} (hlength : name.length < suffix.length) :
    front ++ suffix ≠ name := by
  intro he
  have := congrArg List.length he
  rw [List.length_append] at this
  omega

/-- A path whose last piece is long enough names a file. -/
theorem ending_of_nameEnds (h : p.NameEnds suffix) (hlong : 3 ≤ suffix.length) :
    p.ending = .step := by
  obtain ⟨front, hfront⟩ := h
  have hnil : front ++ suffix ≠ [] := ne_of_append (by simp; omega)
  have hdot : front ++ suffix ≠ ['.'] := ne_of_append (by simp; omega)
  unfold ending
  rw [hfront]
  split
  · rename_i he
    exact absurd (Option.some.inj he) hnil
  · rename_i he
    exact absurd (Option.some.inj he) hdot
  · rfl

/-- The last step of such a path is its last piece. -/
theorem head?_steps_of_nameEnds (h : p.NameEnds suffix) (hlong : 3 ≤ suffix.length) :
    ∃ front steps, p.route.steps = String.ofList (front ++ suffix) :: steps := by
  obtain ⟨front, hfront⟩ := h
  have hnil : front ++ suffix ≠ [] := ne_of_append (by simp; omega)
  have hdot : front ++ suffix ≠ ['.'] := ne_of_append (by simp; omega)
  obtain ⟨others, hothers⟩ := List.getLast?_eq_some_iff.mp hfront
  refine ⟨front, (others.filter fun s => s ≠ [] ∧ s ≠ ['.']).reverse.map String.ofList, ?_⟩
  simp only [route, hothers]
  rw [List.filter_append, List.filter_cons_of_pos (by simp [hnil, hdot]), List.filter_nil,
    List.reverse_append, List.reverse_singleton, List.singleton_append, List.map_cons]

end Path

/-- A file with a name in front of `.png` can be drawn. -/
theorem hasEnding_of_nameEnds {p : Path} {c : Char} (h : p.NameEnds (c :: ".png".toList)) :
    hasEnding pictureEndings p = true := by
  obtain ⟨front, steps, hsteps⟩ := Path.head?_steps_of_nameEnds h (by simp)
  have hextension : p.route.extension? = some "png".toList := by
    have hup : front ++ c :: ".png".toList ≠ ['.', '.'] := Path.ne_of_append (by simp)
    simp only [Route.extension?, hsteps, String.toList_ofList, if_neg hup, List.reverse_append,
      List.reverse_cons]
    rfl
  rw [hasEnding, hextension]
  decide

namespace FileTree

/-- A walk that ends with a name ends at a place of that name. -/
theorem head?_of_walk {t : FileTree} {name : String} (h : name ≠ "..") :
    ∀ {steps : List String} {place place' : Location},
      t.walk (steps ++ [name]) place = .ok place' → ∃ rest, place' = name :: rest
  | [], place, place', hw => by
    rw [List.nil_append, walk] at hw
    split at hw
    · cases hw
    · cases hw
    · rw [walk, if_neg h, Except.ok.injEq] at hw
      exact ⟨place, hw.symm⟩
  | step :: steps, place, place', hw => by
    rw [List.cons_append, walk] at hw
    split at hw
    · cases hw
    · cases hw
    · exact head?_of_walk h hw

/-- The place that a path leads to has the name that the path ends with. -/
theorem exists_of_locate {t : FileTree} {p : Path} {place : Location} {suffix : List Char}
    (h : t.locate p = .ok place) (hname : p.NameEnds suffix) (hlong : 3 ≤ suffix.length) :
    ∃ front rest, place = String.ofList (front ++ suffix) :: rest := by
  obtain ⟨front, steps, hsteps⟩ := Path.head?_steps_of_nameEnds hname hlong
  unfold locate at h
  split at h
  · cases h
  · rw [follow, hsteps, List.reverse_cons] at h
    have hup : String.ofList (front ++ suffix) ≠ ".." := by
      intro he
      have := congrArg String.toList he
      rw [String.toList_ofList] at this
      exact Path.ne_of_append (by simp; omega) this
    exact ⟨front, head?_of_walk hup h⟩

end FileTree
end BenchLog
