/-
# How a tree of files evolves

A task changes a tree by writing files whole and by making directories where
nothing is. Whatever is there stays of its kind, so a path that leads somewhere
leads there ever after, and the files that were written can be told from the
paths: each path leads to a file in the end, and the content of a file that no
path leads to is what it was (`Evolves.exists_file`, `Evolves.content?_eq`).

Key definitions: `FileTree.content?`, `FileTree.Extends`, `FileTree.Evolves`.
Key theorems: `FileTree.readText_eq_ok_iff`, `FileTree.Extends.locate`, `FileTree.Evolves.toExtends`,
`FileTree.Evolves.exists_file`, `FileTree.Evolves.content?_eq`.
-/
import BenchLog.Proofs.Paths

namespace BenchLog.FileTree

/-! ### Contents -/

/-- The content of the file at a place. -/
def content? (t : FileTree) (place : Location) : Option Content :=
  match t.find? place with
  | some (.file content) => some content
  | _ => none

theorem content?_eq_some_iff {t : FileTree} {place : Location} {c : Content} :
    t.content? place = some c ↔ t.find? place = some (.file c) := by
  unfold content?
  split
  · rename_i content h
    simp [h]
  · rename_i h
    simp only [reduceCtorEq, false_iff]
    exact h c

theorem content?_put_of_ne {t : FileTree} {place other : Location} {node : FileNode}
    (h : other ≠ place) : (t.put place node).content? other = t.content? other := by
  rw [content?, find?_put_of_ne h, content?]

/-- A text is read where a path with the name of a file leads to it. -/
theorem readText_eq_ok_iff {t : FileTree} {p : Path} {text : List Char} :
    t.readText p = .ok text ↔
      ∃ place, t.locate p = .ok place ∧ t.content? place = some (.text text) ∧
        p.ending = .step := by
  unfold readText read
  cases hl : t.locate p with
  | error e => simp [bind, Except.bind]
  | ok place =>
    simp only [bind, Except.bind, Except.ok.injEq, content?_eq_some_iff, exists_eq_left']
    cases t.find? place with
    | none => simp
    | some node =>
      cases node with
      | directory => simp
      | file c =>
        by_cases hending : p.ending = .step
        · cases c <;> simp [hending]
        · simp [hending]

/-! ### Single steps -/

theorem makeDirectory_eq_ok {t u : FileTree} {r : Route} (h : t.makeDirectory r = .ok u) :
    ∃ place, t.find? place = none ∧ u = t.put place .directory := by
  unfold makeDirectory at h
  cases hf : t.follow r with
  | error e => rw [hf] at h; cases h
  | ok place =>
    rw [hf] at h
    simp only [bind, Except.bind] at h
    split at h
    · cases h
    · rename_i hn
      cases h
      exact ⟨place, hn, rfl⟩

/-- What is written is not in the place of a directory, and its path ends with a name. -/
theorem exists_of_write {t u : FileTree} {p : Path} {c : Content} (h : t.write p c = .ok u) :
    ∃ place, t.locate p = .ok place ∧ t.find? place ≠ some .directory ∧ p.ending = .step ∧
      u = t.put place (.file c) := by
  unfold write at h
  cases hl : t.locate p with
  | error e => rw [hl] at h; cases h
  | ok place =>
    rw [hl] at h
    simp only [bind, Except.bind] at h
    refine ⟨place, rfl, ?_⟩
    split at h
    · cases h
    · cases h
    · cases h
    · cases h
    · rename_i he hd
      cases h
      exact ⟨hd, he, rfl⟩

/-! ### What stays -/

/-- A tree in which everything of another one is still of its kind. -/
structure Extends (t u : FileTree) : Prop where
  workingDirectory : u.workingDirectory = t.workingDirectory
  directory : ∀ place, t.find? place = some .directory → u.find? place = some .directory
  file : ∀ place c, t.find? place = some (.file c) → ∃ d, u.find? place = some (.file d)

namespace Extends

variable {t u v : FileTree} {place place' : Location} {p : Path}

theorem refl (t : FileTree) : Extends t t :=
  ⟨rfl, fun _ h => h, fun _ c h => ⟨c, h⟩⟩

theorem trans (h : Extends t u) (h' : Extends u v) : Extends t v where
  workingDirectory := h'.workingDirectory.trans h.workingDirectory
  directory place hd := h'.directory place (h.directory place hd)
  file place c hf := by
    obtain ⟨d, hd⟩ := h.file place c hf
    exact h'.file place d hd

theorem find?_put_self (h : t.find? place ≠ some .directory) (node : FileNode) :
    (t.put place node).find? place = some node :=
  find?_put fun hroot => h (by rw [hroot, find?, if_pos rfl])

/-- Something new in the place of nothing, or a file in that of a file. -/
theorem put {node : FileNode}
    (h : t.find? place = none ∨ t.find? place ≠ some .directory ∧ ∃ c, node = .file c) :
    Extends t (t.put place node) := by
  have hnot : t.find? place ≠ some .directory := by
    rcases h with h | ⟨h, -⟩
    · simp [h]
    · exact h
  refine ⟨rfl, fun other hd => ?_, fun other c hf => ?_⟩
  · have hne : other ≠ place := by
      rintro rfl
      exact hnot hd
    rwa [find?_put_of_ne hne]
  · by_cases he : other = place
    · subst he
      rcases h with h | ⟨-, d, rfl⟩
      · rw [h] at hf
        cases hf
      · exact ⟨d, find?_put_self hnot _⟩
    · exact ⟨c, by rwa [find?_put_of_ne he]⟩

theorem walk (h : Extends t u) : ∀ {steps : List String} {place : Location},
    t.walk steps place = .ok place' → u.walk steps place = .ok place'
  | [], _, hw => hw
  | step :: steps, place, hw => by
    rw [FileTree.walk] at hw ⊢
    split at hw
    · cases hw
    · cases hw
    · rename_i hd
      rw [h.directory place hd]
      exact h.walk hw

/-- A path that leads somewhere leads there ever after. -/
theorem locate (h : Extends t u) (hl : t.locate p = .ok place) : u.locate p = .ok place := by
  unfold FileTree.locate at hl ⊢
  split at hl
  · cases hl
  · rename_i hne
    rw [if_neg hne, follow, h.workingDirectory]
    exact h.walk hl

theorem contains (h : Extends t u) (hc : t.contains p = true) : u.contains p = true := by
  unfold FileTree.contains at hc ⊢
  cases hl : t.locate p with
  | error e => rw [hl] at hc; cases hc
  | ok place =>
    rw [hl] at hc
    simp only [h.locate hl] at hc ⊢
    cases hf : t.find? place with
    | none => rw [hf] at hc; cases hc
    | some node =>
      cases node with
      | directory => rw [h.directory place hf]
      | file c =>
        obtain ⟨d, hd⟩ := h.file place c hf
        rw [hf] at hc
        rw [hd]
        exact hc

theorem content? (h : Extends t u) (hc : (t.content? place).isSome) :
    (u.content? place).isSome := by
  obtain ⟨c, hc⟩ := Option.isSome_iff_exists.mp hc
  obtain ⟨d, hd⟩ := h.file place c (content?_eq_some_iff.mp hc)
  rw [content?_eq_some_iff.mpr hd]
  rfl

end Extends

/-! ### Evolving -/

/-- One tree becomes another by writing files at the given paths, in this order;
directories may be made before, in between and behind. -/
inductive Evolves : FileTree → List Path → FileTree → Prop
  | done (t : FileTree) : Evolves t [] t
  | directory {t u v : FileTree} {r : Route} {ps : List Path} :
      t.makeDirectory r = .ok u → Evolves u ps v → Evolves t ps v
  | file {t u v : FileTree} {p : Path} {c : Content} {ps : List Path} :
      t.write p c = .ok u → Evolves u ps v → Evolves t (p :: ps) v

namespace Evolves

variable {t u v : FileTree} {p : Path} {c : Content} {ps qs : List Path} {place : Location}

theorem trans (h : Evolves t ps u) (h' : Evolves u qs v) : Evolves t (ps ++ qs) v := by
  induction h with
  | done t => exact h'
  | directory hd _ ih => exact .directory hd (ih h')
  | file hw _ ih => exact .file hw (ih h')

theorem extends_of_makeDirectory {r : Route} (h : t.makeDirectory r = .ok u) : Extends t u := by
  obtain ⟨place, hn, rfl⟩ := makeDirectory_eq_ok h
  exact .put (.inl hn)

theorem extends_of_write (h : t.write p c = .ok u) : Extends t u := by
  obtain ⟨place, -, hd, -, rfl⟩ := exists_of_write h
  exact .put (.inr ⟨hd, c, rfl⟩)

/-- Whatever is there stays of its kind. -/
theorem toExtends (h : Evolves t ps u) : Extends t u := by
  induction h with
  | done t => exact .refl t
  | directory hd _ ih => exact (extends_of_makeDirectory hd).trans ih
  | file hw _ ih => exact (extends_of_write hw).trans ih

/-- What was written is a file in the end. -/
theorem exists_file (h : Evolves t ps u) (hp : p ∈ ps) :
    ∃ place, u.locate p = .ok place ∧ (u.content? place).isSome := by
  induction h with
  | done t => cases hp
  | directory _ _ ih => exact ih hp
  | @file t u v p' c ps hwrite hrest ih =>
    rcases List.mem_cons.mp hp with rfl | hp
    · have hu := extends_of_write hwrite
      obtain ⟨place, hl, hd, -, rfl⟩ := exists_of_write hwrite
      refine ⟨place, hrest.toExtends.locate (hu.locate hl), hrest.toExtends.content? ?_⟩
      rw [content?_eq_some_iff.mpr (Extends.find?_put_self hd _)]
      rfl
    · exact ih hp

/-- A file that no path leads to keeps its content. -/
theorem content?_eq (h : Evolves t ps u) (hplace : ∀ p ∈ ps, u.locate p ≠ .ok place) :
    u.content? place = t.content? place := by
  induction h with
  | done t => rfl
  | @directory t u v r ps hd _ ih =>
    obtain ⟨made, hn, rfl⟩ := makeDirectory_eq_ok hd
    rw [ih hplace]
    by_cases he : place = made
    · subst he
      have hput : (t.put place .directory).find? place = some .directory :=
        Extends.find?_put_self (by simp [hn]) _
      rw [content?, content?, hput, hn]
    · exact content?_put_of_ne he
  | @file t u v p c ps hwrite hrest ih =>
    rw [ih fun q hq => hplace q (List.mem_cons_of_mem _ hq)]
    have hu := extends_of_write hwrite
    obtain ⟨written, hl, -, -, rfl⟩ := exists_of_write hwrite
    refine content?_put_of_ne ?_
    rintro rfl
    exact hplace p List.mem_cons_self (hrest.toExtends.locate (hu.locate hl))

/-- A file whose name no written path ends with keeps its content. -/
theorem content?_eq_of_name (h : Evolves t ps u) {name : String} {rest : Location}
    (hname : ∀ p ∈ ps, ∃ suffix, p.NameEnds suffix ∧ 3 ≤ suffix.length ∧
      ¬suffix <:+ name.toList) :
    u.content? (name :: rest) = t.content? (name :: rest) := by
  refine h.content?_eq fun p hp hl => ?_
  obtain ⟨suffix, hends, hlong, hnot⟩ := hname p hp
  obtain ⟨front, rest', he⟩ := exists_of_locate hl hends hlong
  rw [List.cons.injEq] at he
  exact hnot ⟨front, by rw [he.1, String.toList_ofList]⟩

end Evolves
end BenchLog.FileTree
