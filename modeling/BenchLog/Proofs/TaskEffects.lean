/-
# What tasks write

A task that succeeds has written files that are known beforehand, in a known order, and what is
told of its result holds (`FileTask.Makes`). In sequence, the files of the second task come behind
those of the first. Whether a file is written or not, only directories are made on the way to it.

Key definitions: `FileTask.Makes`.
Key theorems: `FileTask.exists_of_bind_ok`, `FileTask.Makes.bind`, `FileTask.Makes.mapM`,
`FileTask.evolves_makeParent`, `FileTask.save_makes`, `renderFile_makes`.
-/
import Mathlib.Data.List.Forall2
import BenchLog.Proofs.AlignedTables
import BenchLog.Proofs.FileEffects

namespace BenchLog

namespace FileTask

/-! ### Tasks in sequence -/

theorem bind_eq (m : FileTask α) (f : α → FileTask β) (t : FileTree) :
    (m >>= f) t = match m t with
      | (.ok a, u) => f a u
      | (.error e, u) => (.error e, u) := by
  show (ExceptT.bindCont f (m t).1) (m t).2 = _
  rcases m t with ⟨_ | _, _⟩ <;> rfl

theorem ofExcept_ok_bind (a : α) (f : α → FileTask β) : ofExcept (.ok a) >>= f = f a := rfl

section Sequence

variable {m : FileTask α} {f : α → FileTask β} {t u v : FileTree} {a : α} {b : β} {e : Error}

theorem bind_of_ok (h : m t = (.ok a, u)) : (m >>= f) t = f a u := by
  rw [bind_eq, h]

theorem bind_of_error (h : m t = (.error e, u)) : (m >>= f) t = (.error e, u) := by
  rw [bind_eq, h]

theorem exists_of_bind_ok (h : (m >>= f) t = (.ok b, v)) :
    ∃ a u, m t = (.ok a, u) ∧ f a u = (.ok b, v) := by
  rw [bind_eq] at h
  rcases hm : m t with ⟨e | a, u⟩
  · rw [hm] at h
    cases h
  · rw [hm] at h
    exact ⟨a, u, rfl, h⟩

end Sequence

/-! ### Files known beforehand -/

/-- A task that succeeds has written the given files, in order. -/
def Makes (m : FileTask α) (plan : List Path) (good : α → Prop) : Prop :=
  ∀ ⦃t a u⦄, m t = (.ok a, u) → t.Evolves plan u ∧ good a

namespace Makes

variable {m : FileTask α} {plan plan' : List Path} {good good' : α → Prop}

theorem pure {a : α} (h : good a) : Makes (Pure.pure a) [] good := by
  intro t _ _ hpure
  cases hpure
  exact ⟨.done t, h⟩

/-- A task that only looks at the tree. -/
theorem look {look : FileTree → Except Error α} (h : ∀ t a, look t = .ok a → good a) :
    Makes (fun t => (look t, t)) [] good := by
  intro t a u hlook
  rw [Prod.mk.injEq] at hlook
  obtain ⟨ha, rfl⟩ := hlook
  exact ⟨.done t, h t a ha⟩

theorem ofExcept {r : Except Error α} (h : ∀ a, r = .ok a → good a) :
    Makes (FileTask.ofExcept r) [] good :=
  look fun _ => h

theorem mono (h : m.Makes plan good) (hgood : ∀ a, good a → good' a) : m.Makes plan good' :=
  fun _ a _ ha => ⟨(h ha).1, hgood a (h ha).2⟩

theorem bind {f : α → FileTask β} {good' : β → Prop} (hm : m.Makes plan good)
    (hf : ∀ a, good a → (f a).Makes plan' good') : (m >>= f).Makes (plan ++ plan') good' := by
  intro t b v h
  obtain ⟨a, u, ha, hb⟩ := exists_of_bind_ok h
  obtain ⟨hu, hgood⟩ := hm ha
  obtain ⟨hv, hgood'⟩ := hf a hgood hb
  exact ⟨hu.trans hv, hgood'⟩

/-- A repeated task writes the files of each member in turn. -/
theorem mapM {f : α → FileTask β} {plan : α → List Path} {good : α → β → Prop} {as : List α}
    (h : ∀ a ∈ as, (f a).Makes (plan a) (good a)) :
    (as.mapM f).Makes (as.flatMap plan) (List.Forall₂ good as) := by
  induction as with
  | nil => exact pure .nil
  | cons a as ih =>
    rw [List.mapM_cons, List.flatMap_cons, ← List.append_nil (as.flatMap plan)]
    refine (h a List.mem_cons_self).bind fun b hb => ?_
    exact (ih fun a' ha' => h a' (List.mem_cons_of_mem a ha')).bind fun bs hbs =>
      pure (.cons hb hbs)

end Makes

/-- Results that are given by the members. -/
theorem map_eq_of_forall₂ {g : α → β} {as : List α} {bs : List β}
    (h : List.Forall₂ (fun a b => g a = b) as bs) : as.map g = bs := by
  rw [← List.forall₂_eq_eq_eq]
  exact List.forall₂_map_left_iff.mpr h

/-! ### Single files -/

theorem evolves_makeDirectories (isRooted : Bool) : ∀ (steps : List String) (t : FileTree),
    t.Evolves [] (FileTree.makeDirectories isRooted steps t).2
  | [], t => .done t
  | step :: steps, t => by
    have ih := evolves_makeDirectories isRooted steps t
    rw [FileTree.makeDirectories]
    dsimp only
    split
    · split
      · rename_i u hu
        rw [hu] at ih
        -- The directories on the way are there, and then the directory itself is made or found.
        split
        · exact ih.trans (.directory ‹_› (.done _))
        · exact ih
      · exact ih
    · split
      · exact .directory ‹_› (.done _)
      · exact .done t

section Files

variable {p : Path} {c : Content} {t u : FileTree} {e : Error}

/-- No file is written where the directories of one are made. -/
theorem evolves_makeParent (p : Path) (t : FileTree) : t.Evolves [] (makeParent p t).2 := by
  unfold makeParent
  split
  · exact .done t
  · exact evolves_makeDirectories _ _ t

theorem isMismatch_of_makeParent (h : makeParent p t = (.error e, u)) : e.isMismatch = false := by
  unfold makeParent at h
  split at h
  · cases h
  · rename_i parent _
    rcases hmade : FileTree.makeDirectories parent.isRooted parent.steps t with ⟨e | _, v⟩
    · rw [hmade] at h
      cases h
      rfl
    · rw [hmade] at h
      cases h

theorem isMismatch_of_save (h : save p c t = (.error e, u)) : e.isMismatch = false := by
  rw [save, bind_eq] at h
  rcases hparent : makeParent p t with ⟨e' | _, v⟩
  · rw [hparent] at h
    cases h
    exact isMismatch_of_makeParent hparent
  · rw [hparent] at h
    dsimp only [write] at h
    cases hwrite : v.write p c with
    | error e' =>
      rw [hwrite] at h
      cases h
      rfl
    | ok w =>
      rw [hwrite] at h
      cases h

theorem makeParent_makes (p : Path) : (makeParent p).Makes [] fun _ => True := by
  intro t _ u h
  have hmade := evolves_makeParent p t
  rw [h] at hmade
  exact ⟨hmade, trivial⟩

theorem write_makes (p : Path) (c : Content) : (write p c).Makes [p] fun _ => True := by
  intro t _ u h
  unfold write at h
  cases hwrite : t.write p c with
  | ok v =>
    rw [hwrite] at h
    cases h
    exact ⟨.file hwrite (.done u), trivial⟩
  | error e =>
    rw [hwrite] at h
    cases h

theorem save_makes (p : Path) (c : Content) : (save p c).Makes [p] fun _ => True :=
  (makeParent_makes p).bind fun _ _ => write_makes p c

end Files

end FileTask

theorem saveDrawing_makes (d : Drawing) {p : Path} (hp : hasEnding pictureEndings p = true) :
    (saveDrawing d p).Makes [p] fun _ => True := by
  refine (FileTask.makeParent_makes p).bind fun _ _ t _ u h => ?_
  simp only [hp, if_true] at h
  cases hwrite : t.write p (.chart d) with
  | ok v =>
    rw [hwrite] at h
    cases h
    exact ⟨.file hwrite (.done u), trivial⟩
  | error e =>
    rw [hwrite] at h
    cases h

/-- Columns of a table are drawn. -/
theorem renderTable_makes (t : Table) (spec : ChartSpec) (style : ChartStyle) {p : Path}
    (hp : hasEnding pictureEndings p = true) :
    (renderTable t spec style p).Makes [p] fun _ => True :=
  (FileTask.Makes.ofExcept fun _ _ => trivial).bind fun d _ => saveDrawing_makes d hp

theorem Table.load_makes (file : Path) : (Table.load file).Makes [] fun _ => True := by
  have hlook : Table.load file = fun t => ((Table.load file t).1, t) := by
    funext t
    unfold Table.load
    cases t.read file with
    | ok content => rfl
    | error e => cases e <;> rfl
  rw [hlook]
  exact FileTask.Makes.look fun _ _ _ => trivial

/-- A file is drawn. -/
theorem renderFile_makes (file : Path) (spec : ChartSpec) (style : ChartStyle) {p : Path}
    (hp : hasEnding pictureEndings p = true) :
    (renderFile file spec style p).Makes [p] fun _ => True :=
  (Table.load_makes file).bind fun t _ => renderTable_makes t spec style hp

end BenchLog
