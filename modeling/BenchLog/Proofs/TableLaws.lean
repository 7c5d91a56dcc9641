/-
# Laws of selecting, renaming and merging

A selected table is the list of its names, each with the column that the name leads
to (`select_eq_ok_iff`); so selecting from it what is in it selects from the table
itself. Merging adds a column behind all others and renaming touches none but the
names, so what other names lead to stays.

Selecting some columns, renaming one of them and adding another table's column can be
done the other way round, if the two new names are new. They must not be selected
either: selecting last would find them. Where there is both a name to miss and no
column to add, either order tells what it meets first.

Key definitions: `Table.found`, `Table.renamedTo`, `Table.selectRenameMerge`,
`Table.mergeRenameSelect`.
Key theorems: `Table.select_eq_ok_iff`, `Table.select_eq_missingColumn`,
`Table.select_select`, `Table.selectRenameMerge_eq_or`, `Table.select_rename_merge_laws`.
-/
import Mathlib.Data.List.Basic
import BenchLog.Proofs.ColumnLookup
import BenchLog.Proofs.UsableLogs

namespace BenchLog
namespace Table

variable {t u v other : Table} {name newName source target n : String} {a b : List String}

theorem eq_of_rows_of_columns (hrows : t.rows = u.rows) (hcolumns : t.columns = u.columns) :
    t = u := by
  obtain ⟨rows, columns, size_eq⟩ := t
  obtain ⟨rows', columns', size_eq'⟩ := u
  cases hrows
  cases hcolumns
  rfl

/-! ### Selecting -/

/-- The column that a name leads to, or else one of nothing. -/
def found (t : Table) (name : String) : Column :=
  (t.find? name).getD (.null t.rows)

theorem exists_fitting_iff : (∃ c, t.fitting n = .ok c) ↔ n ∈ t.names := by
  constructor
  · rintro ⟨c, hc⟩
    by_contra hn
    rw [← find?_eq_none_iff, (fitting_eq_ok hc).1] at hn
    cases hn
  · intro hn
    obtain ⟨c, hc⟩ := exists_find?_iff.mpr hn
    obtain ⟨d, hd, -⟩ := exists_fitting (Option.isSome_of_eq_some hc)
    exact ⟨d, hd⟩

theorem fitting_of_not_mem (hn : n ∉ t.names) : t.fitting n = .error (.missingColumn n) := by
  unfold fitting
  split
  · rename_i c hc
    rw [find?_eq_none_iff.mpr hn] at hc
    cases hc
  · rfl

/-- Columns can be selected if there is one of each name. -/
theorem exists_select_iff : (∃ u, t.select a = .ok u) ↔ ∀ n ∈ a, n ∈ t.names := by
  have hall : (∀ n ∈ a, n ∈ t.names) ↔ ∃ chosen, a.mapM t.fitting = .ok chosen := by
    rw [exists_mapM_eq_ok_iff]
    exact forall₂_congr fun n _ => exists_fitting_iff.symm
  rw [hall]
  constructor
  · rintro ⟨u, h⟩
    obtain ⟨chosen, hchosen, -⟩ := exists_of_bind_eq_ok h
    exact ⟨chosen, hchosen⟩
  · rintro ⟨chosen, hchosen⟩
    exact ⟨_, by rw [select, hchosen]; rfl⟩

theorem mapM_fitting_eq_error : ∀ {a : List String}, a.find? (· ∉ t.names) = some n →
    a.mapM t.fitting = .error (.missingColumn n)
  | [], h => by cases h
  | m :: a, h => by
    rw [List.mapM_cons]
    by_cases hm : m ∈ t.names
    · rw [List.find?_cons_of_neg (by simpa using hm)] at h
      obtain ⟨c, hc⟩ := exists_fitting_iff.mpr hm
      rw [hc, mapM_fitting_eq_error h]
      rfl
    · rw [List.find?_cons_of_pos (by simpa using hm)] at h
      cases h
      rw [fitting_of_not_mem hm]
      rfl

/-- The first name that no column has is told. -/
theorem select_eq_missingColumn (h : a.find? (· ∉ t.names) = some n) :
    t.select a = .error (.missingColumn n) := by
  rw [select, mapM_fitting_eq_error h]
  rfl

theorem map_val_of_mapM_fitting : ∀ {a : List String}
    {chosen : List { c : String × Column // c.2.size = t.rows }},
    a.mapM t.fitting = .ok chosen → chosen.map (·.1) = a.map fun n => (n, t.found n)
  | [], _, h => by
    cases h
    rfl
  | n :: a, _, h => by
    rw [List.mapM_cons] at h
    obtain ⟨c, hc, h⟩ := exists_of_bind_eq_ok h
    obtain ⟨cs, hcs, h⟩ := exists_of_bind_eq_ok h
    cases h
    obtain ⟨hfind, hname⟩ := fitting_eq_ok hc
    have hfirst : c.1 = (n, t.found n) := Prod.ext hname (by rw [found, hfind, Option.getD_some])
    rw [List.map_cons, List.map_cons, hfirst, map_val_of_mapM_fitting hcs]

theorem columns_of_select_eq_ok (h : t.select a = .ok u) :
    u.columns = a.map fun n => (n, t.found n) := by
  obtain ⟨chosen, hchosen, hu⟩ := exists_of_bind_eq_ok h
  cases hu
  exact map_val_of_mapM_fitting hchosen

/-- What is selected is the columns that the names lead to, in the order of the names. -/
theorem select_eq_ok_iff :
    t.select a = .ok u ↔ (∀ n ∈ a, n ∈ t.names) ∧ u.rows = t.rows ∧
      u.columns = a.map fun n => (n, t.found n) := by
  constructor
  · intro h
    exact ⟨exists_select_iff.mp ⟨u, h⟩, rows_select h, columns_of_select_eq_ok h⟩
  · rintro ⟨hmem, hrows, hcolumns⟩
    obtain ⟨v, hv⟩ := exists_select_iff.mpr hmem
    rw [hv, Except.ok.injEq]
    exact eq_of_rows_of_columns ((rows_select hv).trans hrows.symm)
      ((columns_of_select_eq_ok hv).trans hcolumns.symm)

theorem names_select (h : t.select a = .ok u) : u.names = a := by
  rw [names, columns_of_select_eq_ok h, List.map_map]
  exact List.map_id' a

theorem find?_select (h : t.select a = .ok u) (hn : n ∈ a) : u.find? n = some (t.found n) := by
  rw [find?, columns_of_select_eq_ok h, List.lookup_graph t.found hn]

/-- Selecting from what was selected is selecting. -/
theorem select_select (h : t.select a = .ok u) (hb : ∀ n ∈ b, n ∈ a) :
    u.select b = t.select b := by
  obtain ⟨hmem, hrows, -⟩ := select_eq_ok_iff.mp h
  obtain ⟨v, hv⟩ := exists_select_iff.mpr fun n hn => hmem n (hb n hn)
  rw [hv, select_eq_ok_iff, names_select h, hrows]
  refine ⟨hb, rows_select hv, (columns_of_select_eq_ok hv).trans ?_⟩
  refine List.map_congr_left fun n hn => ?_
  rw [found, found, find?_select h (hb n hn), Option.getD_some, found]

/-! ### Renaming and merging -/

/-- The name that a name has after renaming. -/
def renamedTo (source target name : String) : String :=
  if name = source then target else name

theorem exists_rename_iff (target : String) :
    (∃ u, t.rename source target = .ok u) ↔ source ∈ t.names := by
  constructor
  · rintro ⟨u, h⟩
    exact mem_names_of_rename h
  · intro h
    obtain ⟨c, hc⟩ := exists_find?_iff.mpr h
    exact exists_rename (Option.isSome_of_eq_some hc) target

/-- Where a name occurs once, renaming its column changes the name everywhere. -/
theorem renameFirst_map (f : String → Column) : ∀ {a : List String}, a.count source ≤ 1 →
    renameFirst source target (a.map fun n => (n, f n)) =
      a.map fun n => (renamedTo source target n, f n)
  | [], _ => rfl
  | n :: a, h => by
    rw [List.map_cons, List.map_cons, renameFirst, renamedTo]
    by_cases hn : n = source
    · subst hn
      have hrest : n ∉ a := List.count_eq_zero.mp (by rw [List.count_cons_self] at h; omega)
      rw [if_pos rfl, if_pos rfl]
      congr 1
      refine List.map_congr_left fun m hm => ?_
      have hmn : m ≠ n := fun he => hrest (he ▸ hm)
      rw [renamedTo, if_neg hmn]
    · rw [List.count_cons_of_ne hn] at h
      rw [if_neg hn, if_neg hn, renameFirst_map f h]

/-- Whether a column can be added, and why not, is told by the number of rows alone. -/
theorem merge_cases (t other : Table) (name newName : String) :
    (t.rows = other.rows ∧ name ∈ other.names) ∨
      ∃ e, ∀ u : Table, u.rows = t.rows → u.merge other name newName = .error e := by
  by_cases hrows : t.rows = other.rows
  · by_cases hname : name ∈ other.names
    · exact .inl ⟨hrows, hname⟩
    · refine .inr ⟨.missingColumn name, fun u hu => ?_⟩
      rw [merge, dif_pos (hu.trans hrows), fitting_of_not_mem hname]
      rfl
  · exact .inr ⟨.rowCountMismatch t.rows other.rows, fun u hu => hu ▸
      merge_of_rows_ne (hu ▸ hrows) name newName⟩

theorem exists_merge (hrows : t.rows = other.rows) (hname : name ∈ other.names)
    (newName : String) : ∃ u, t.merge other name newName = .ok u := by
  obtain ⟨c, hc⟩ := exists_fitting_iff.mpr hname
  exact ⟨_, by rw [merge, dif_pos hrows, hc]; rfl⟩

/-! ### The order of the three -/

/-- Some columns, one of them under a new name, and a column of another table. -/
def selectRenameMerge (t other : Table) (a : List String)
    (source target name newName : String) : Except Error Table := do
  let chosen ← t.select a
  let renamed ← chosen.rename source target
  renamed.merge other name newName

/-- The same begun at the other end. -/
def mergeRenameSelect (t other : Table) (a : List String)
    (source target name newName : String) : Except Error Table := do
  let merged ← t.merge other name newName
  let renamed ← merged.rename source target
  renamed.select (a.map (renamedTo source target) ++ [newName])

/-- Selecting first leaves the names that were selected, with the one of them new. -/
theorem exists_selectRenameMerge (other : Table) (target name newName : String)
    (hcount : a.count source = 1) (hselect : t.select a = .ok u) :
    ∃ v : Table, v.rows = t.rows ∧
      (v.columns = a.map fun n => (renamedTo source target n, t.found n)) ∧
      t.selectRenameMerge other a source target name newName = v.merge other name newName := by
  have hsource : source ∈ u.names := by
    rw [names_select hselect]
    exact List.count_pos_iff.mp (by omega)
  obtain ⟨v, hv⟩ := (exists_rename_iff target).mpr hsource
  refine ⟨v, (rows_rename hv).trans (rows_select hselect), ?_, ?_⟩
  · rw [columns_of_rename hv, columns_of_select_eq_ok hselect, renameFirst_map _ hcount.le]
  · simp only [selectRenameMerge, hselect, hv, bind, Except.bind]

section Order

variable (hnew : newName ∉ t.names) (htarget : target ∉ t.names) (hne : newName ≠ target)
  (hsource : source ∈ t.names)

include hnew htarget hne hsource

/-- After merging and renaming, the new names lead to the added and to the renamed column, and
all others where they led. -/
theorem find?_of_merge_rename (hm : t.merge other name newName = .ok u)
    (hr : u.rename source target = .ok v) :
    v.find? newName = other.find? name ∧
      ∀ n, n ≠ newName → n ≠ target → v.find? (renamedTo source target n) = t.find? n := by
  have hnewSource : newName ≠ source := fun he => hnew (he ▸ hsource)
  have hbefore : target ∉ u.namesBefore source := by
    intro hmem
    have hmem' := (List.takeWhile_sublist _).subset hmem
    rw [names_merge hm, List.mem_append, List.mem_singleton] at hmem'
    exact hmem'.elim htarget fun he => hne he.symm
  refine ⟨(find?_rename_of_ne hr hnewSource hne).trans (find?_merge_newName hm hnew),
    fun n hn ht => ?_⟩
  by_cases hs : n = source
  · rw [renamedTo, if_pos hs, find?_rename_target hr, if_neg hbefore, hs,
      find?_merge_of_mem hm hsource]
  · rw [renamedTo, if_neg hs, find?_rename_of_ne hr hs ht, find?_merge hm, if_neg hn,
      Option.or_none]

/-- If the column can be added, selecting last selects from a table in which all names lead where
they should. -/
theorem exists_mergeRenameSelect (hta : target ∉ a) (hna : newName ∉ a)
    (hmerge : t.merge other name newName = .ok u) :
    ∃ v : Table, v.rows = t.rows ∧ v.find? newName = other.find? name ∧
      (∀ n ∈ a, v.find? (renamedTo source target n) = t.find? n) ∧
      t.mergeRenameSelect other a source target name newName =
        v.select (a.map (renamedTo source target) ++ [newName]) := by
  have hsourceMerged : source ∈ u.names := by
    rw [names_merge hmerge]
    exact List.mem_append_left _ hsource
  obtain ⟨v, hv⟩ := (exists_rename_iff target).mpr hsourceMerged
  obtain ⟨hfindNew, hfind⟩ := find?_of_merge_rename hnew htarget hne hsource hmerge hv
  refine ⟨v, (rows_rename hv).trans (rows_merge hmerge), hfindNew, fun n hn => ?_, ?_⟩
  · exact hfind n (fun he => hna (he ▸ hn)) fun he => hta (he ▸ hn)
  · simp only [mergeRenameSelect, hmerge, hv, bind, Except.bind]

/-- Where the columns can be selected, either order comes to the same. -/
theorem selectRenameMerge_eq (hcount : a.count source = 1) (hselect : t.select a = .ok u) :
    t.selectRenameMerge other a source target name newName =
      t.mergeRenameSelect other a source target name newName := by
  obtain ⟨renamed, hrows, hcolumns, hleft⟩ :=
    exists_selectRenameMerge other target name newName hcount hselect
  have hmem := (select_eq_ok_iff.mp hselect).1
  rw [hleft]
  rcases merge_cases t other name newName with ⟨hother, hname⟩ | ⟨e, he⟩
  · obtain ⟨w, hw⟩ := exists_merge (hrows.trans hother) hname newName
    obtain ⟨c, hc, hwcolumns⟩ := columns_of_merge hw
    obtain ⟨merged, hmerged⟩ := exists_merge hother hname newName
    obtain ⟨v, hvrows, hfindNew, hfind, hright⟩ := exists_mergeRenameSelect hnew htarget hne
      hsource (fun hta => htarget (hmem _ hta)) (fun hna => hnew (hmem _ hna)) hmerged
    rw [hright, hw, eq_comm, select_eq_ok_iff]
    refine ⟨fun m hm => ?_, (rows_merge hw).trans (hrows.trans hvrows.symm), ?_⟩
    · rw [← exists_find?_iff]
      rcases List.mem_append.mp hm with hm | hm
      · obtain ⟨n, hn, rfl⟩ := List.mem_map.mp hm
        rw [hfind n hn]
        exact exists_find?_iff.mpr (hmem n hn)
      · rw [List.mem_singleton.mp hm, hfindNew]
        exact ⟨c, hc⟩
    · rw [hwcolumns, hcolumns, List.map_append, List.map_map]
      congr 1
      · refine List.map_congr_left fun n hn => Prod.ext rfl ?_
        rw [found, Function.comp_apply, found, hfind n hn, hvrows]
      · rw [List.map_singleton, found, hfindNew, hc]
        rfl
  · rw [he renamed hrows, mergeRenameSelect, he t rfl]
    rfl

/-- Where the column can be added, selecting last misses the same name as selecting first. -/
theorem mergeRenameSelect_eq_missingColumn (hta : target ∉ a) (hna : newName ∉ a)
    (hmerge : t.merge other name newName = .ok u) (hmissing : a.find? (· ∉ t.names) = some n) :
    t.mergeRenameSelect other a source target name newName = .error (.missingColumn n) := by
  obtain ⟨v, -, -, hfind, hright⟩ :=
    exists_mergeRenameSelect hnew htarget hne hsource hta hna hmerge
  have hmem : ∀ m ∈ a, renamedTo source target m ∈ v.names ↔ m ∈ t.names := fun m hm => by
    rw [← exists_find?_iff, ← exists_find?_iff, hfind m hm]
  have hn : n ∉ t.names := by simpa using List.find?_some hmissing
  have hns : n ≠ source := fun he => hn (he ▸ hsource)
  have hsame : renamedTo source target n = n := if_neg hns
  have hcongr : a.find? ((fun m => decide (m ∉ v.names)) ∘ renamedTo source target) =
      a.find? (· ∉ t.names) :=
    List.find?_congr fun m hm => by simp [hmem m hm]
  rw [hright]
  apply select_eq_missingColumn
  rw [List.find?_append, List.find?_map, hcongr, hmissing, Option.map_some, hsame, Option.some_or]

/-- The order does not matter, for success and for failure, unless neither the columns can be
selected nor the column be added: then either order tells of its first step. -/
theorem selectRenameMerge_eq_or (hcount : a.count source = 1) (hta : target ∉ a)
    (hna : newName ∉ a) :
    t.selectRenameMerge other a source target name newName =
        t.mergeRenameSelect other a source target name newName ∨
      ∃ e e', t.select a = .error e ∧ t.merge other name newName = .error e' ∧
        t.selectRenameMerge other a source target name newName = .error e ∧
        t.mergeRenameSelect other a source target name newName = .error e' := by
  cases hmissing : a.find? (· ∉ t.names) with
  | none =>
    have hmem : ∀ n ∈ a, n ∈ t.names := by simpa using hmissing
    obtain ⟨u, hu⟩ := exists_select_iff.mpr hmem
    exact .inl (selectRenameMerge_eq hnew htarget hne hsource hcount hu)
  | some n =>
    have hselect := select_eq_missingColumn hmissing
    have hleft : t.selectRenameMerge other a source target name newName =
        .error (.missingColumn n) := by
      simp only [selectRenameMerge, hselect, bind, Except.bind]
    cases hmerge : t.merge other name newName with
    | ok u =>
      exact .inl (hleft.trans
        (mergeRenameSelect_eq_missingColumn hnew htarget hne hsource hta hna hmerge hmissing).symm)
    | error e' =>
      refine .inr ⟨_, e', hselect, rfl, hleft, ?_⟩
      simp only [mergeRenameSelect, hmerge, bind, Except.bind]

end Order

/-! ### The laws -/

/-- **The laws of selecting, renaming and merging.** Selecting twice is selecting once; merging
and renaming keep the rows and what other names lead to; selecting keeps the rows, also of no
columns. The three can be done in either order if the new names are new and are not selected,
but for the fault that is told if neither selecting nor merging is possible. -/
theorem select_rename_merge_laws (t : Table) :
    (∀ a b u, t.select a = .ok u → (∀ n ∈ b, n ∈ a) → u.select b = t.select b) ∧
    (∀ other name newName u, t.merge other name newName = .ok u →
      u.rows = t.rows ∧ ∀ n ∈ t.names, u.column n = t.column n ∧ u.numbers n = t.numbers n) ∧
    (∀ source target u, t.rename source target = .ok u →
      u.rows = t.rows ∧ ∀ n, n ≠ source → n ≠ target →
        u.column n = t.column n ∧ u.numbers n = t.numbers n) ∧
    (∀ a u, t.select a = .ok u → u.rows = t.rows ∧ u.names = a) ∧
    (∃ u, t.select [] = .ok u) ∧
    ∀ other a source target name newName, newName ∉ t.names → target ∉ t.names →
      newName ≠ target → source ∈ t.names → a.count source = 1 → target ∉ a → newName ∉ a →
      t.selectRenameMerge other a source target name newName =
          t.mergeRenameSelect other a source target name newName ∨
        ∃ e e', t.select a = .error e ∧ t.merge other name newName = .error e' ∧
          t.selectRenameMerge other a source target name newName = .error e ∧
          t.mergeRenameSelect other a source target name newName = .error e' := by
  refine ⟨fun a b u h hb => select_select h hb, fun other name newName u h => ?_,
    fun source target u h => ?_, fun a u h => ⟨rows_select h, names_select h⟩,
    exists_select_iff.mpr (by simp), ?_⟩
  · refine ⟨rows_merge h, fun n hn => ?_⟩
    have hfind := find?_merge_of_mem h hn
    exact ⟨column_congr hfind, numbers_congr hfind⟩
  · refine ⟨rows_rename h, fun n hs ht => ?_⟩
    have hfind := find?_rename_of_ne h hs ht
    exact ⟨column_congr hfind, numbers_congr hfind⟩
  · intro other a source target name newName hnew htarget hne hsource hcount hta hna
    exact selectRenameMerge_eq_or hnew htarget hne hsource hcount hta hna

/-- A table in which a name occurs twice. -/
def twinTable : Table where
  rows := 1
  columns := [("twin", .int64 [some 1]), ("only", .int64 [some 2]), ("twin", .int64 [none])]
  size_eq := by simp [Column.size]

theorem select_rename_merge_laws_of_twinTable :
    (∃ u, twinTable.select ["only", "twin"] = .ok u ∧
      u.select ["twin", "twin"] = twinTable.select ["twin", "twin"]) ∧
    (∃ u, twinTable.merge twinTable "only" "twin" = .ok u ∧
      u.column "twin" = .ok (.int64 [some 1])) ∧
    (∃ u, twinTable.rename "twin" "late" = .ok u ∧ u.column "only" = .ok (.int64 [some 2])) ∧
    (∃ u, twinTable.select [] = .ok u ∧ u.rows = 1) ∧
    twinTable.selectRenameMerge twinTable ["twin", "only"] "only" "sole" "twin" "late" =
      twinTable.mergeRenameSelect twinTable ["twin", "only"] "only" "sole" "twin" "late" := by
  obtain ⟨hselect, hmerge, hrename, hrows, -, horder⟩ := select_rename_merge_laws twinTable
  refine ⟨⟨_, rfl, hselect ["only", "twin"] ["twin", "twin"] _ rfl (by decide)⟩,
    ⟨_, rfl, ((hmerge twinTable "only" "twin" _ rfl).2 "twin" (by decide)).1⟩,
    ⟨_, rfl, ((hrename "twin" "late" _ rfl).2 "only" (by decide) (by decide)).1⟩,
    ⟨_, rfl, (hrows [] _ rfl).1⟩, ?_⟩
  rcases horder twinTable ["twin", "only"] "only" "sole" "twin" "late" (by decide) (by decide)
    (by decide) (by decide) (by decide) (by decide) (by decide) with h | ⟨e, e', h, -⟩
  · exact h
  · cases h

/-- A name that is selected before there is a column of it is missed; selected last, it finds
the column that was renamed to it. And of two faults, each order tells the one it meets. -/
theorem not_selectRenameMerge_eq :
    ("sole" ∉ twinTable.names ∧ "late" ∉ twinTable.names ∧ twinTable.names.count "only" = 1) ∧
    (["only", "sole"].count "only" = 1 ∧
      twinTable.selectRenameMerge twinTable ["only", "sole"] "only" "sole" "twin" "late" ≠
        twinTable.mergeRenameSelect twinTable ["only", "sole"] "only" "sole" "twin" "late") ∧
    ["only", "none"].count "only" = 1 ∧
      twinTable.selectRenameMerge twinTable ["only", "none"] "only" "sole" "lost" "late" ≠
        twinTable.mergeRenameSelect twinTable ["only", "none"] "only" "sole" "lost" "late" := by
  have hleft : twinTable.selectRenameMerge twinTable ["only", "sole"] "only" "sole" "twin" "late" =
      .error (.missingColumn "sole") := rfl
  have hleft' : twinTable.selectRenameMerge twinTable ["only", "none"] "only" "sole" "lost" "late" =
      .error (.missingColumn "none") := rfl
  have hright' :
      twinTable.mergeRenameSelect twinTable ["only", "none"] "only" "sole" "lost" "late" =
        .error (.missingColumn "lost") := rfl
  refine ⟨by decide, ⟨by decide, fun h => ?_⟩, by decide, ?_⟩
  · rw [hleft] at h
    cases h
  · rw [hleft', hright']
    simp

end Table
end BenchLog
