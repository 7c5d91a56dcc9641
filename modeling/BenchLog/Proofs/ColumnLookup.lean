/-
# Looking up a column that was just named

A name leads to the first column of it. A column that is added comes last, so its
name leads to it only if no other column has the name; a column that gets a new name
stays where it is, so the new name leads to it unless a column in front of it has
the name. Where the name is taken, looking it up gives what it gave before. The
numbers of a column do not depend on the name that it is found by, but a fault tells
the name that was looked up.

Key definitions: `Error.about`, `Table.namesBefore`.
Key theorems: `Table.find?_merge`, `Table.find?_rename_target`,
`Table.numbers_eq_mapError`, `Table.lookup_added`.
-/
import BenchLog.Proofs.WrittenTables

namespace BenchLog

/-- The same error, told of the column of another name. -/
def Error.about (name : String) : Error → Error
  | .missingColumn _ => .missingColumn name
  | .emptyCells _ => .emptyCells name
  | .notNumbers _ kind => .notNumbers name kind
  | e => e

namespace Table

variable {t u other : Table} {name newName source target n m : String}

/-! ### Lookups -/

theorem exists_find?_iff : (∃ c, t.find? n = some c) ↔ n ∈ t.names := by
  rw [← Option.isSome_iff_exists, Option.isSome_iff_ne_none, Ne, find?_eq_none_iff, not_not]

theorem column_congr (h : u.find? n = t.find? n) : u.column n = t.column n := by
  rw [column, column, h]

theorem numbers_congr (h : u.find? n = t.find? n) : u.numbers n = t.numbers n := by
  rw [numbers, numbers, column_congr h]

theorem column_eq_of_find? {c : Column} (hu : u.find? n = some c) (ht : t.find? m = some c) :
    u.column n = t.column m := by
  rw [column, column, hu, ht]

/-- The numbers of a column under another name. -/
theorem numbers_eq_mapError {c : Column} (hu : u.find? n = some c) (ht : t.find? m = some c) :
    u.numbers n = (t.numbers m).mapError (.about n) := by
  rw [numbers_of_find? hu, numbers_of_find? ht]
  by_cases hempty : 0 < c.emptyCount
  · rw [if_pos hempty, if_pos hempty]
    rfl
  · rw [if_neg hempty, if_neg hempty]
    cases c.numbers? <;> rfl

/-! ### A column more -/

theorem find?_merge (h : t.merge other name newName = .ok u) (n : String) :
    u.find? n = (t.find? n).or (if n = newName then other.find? name else none) := by
  obtain ⟨c, hc, hcolumns⟩ := columns_of_merge h
  rw [find?, hcolumns, List.lookup_append, ← find?, List.lookup_cons]
  by_cases hn : n = newName
  · simp [hn, hc]
  · simp [hn, beq_eq_false_iff_ne.mpr hn]

theorem find?_merge_of_mem (h : t.merge other name newName = .ok u) (hn : n ∈ t.names) :
    u.find? n = t.find? n := by
  obtain ⟨c, hc⟩ := exists_find?_iff.mpr hn
  rw [find?_merge h, hc, Option.some_or]

theorem find?_merge_newName (h : t.merge other name newName = .ok u) (hn : newName ∉ t.names) :
    u.find? newName = other.find? name := by
  rw [find?_merge h, find?_eq_none_iff.mpr hn, if_pos rfl, Option.none_or]

/-! ### A column of a new name -/

/-- The names of the columns in front of the first one of a name. -/
def namesBefore (t : Table) (name : String) : List String :=
  t.names.takeWhile (· ≠ name)

theorem lookup_renameFirst_of_ne (hs : n ≠ source) (ht : n ≠ target) :
    ∀ cs : List (String × Column), (renameFirst source target cs).lookup n = cs.lookup n
  | [] => rfl
  | (name, c) :: cs => by
    rw [renameFirst]
    by_cases hname : name = source
    · subst hname
      rw [if_pos rfl, List.lookup_cons, List.lookup_cons, beq_eq_false_iff_ne.mpr hs,
        beq_eq_false_iff_ne.mpr ht]
    · rw [if_neg hname, List.lookup_cons, List.lookup_cons, lookup_renameFirst_of_ne hs ht cs]

/-- The new name leads to the column that has it now, unless one in front has it too. -/
theorem lookup_renameFirst_target : ∀ {cs : List (String × Column)}, source ∈ cs.map (·.1) →
    (renameFirst source target cs).lookup target =
      if target ∈ (cs.map (·.1)).takeWhile (· ≠ source) then cs.lookup target
      else cs.lookup source
  | [], h => by simp at h
  | (name, c) :: cs, h => by
    rw [renameFirst]
    by_cases hname : name = source
    · subst hname
      simp
    · have hmem : source ∈ cs.map (·.1) := by
        simpa [Ne.symm hname] using h
      have hsource : (source == name) = false := beq_eq_false_iff_ne.mpr (Ne.symm hname)
      rw [if_neg hname, List.map_cons, List.takeWhile_cons_of_pos (by simpa using hname)]
      by_cases htarget : target = name
      · subst htarget
        simp
      · have hbeq : (target == name) = false := beq_eq_false_iff_ne.mpr htarget
        simp only [List.lookup_cons, hbeq, hsource, lookup_renameFirst_target hmem, List.mem_cons,
          htarget, false_or]

theorem find?_rename_of_ne (h : t.rename source target = .ok u) (hs : n ≠ source)
    (ht : n ≠ target) : u.find? n = t.find? n := by
  rw [find?, columns_of_rename h, lookup_renameFirst_of_ne hs ht, find?]

theorem mem_names_of_rename (h : t.rename source target = .ok u) : source ∈ t.names := by
  obtain ⟨c, hc, -⟩ := exists_of_bind_eq_ok h
  by_contra hnone
  rw [column, find?_eq_none_iff.mpr hnone] at hc
  cases hc

theorem find?_rename_target (h : t.rename source target = .ok u) :
    u.find? target =
      if target ∈ t.namesBefore source then t.find? target else t.find? source := by
  rw [find?, columns_of_rename h]
  exact lookup_renameFirst_target (mem_names_of_rename h)

/-! ### The law -/

/-- **Looking up a name that was just given.** The name of an added column leads to it if no
column had the name, and the new name of a column leads to it if no column in front of it has
the name; numbers are then the same as under the old name, and a fault is the same but for the
name. Otherwise the name leads where it led before. -/
theorem lookup_added (t other : Table) (name newName source target : String) :
    (∀ u, t.merge other name newName = .ok u →
      (newName ∉ t.names → u.column newName = other.column name ∧
        u.numbers newName = (other.numbers name).mapError (.about newName)) ∧
      (newName ∈ t.names → u.column newName = t.column newName ∧
        u.numbers newName = t.numbers newName)) ∧
    ∀ u, t.rename source target = .ok u →
      (target ∉ t.namesBefore source → u.column target = t.column source ∧
        u.numbers target = (t.numbers source).mapError (.about target)) ∧
      (target ∈ t.namesBefore source → u.column target = t.column target ∧
        u.numbers target = t.numbers target) := by
  refine ⟨fun u h => ⟨fun hnew => ?_, fun hold => ?_⟩, fun u h => ⟨fun hnew => ?_, fun hold => ?_⟩⟩
  · obtain ⟨c, hc, -⟩ := columns_of_merge h
    have hu : u.find? newName = some c := (find?_merge_newName h hnew).trans hc
    exact ⟨column_eq_of_find? hu hc, numbers_eq_mapError hu hc⟩
  · have hu := find?_merge_of_mem h hold
    exact ⟨column_congr hu, numbers_congr hu⟩
  · obtain ⟨c, hc⟩ := exists_find?_iff.mpr (mem_names_of_rename h)
    have hu : u.find? target = some c := by
      rw [find?_rename_target h, if_neg hnew, hc]
    exact ⟨column_eq_of_find? hu hc, numbers_eq_mapError hu hc⟩
  · have hu : u.find? target = t.find? target := by
      rw [find?_rename_target h, if_pos hold]
    exact ⟨column_congr hu, numbers_congr hu⟩

/-- A table with two columns, one of which has a gap. -/
def gapTable : Table where
  rows := 1
  columns := [("whole", .int64 [some 1]), ("gap", .int64 [none])]
  size_eq := by simp [Column.size]

theorem lookup_added_of_gapTable :
    (∃ u, gapTable.merge gapTable "gap" "late" = .ok u ∧ "late" ∉ gapTable.names ∧
      u.numbers "late" = .error (.emptyCells "late")) ∧
    ∃ u, gapTable.rename "whole" "gap" = .ok u ∧ "gap" ∉ gapTable.namesBefore "whole" ∧
      u.column "gap" = .ok (.int64 [some 1]) := by
  have hlate : "late" ∉ gapTable.names := by decide
  have hgap : "gap" ∉ gapTable.namesBefore "whole" := by decide
  obtain ⟨hmerge, hrename⟩ := lookup_added gapTable gapTable "gap" "late" "whole" "gap"
  exact ⟨⟨_, rfl, hlate, ((hmerge _ rfl).1 hlate).2⟩, ⟨_, rfl, hgap, ((hrename _ rfl).1 hgap).1⟩⟩

/-- A name that is taken does not lead to the column that is added or renamed, and a fault is
told of the new name. -/
theorem not_lookup_added :
    (∃ u, gapTable.merge gapTable "gap" "whole" = .ok u ∧
      u.column "whole" ≠ gapTable.column "gap") ∧
    (∃ u, gapTable.rename "gap" "whole" = .ok u ∧ u.column "whole" ≠ gapTable.column "gap") ∧
    ∃ u, gapTable.merge gapTable "gap" "late" = .ok u ∧
      u.numbers "late" ≠ gapTable.numbers "gap" := by
  have hgap : gapTable.column "gap" = .ok (.int64 [none]) := rfl
  have hnumbers : gapTable.numbers "gap" = .error (.emptyCells "gap") := rfl
  have hmerged : ∃ u, gapTable.merge gapTable "gap" "whole" = .ok u ∧
      u.column "whole" = .ok (.int64 [some 1]) := ⟨_, rfl, rfl⟩
  have hrenamed : ∃ u, gapTable.rename "gap" "whole" = .ok u ∧
      u.column "whole" = .ok (.int64 [some 1]) := ⟨_, rfl, rfl⟩
  have hlate : ∃ u, gapTable.merge gapTable "gap" "late" = .ok u ∧
      u.numbers "late" = .error (.emptyCells "late") := ⟨_, rfl, rfl⟩
  refine ⟨hmerged.imp fun u h => ⟨h.1, ?_⟩, hrenamed.imp fun u h => ⟨h.1, ?_⟩,
    hlate.imp fun u h => ⟨h.1, ?_⟩⟩
  · rw [h.2, hgap]
    simp
  · rw [h.2, hgap]
    simp
  · rw [h.2, hnumbers]
    simp

end Table
end BenchLog
