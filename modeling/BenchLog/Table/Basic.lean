/-
# Tables

A table is a row of named columns of one size. Names may recur; looking up a
name finds the first column of it. A table without columns still has a number
of rows.

Key definitions: `Table`, `Table.find?`, `Table.numbers`,
`Table.withRepetitions`, `Table.ofFloats`, `Table.select`, `Table.rename`,
`Table.merge`.
Key theorems: `Table.find?_eq_none_iff`, `Table.rows_select`,
`Table.rows_rename`, `Table.rows_merge`, `Table.names_merge`.
-/
import BenchLog.Error
import BenchLog.Table.Column

namespace BenchLog

/-- Named columns of one size. -/
structure Table where
  rows : Nat
  columns : List (String × Column)
  size_eq : ∀ c ∈ columns, c.2.size = rows

namespace Table

/-- The column that counts repetitions. -/
def repetitionName : String := "Repetition"

/-- The names of the columns in order. -/
def names (t : Table) : List String :=
  t.columns.map (·.1)

/-- The first column of a name. -/
def find? (t : Table) (name : String) : Option Column :=
  t.columns.lookup name

/-- The first column of a name, which is needed. -/
def column (t : Table) (name : String) : Except Error Column :=
  match t.find? name with
  | some c => .ok c
  | none => .error (.missingColumn name)

/-- The cells of a column, all of which have to be numbers. -/
def numbers (t : Table) (name : String) : Except Error (List Float) := do
  let c ← t.column name
  if 0 < c.emptyCount then
    .error (.emptyCells name)
  else
    match c.numbers? with
    | some xs => .ok xs
    | none => .error (.notNumbers name c.kind)

theorem find?_eq_none_iff {t : Table} {name : String} : t.find? name = none ↔ name ∉ t.names := by
  rw [find?, List.lookup_eq_none_iff, names, List.mem_map]
  constructor
  · rintro h ⟨c, hc, rfl⟩
    simpa using h c hc
  · intro h c hc
    exact bne_iff_ne.mpr fun hname => h ⟨c, hc, hname.symm⟩

theorem numbers_of_find? {t : Table} {name : String} {c : Column} (h : t.find? name = some c) :
    t.numbers name =
      if 0 < c.emptyCount then .error (.emptyCells name)
      else match c.numbers? with
        | some xs => .ok xs
        | none => .error (.notNumbers name c.kind) := by
  rw [numbers, column, h]
  rfl

/-! ### Making tables -/

/-- Named columns of numbers, each with so many cells. -/
def floatColumns (columns : List (String × List Float)) : List (String × Column) :=
  columns.map fun (name, values) => (name, .ofFloats values)

theorem size_of_mem_floatColumns {columns : List (String × List Float)} {rows : Nat}
    (h : columns.find? (·.2.length != rows) = none) :
    ∀ c ∈ floatColumns columns, c.2.size = rows := by
  intro c hc
  obtain ⟨d, hd, rfl⟩ := List.mem_map.1 hc
  have := List.find?_eq_none.1 h d hd
  simpa using this

/-- A table with a column of repetitions and columns of numbers. -/
def withRepetitions (repetitions : List UInt32) (columns : List (String × List Float)) :
    Except Error Table :=
  match h : columns.find? (·.2.length != repetitions.length) with
  | some c => .error (.rowCountMismatch repetitions.length c.2.length)
  | none =>
    .ok
      { rows := repetitions.length
        columns := (repetitionName, .ofRepetitions repetitions) :: floatColumns columns
        size_eq := by
          intro c hc
          rcases List.mem_cons.1 hc with rfl | hc
          · simp
          · exact size_of_mem_floatColumns h c hc }

/-- A table of columns of numbers, at least one. -/
def ofFloats : List (String × List Float) → Except Error Table
  | [] => .error .malformedTable
  | first :: others =>
    match h : (first :: others).find? (·.2.length != first.2.length) with
    | some c => .error (.rowCountMismatch first.2.length c.2.length)
    | none =>
      .ok
        { rows := first.2.length
          columns := floatColumns (first :: others)
          size_eq := size_of_mem_floatColumns h }

/-! ### Combining tables -/

theorem size_of_find? {t : Table} {name : String} {c : Column} (h : t.find? name = some c) :
    c.size = t.rows := by
  obtain ⟨l₁, l₂, he, _⟩ := List.lookup_eq_some_iff.1 h
  exact t.size_eq (name, c) (by rw [he]; simp)

/-- The first column of a name with its name; it fits into the table. -/
def fitting (t : Table) (name : String) :
    Except Error { c : String × Column // c.2.size = t.rows } :=
  match h : t.find? name with
  | some c => .ok ⟨(name, c), size_of_find? h⟩
  | none => .error (.missingColumn name)

/-- The columns of the names, in the order of the names. -/
def select (t : Table) (names : List String) : Except Error Table := do
  let chosen ← names.mapM t.fitting
  .ok
    { rows := t.rows
      columns := chosen.map (·.1)
      size_eq := by
        intro c hc
        obtain ⟨d, _, rfl⟩ := List.mem_map.1 hc
        exact d.2 }

/-- The columns with a new name for the first one of a name. -/
def renameFirst (source target : String) : List (String × Column) → List (String × Column)
  | [] => []
  | (name, c) :: cs =>
    if name = source then (target, c) :: cs else (name, c) :: renameFirst source target cs

theorem map_snd_renameFirst (source target : String) (cs : List (String × Column)) :
    (renameFirst source target cs).map (·.2) = cs.map (·.2) := by
  induction cs with
  | nil => rfl
  | cons c cs ih => simp only [renameFirst]; split <;> simp_all

/-- The table with a new name for the first column of a name. -/
def rename (t : Table) (source target : String) : Except Error Table := do
  let _ ← t.column source
  .ok
    { rows := t.rows
      columns := renameFirst source target t.columns
      size_eq := by
        intro c hc
        have hm : c.2 ∈ (renameFirst source target t.columns).map (·.2) := List.mem_map_of_mem hc
        rw [map_snd_renameFirst] at hm
        obtain ⟨d, hd, he⟩ := List.mem_map.1 hm
        rw [← he]
        exact t.size_eq d hd }

/-- The table with a column of another table, under a new name. -/
def merge (t other : Table) (name newName : String) : Except Error Table :=
  if hr : t.rows = other.rows then do
    let c ← other.fitting name
    .ok
      { rows := t.rows
        columns := t.columns ++ [(newName, c.1.2)]
        size_eq := by
          intro d hd
          rcases List.mem_append.1 hd with hd | hd
          · exact t.size_eq d hd
          · rw [List.mem_singleton.1 hd, hr]
            exact c.2 }
  else
    .error (.rowCountMismatch t.rows other.rows)

/-! ### Sizes and names of the results -/

theorem rows_select {t u : Table} {names : List String} (h : t.select names = .ok u) :
    u.rows = t.rows := by
  unfold select at h
  cases hm : names.mapM t.fitting with
  | error e => rw [hm] at h; cases h
  | ok l => rw [hm] at h; cases h; rfl

theorem rows_rename {t u : Table} {source target : String} (h : t.rename source target = .ok u) :
    u.rows = t.rows := by
  unfold rename at h
  cases hc : t.column source with
  | error e => rw [hc] at h; cases h
  | ok c => rw [hc] at h; cases h; rfl

theorem rows_merge {t other u : Table} {name newName : String}
    (h : t.merge other name newName = .ok u) : u.rows = t.rows := by
  unfold merge at h
  split at h
  · cases hc : other.fitting name with
    | error e => rw [hc] at h; cases h
    | ok c => rw [hc] at h; cases h; rfl
  · cases h

theorem names_merge {t other u : Table} {name newName : String}
    (h : t.merge other name newName = .ok u) : u.names = t.names ++ [newName] := by
  unfold merge at h
  split at h
  · cases hc : other.fitting name with
    | error e => rw [hc] at h; cases h
    | ok c => rw [hc] at h; cases h; simp [names]
  · cases h

end Table
end BenchLog
