/-
# The columns of a table

A column is a list of cells of one kind; a cell may be empty. A column without
any filled cell has a kind of its own, and its cells do not count as empty.

Key definitions: `Column`, `Column.size`, `Column.kind`, `Column.emptyCount`,
`Column.numbers?`.
Key theorems: `Column.size_ofFloats`, `Column.size_ofRepetitions`.
-/
import BenchLog.Table.Kind

namespace BenchLog

/-- The cells of a column. -/
inductive Column where
  | null (size : Nat)
  | boolean (cells : List (Option Bool))
  | int64 (cells : List (Option Int))
  | float64 (cells : List (Option Float))
  /-- Dates by their day numbers. -/
  | date32 (cells : List (Option Int))
  /-- Timestamps by the number of units since the first second of 1970. -/
  | timestamp (unit : TimeUnit) (cells : List (Option Int))
  | text (cells : List (Option (List Char)))

namespace Column

/-- The number of cells. -/
def size : Column → Nat
  | null size => size
  | boolean cells => cells.length
  | int64 cells => cells.length
  | float64 cells => cells.length
  | date32 cells => cells.length
  | timestamp _ cells => cells.length
  | text cells => cells.length

/-- What the cells hold. -/
def kind : Column → Kind
  | null _ => .null
  | boolean _ => .boolean
  | int64 _ => .int64
  | float64 _ => .float64
  | date32 _ => .date32
  | timestamp unit _ => .timestamp unit
  | text _ => .text

/-- The number of empty cells in a list. -/
def countEmpty (cells : List (Option α)) : Nat :=
  cells.countP Option.isNone

/-- The number of empty cells. -/
def emptyCount : Column → Nat
  | null _ => 0
  | boolean cells => countEmpty cells
  | int64 cells => countEmpty cells
  | float64 cells => countEmpty cells
  | date32 cells => countEmpty cells
  | timestamp _ cells => countEmpty cells
  | text cells => countEmpty cells

/-- The cells as numbers, if the column holds numbers. Empty cells are left out. -/
def numbers? : Column → Option (List Float)
  | int64 cells => some (cells.reduceOption.map Float.ofInt)
  | float64 cells => some cells.reduceOption
  | _ => none

/-- A column of numbers. -/
def ofFloats (values : List Float) : Column :=
  float64 (values.map some)

/-- A column of the numbers of repetitions. -/
def ofRepetitions (repetitions : List UInt32) : Column :=
  int64 (repetitions.map fun r => some (r.toNat : Int))

@[simp] theorem size_ofFloats (values : List Float) : (ofFloats values).size = values.length := by
  simp [ofFloats, size]

@[simp] theorem size_ofRepetitions (repetitions : List UInt32) :
    (ofRepetitions repetitions).size = repetitions.length := by
  simp [ofRepetitions, size]

end Column
end BenchLog
