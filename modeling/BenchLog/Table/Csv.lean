/-
# Tables as comma-separated text

A table is written as a record of its names and a record of each row; an empty
cell is an empty field. Reading finds the kind of each column from its fields:
`1.0` makes a column of floats and `1` one of whole numbers, so the numbers are
read back, but texts that look like numbers become numbers, and an empty text
becomes an empty cell.

Key definitions: `Column.cellTexts`, `Column.ofCells?`, `Table.toCsv`,
`Table.ofCsv`.
Key theorems: `length_transpose`, `size_of_ofCells?`.
-/
import BenchLog.Csv.Record
import BenchLog.Table.Basic
import BenchLog.Table.Cell

namespace BenchLog

/-- Floats in cells: from a hundred-thousandth to below ten to the sixteenth
without an exponent. -/
def cellStyle : Number.Style := ⟨-4, 16, false, .even⟩

/-- The rows of columns, or the columns of rows: `count` of them. Where a line
is too short, the blank stands. -/
def transpose (blank : α) : Nat → List (List α) → List (List α)
  | 0, _ => []
  | count + 1, lines => lines.map (·.headD blank) :: transpose blank count (lines.map List.tail)

theorem length_transpose {blank : α} {count : Nat} {lines : List (List α)} :
    (transpose blank count lines).length = count := by
  induction count generalizing lines with
  | zero => rfl
  | succ n ih => simp [transpose, ih]

theorem length_of_mem_transpose {blank : α} {count : Nat} {lines : List (List α)} :
    ∀ l ∈ transpose blank count lines, l.length = lines.length := by
  induction count generalizing lines with
  | zero => simp [transpose]
  | succ n ih =>
    intro l hl
    rcases List.mem_cons.1 hl with rfl | hl
    · simp
    · simpa using ih l hl

namespace Column

/-- The cells written by a function, empty ones as nothing. -/
def writeCells (write : α → List Char) (cells : List (Option α)) : List (List Char) :=
  cells.map fun
    | none => []
    | some a => write a

/-- The texts of the cells. -/
def cellTexts : Column → List (List Char)
  | null size => List.replicate size []
  | boolean cells => writeCells (fun b => (if b then "true" else "false").toList) cells
  | int64 cells => writeCells Number.intDigits cells
  | float64 cells => writeCells cellStyle.float cells
  | date32 cells => writeCells (fun n => (Date.ofDayNumber n).text) cells
  | timestamp unit cells => writeCells (fun n => (Instant.ofCount unit n).text) cells
  | text cells => writeCells id cells

/-- Cells read by a function; an empty text is an empty cell. -/
def readCells? (read : List Char → Option α) (texts : List (List Char)) :
    Option (List (Option α)) :=
  texts.mapM fun cs => if cs.isEmpty then some none else (read cs).map some

/-- The column of a kind that has the texts for its cells. -/
def ofTexts? (kind : Kind) (texts : List (List Char)) : Option Column :=
  match kind with
  | .null => some (.null texts.length)
  | .boolean => (readCells? Cell.boolean? texts).map .boolean
  | .int64 => (readCells? Cell.int64? texts).map .int64
  | .float64 => (readCells? Number.float? texts).map .float64
  | .date32 => (readCells? (fun cs => (Cell.date? cs).map Date.dayNumber) texts).map .date32
  | .timestamp unit => (readCells? (Cell.timestamp? unit) texts).map (.timestamp unit)
  | .text => (readCells? some texts).map .text

/-- The column of the texts, with the kind that their forms show. -/
def ofCells? (texts : List (List Char)) : Option Column :=
  ofTexts? (Cell.columnKind ((texts.filter (!·.isEmpty)).map Cell.kind)) texts

theorem length_readCells? {read : List Char → Option α} {texts : List (List Char)}
    {cells : List (Option α)} (h : readCells? read texts = some cells) :
    cells.length = texts.length := by
  unfold readCells? at h
  induction texts generalizing cells with
  | nil => simp_all
  | cons t ts ih =>
    rw [List.mapM_cons] at h
    obtain ⟨c, _, h⟩ := Option.bind_eq_some_iff.1 h
    obtain ⟨cs, hcs, h⟩ := Option.bind_eq_some_iff.1 h
    rw [← Option.some.inj h]
    simp [ih hcs]

/-- A column has a cell for each text. -/
theorem size_of_ofCells? {texts : List (List Char)} {c : Column} (h : ofCells? texts = some c) :
    c.size = texts.length := by
  unfold ofCells? ofTexts? at h
  split at h
  · rw [← Option.some.inj h]
    rfl
  all_goals
    obtain ⟨cells, hc, rfl⟩ := Option.map_eq_some_iff.1 h
    exact length_readCells? hc

end Column

namespace Table

/-- The table as text. -/
def toCsv (t : Table) : List Char :=
  let rows := transpose [] t.rows (t.columns.map fun c => c.2.cellTexts)
  Csv.record (t.names.map String.toList) ++ rows.flatMap Csv.record

/-- The columns with their names, one for each list of texts of one size. -/
def readColumns? (size : Nat) :
    List (String × { texts : List (List Char) // texts.length = size }) →
      Option (List { c : String × Column // c.2.size = size })
  | [] => some []
  | (name, texts) :: rest =>
    match h : Column.ofCells? texts.1 with
    | none => none
    | some c =>
      (readColumns? size rest).map
        (⟨(name, c), by rw [Column.size_of_ofCells? h, texts.2]⟩ :: ·)

/-- The table of a text; `path` names its file. All records have one size. A
table without rows holds nothing to use. -/
def ofCsv (path : Path) (cs : List Char) : Except Error Table :=
  match Csv.records cs with
  | [] => .error .malformedTable
  | names :: rows =>
    if rows.any fun r => r.length != names.length then
      .error .malformedTable
    else
      let texts := (transpose [] names.length rows).attach.map fun l =>
        (⟨l.1, length_of_mem_transpose l.1 l.2⟩ :
          { texts : List (List Char) // texts.length = rows.length })
      match readColumns? rows.length ((names.map String.ofList).zip texts) with
      | none => .error .malformedTable
      | some columns =>
        if rows.isEmpty then
          .error (.emptyInput path)
        else
          .ok
            { rows := rows.length
              columns := columns.map (·.1)
              size_eq := by
                intro c hc
                obtain ⟨d, _, rfl⟩ := List.mem_map.1 hc
                exact d.2 }

end Table
end BenchLog
