/-
# Tables in files

Key definitions: `Table.load`, `Table.ofContent`, `Table.save`.
-/
import BenchLog.Files.Task
import BenchLog.Table.Csv

namespace BenchLog.Table

/-- The table that the content of a file stands for. A text of nothing but a mark
counts as empty. -/
def ofContent (p : Path) : Content → Except Error Table
  | .text cs => if (Csv.dropMark cs).isEmpty then .error (.emptyInput p) else ofCsv p cs
  | _ => .error .malformedTable

/-- The table in a file. A directory can be opened, but is no table. -/
def load (p : Path) : FileTask Table := fun t =>
  match t.read p with
  | .ok content => (ofContent p content, t)
  | .error .isDirectory => (.error .malformedTable, t)
  | .error e => (.error (.file e none), t)

/-- Writes the table to a file. -/
def save (t : Table) (p : Path) : FileTask Unit :=
  FileTask.save p (.text t.toCsv)

end BenchLog.Table
