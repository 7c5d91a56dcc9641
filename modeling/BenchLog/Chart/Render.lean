/-
# Drawing charts

Everything that can be wrong with the values is checked before a file or a
directory is touched: the x column, the series in order, then whether the x
values and the y values of all series together have a range. A picture is
written only under a name that ends like a picture's.

Key definitions: `Drawing.ofTable`, `saveDrawing`, `renderTable`, `renderFile`.
Key theorems: `renderTable_of_error`.
-/
import BenchLog.Files.Task
import BenchLog.Table.File

namespace BenchLog

/-- The drawing of a table's columns. -/
def Drawing.ofTable (t : Table) (spec : ChartSpec) (style : ChartStyle) : Except Error Drawing := do
  let xs ← t.numbers spec.xColumn
  let series ← spec.series.mapM fun s => t.numbers s.column
  match AxisRange.covering? .float xs with
  | none => .error (.noFiniteValues spec.title .x)
  | some xRange =>
    match AxisRange.covering? .float series.flatten with
    | none => .error (.noFiniteValues spec.title .y)
    | some yRange => .ok { spec, style, xRange, yRange, points := series.map xs.zip }

/-- The endings of the names that pictures are written under. -/
def pictureEndings : List String := ["png", "jpg", "jpeg", "bmp"]

/-- The endings of pictures of other kinds. A file of such a name is opened before
it turns out that its kind cannot be written, and stays empty. -/
def otherPictureEndings : List String :=
  ["avif", "gif", "webp", "tif", "tiff", "tga", "dds", "ico", "hdr", "exr", "pbm", "pam", "ppm",
    "pgm", "ff", "farbfeld", "qoi"]

/-- Whether a name has one of the endings, in any case of ASCII letters. -/
def hasEnding (endings : List String) (p : Path) : Bool :=
  match p.route.extension? with
  | none => false
  | some ending => endings.contains (String.ofList (ending.map Char.toLower))

/-- Writes a drawing. Why a picture cannot be written is not told. -/
def saveDrawing (d : Drawing) (out : Path) : FileTask Unit := do
  FileTask.makeParent out
  fun t =>
    if hasEnding pictureEndings out then
      match t.write out (.chart d) with
      | .ok t => (.ok (), t)
      | .error _ => (.error .undrawable, t)
    else if hasEnding otherPictureEndings out then
      (.error .undrawable, (t.write out (.text [])).toOption.getD t)
    else
      (.error .undrawable, t)

/-- Draws columns of a table into a file. -/
def renderTable (t : Table) (spec : ChartSpec) (style : ChartStyle) (out : Path) :
    FileTask Unit := do
  let drawing ← FileTask.ofExcept (Drawing.ofTable t spec style)
  saveDrawing drawing out

/-- Draws columns of the table in a file. -/
def renderFile (file : Path) (spec : ChartSpec) (style : ChartStyle) (out : Path) :
    FileTask Unit := do
  let t ← Table.load file
  renderTable t spec style out

/-- What is wrong with the values is told, and nothing is written. -/
theorem renderTable_of_error {t : Table} {spec : ChartSpec} {style : ChartStyle} {e : Error}
    (h : Drawing.ofTable t spec style = .error e) (out : Path) (files : FileTree) :
    renderTable t spec style out files = (.error e, files) := by
  simp only [renderTable, h]
  rfl

end BenchLog
