/-
# A chart is checked before anything is written

What may be wrong with the values of a chart is looked at in one order: the column
of the x values, the columns of the series in turn, whether any x value is finite,
and whether any y value of all the series is. The first fault is the one that is told
(`ChartFault`), whatever else is wrong behind it. All of this comes before the first
directory is made, and what goes wrong later is told otherwise, so a fault leaves
the files as they were.

Key definitions: `ColumnFault`, `ChartFault`, `Error.isOfValues`.
Key theorems: `Table.numbers_eq_error_iff`, `Drawing.ofTable_eq_error_iff`,
`render_outcome`.
-/
import BenchLog.Chart.Render
import BenchLog.Proofs.AlignmentOutcome
import BenchLog.Proofs.RunFailures

namespace BenchLog

/-! ### Faults -/

/-- What is wrong with a column that numbers are needed of: it is missing, it has empty
cells, or it holds something else. -/
inductive ColumnFault (t : Table) (name : String) : Error → Prop
  | missing : name ∉ t.names → ColumnFault t name (.missingColumn name)
  | emptyCells {c : Column} : t.find? name = some c → 0 < c.emptyCount →
      ColumnFault t name (.emptyCells name)
  | notNumbers {c : Column} : t.find? name = some c → c.emptyCount = 0 →
      c.kind.isNumeric = false → ColumnFault t name (.notNumbers name c.kind)

/-- The first thing that is wrong with the values of a chart. -/
inductive ChartFault (t : Table) (spec : ChartSpec) : Error → Prop
  | xColumn {e : Error} : ColumnFault t spec.xColumn e → ChartFault t spec e
  | series {xs : List Float} {front back : List Series} {s : Series} {e : Error} :
      t.numbers spec.xColumn = .ok xs → spec.series = front ++ s :: back →
        (∀ r ∈ front, ∃ ys, t.numbers r.column = .ok ys) → ColumnFault t s.column e →
          ChartFault t spec e
  | xValues {xs : List Float} :
      t.numbers spec.xColumn = .ok xs → (∀ s ∈ spec.series, ∃ ys, t.numbers s.column = .ok ys) →
        (∀ x ∈ xs, x.isFinite = false) → ChartFault t spec (.noFiniteValues spec.title .x)
  | yValues {xs : List Float} {x : Float} :
      t.numbers spec.xColumn = .ok xs → x ∈ xs → x.isFinite = true →
        (∀ s ∈ spec.series, ∃ ys, t.numbers s.column = .ok ys ∧ ∀ y ∈ ys, y.isFinite = false) →
          ChartFault t spec (.noFiniteValues spec.title .y)

/-- Whether an error tells what is wrong with the values of a chart. -/
def Error.isOfValues : Error → Bool
  | .missingColumn _ | .emptyCells _ | .notNumbers _ _ | .noFiniteValues _ _ => true
  | _ => false

/-! ### Columns -/

theorem Column.numbers?_eq_none_iff {c : Column} :
    c.numbers? = none ↔ c.kind.isNumeric = false := by
  cases c <;> simp [numbers?, kind, Kind.isNumeric]

namespace Table

variable {t : Table} {name : String} {e : Error}

/-- A column gives no numbers exactly for the faults of columns. -/
theorem numbers_eq_error_iff : t.numbers name = .error e ↔ ColumnFault t name e := by
  constructor
  · intro h
    cases hc : t.find? name with
    | none =>
      rw [numbers, column, hc] at h
      cases h
      exact .missing (find?_eq_none_iff.mp hc)
    | some c =>
      rw [numbers_of_find? hc] at h
      by_cases hempty : 0 < c.emptyCount
      · rw [if_pos hempty] at h
        cases h
        exact .emptyCells hc hempty
      · rw [if_neg hempty] at h
        cases hnumbers : c.numbers? with
        | none =>
          rw [hnumbers] at h
          cases h
          exact .notNumbers hc (by omega) (Column.numbers?_eq_none_iff.mp hnumbers)
        | some xs =>
          rw [hnumbers] at h
          cases h
  · rintro (hname | ⟨hc, hempty⟩ | ⟨hc, hempty, hkind⟩)
    · rw [numbers, column, find?_eq_none_iff.mpr hname]
      rfl
    · rw [numbers_of_find? hc, if_pos hempty]
    · rw [numbers_of_find? hc, if_neg (by omega), Column.numbers?_eq_none_iff.mpr hkind]

end Table

/-! ### Charts -/

/-- Something holds of all converted members if it holds of what each member is converted to. -/
theorem forall_mem_of_mapM_eq_ok {f : α → Except ε β} {P : β → Prop} :
    ∀ {as : List α} {bs : List β}, as.mapM f = .ok bs →
      ((∀ b ∈ bs, P b) ↔ ∀ a ∈ as, ∃ b, f a = .ok b ∧ P b)
  | [], _, h => by
    cases h
    simp
  | a :: as, _, h => by
    rw [List.mapM_cons] at h
    obtain ⟨b, hb, h⟩ := exists_of_bind_eq_ok h
    obtain ⟨bs, hbs, h⟩ := exists_of_bind_eq_ok h
    cases h
    rw [List.forall_mem_cons, List.forall_mem_cons, forall_mem_of_mapM_eq_ok hbs, hb]
    simp

section Charts

variable {t : Table} {spec : ChartSpec} {style : ChartStyle} {e : Error}

/-- A table gives no drawing exactly for the first fault of the chart. -/
theorem Drawing.ofTable_eq_error_iff :
    Drawing.ofTable t spec style = .error e ↔ ChartFault t spec e := by
  unfold Drawing.ofTable
  rw [bind_eq_error_iff, Table.numbers_eq_error_iff]
  constructor
  · rintro (hx | ⟨xs, hxs, h⟩)
    · exact .xColumn hx
    rcases bind_eq_error_iff.mp h with h | ⟨yss, hyss, h⟩
    · obtain ⟨front, s, back, hsplit, hfront, hs⟩ := mapM_eq_error_iff.mp h
      exact .series hxs hsplit hfront (Table.numbers_eq_error_iff.mp hs)
    -- All columns are there, so one of the two axes has no finite value.
    have hall := exists_mapM_eq_ok_iff.mp ⟨yss, hyss⟩
    cases hx : AxisRange.covering? .float xs with
    | none =>
      rw [hx] at h
      cases h
      exact .xValues hxs hall ((AxisRange.covering?_eq_none_iff _).mp hx)
    | some xRange =>
      obtain ⟨x, hmem, hfinite⟩ : ∃ x ∈ xs, x.isFinite = true := by
        by_contra hnone
        have hnone' : AxisRange.covering? .float xs = none :=
          (AxisRange.covering?_eq_none_iff _).mpr fun x hmem =>
            Bool.eq_false_iff.mpr fun hfinite => hnone ⟨x, hmem, hfinite⟩
        rw [hx] at hnone'
        cases hnone'
      cases hy : AxisRange.covering? .float yss.flatten with
      | some yRange =>
        rw [hx, hy] at h
        cases h
      | none =>
        rw [hx, hy] at h
        cases h
        have hys := (AxisRange.covering?_eq_none_iff _).mp hy
        refine .yValues hxs hmem hfinite ((forall_mem_of_mapM_eq_ok hyss).mp fun ys hmem y hy => ?_)
        exact hys y (List.mem_flatten.mpr ⟨ys, hmem, hy⟩)
  · rintro (hx | ⟨hxs, hsplit, hfront, hs⟩ | ⟨hxs, hall, hx⟩ | ⟨hxs, hmem, hfinite, hall⟩)
    · exact .inl hx
    · refine .inr ⟨_, hxs, bind_eq_error_iff.mpr (.inl ?_)⟩
      exact mapM_eq_error_iff.mpr ⟨_, _, _, hsplit, hfront, Table.numbers_eq_error_iff.mpr hs⟩
    · obtain ⟨yss, hyss⟩ := exists_mapM_eq_ok_iff.mpr hall
      refine .inr ⟨_, hxs, bind_eq_error_iff.mpr (.inr ⟨yss, hyss, ?_⟩)⟩
      rw [(AxisRange.covering?_eq_none_iff _).mpr hx]
    · obtain ⟨yss, hyss⟩ := exists_mapM_eq_ok_iff.mpr fun s hs => (hall s hs).imp fun _ h => h.1
      refine .inr ⟨_, hxs, bind_eq_error_iff.mpr (.inr ⟨yss, hyss, ?_⟩)⟩
      have hys := (forall_mem_of_mapM_eq_ok hyss).mpr hall
      have hy : AxisRange.covering? .float yss.flatten = none :=
        (AxisRange.covering?_eq_none_iff _).mpr fun y hy => by
          obtain ⟨ys, hmem, hy⟩ := List.mem_flatten.mp hy
          exact hys ys hmem y hy
      cases hx : AxisRange.covering? .float _ with
      | none =>
        have hnone := (AxisRange.covering?_eq_none_iff _).mp hx _ hmem
        exact absurd (hfinite.symm.trans hnone) (by simp)
      | some xRange => rw [hy]

theorem ChartFault.isOfValues (h : ChartFault t spec e) : e.isOfValues = true := by
  rcases h with (h | ⟨-, -, -, h⟩ | _ | _)
  · cases h <;> rfl
  · cases h <;> rfl
  · rfl
  · rfl

end Charts

/-! ### Files -/

/-- That a drawing cannot be put where it should go is nothing about its values. -/
theorem isOfValues_of_saveDrawing {d : Drawing} {out : Path} {files after : FileTree} {e : Error}
    (h : saveDrawing d out files = (.error e, after)) : e.isOfValues = false := by
  unfold saveDrawing at h
  rw [FileTask.bind_eq] at h
  rcases hparent : FileTask.makeParent out files with ⟨e' | _, made⟩
  · rw [hparent] at h
    cases h
    unfold FileTask.makeParent at hparent
    split at hparent
    · cases hparent
    · rename_i parent _
      cases hmade : (FileTree.makeDirectories parent.isRooted parent.steps files).1 with
      | error cause =>
        simp only [hmade, Except.mapError] at hparent
        cases hparent
        rfl
      | ok =>
        simp only [hmade, Except.mapError] at hparent
        cases hparent
  · rw [hparent] at h
    dsimp only at h
    split at h
    · split at h
      · cases h
      · cases h
        rfl
    · split at h
      all_goals
        cases h
        rfl

/-- Reading a table leaves the files as they are. -/
theorem Table.load_snd (file : Path) (files : FileTree) : (Table.load file files).2 = files := by
  unfold Table.load
  split <;> rfl

variable (spec : ChartSpec) (style : ChartStyle) (out : Path) (files : FileTree)

/-- **The values of a chart are checked before anything is written.** Drawing a table fails for
the values of its columns exactly with the first fault of the chart, and then no file and no
directory has changed. Drawing a file fails with the reason for which its table cannot be read, if
it cannot, whatever the chart is, and else is drawing the table; reading changes nothing either. -/
theorem render_outcome :
    (∀ t e, (∃ after, renderTable t spec style out files = (.error e, after) ∧
      e.isOfValues = true) ↔ ChartFault t spec e) ∧
    (∀ t e, ChartFault t spec e → renderTable t spec style out files = (.error e, files)) ∧
    (∀ file e, (Table.load file files).1 = .error e →
      renderFile file spec style out files = (.error e, files)) ∧
    ∀ file t, (Table.load file files).1 = .ok t →
      renderFile file spec style out files = renderTable t spec style out files := by
  have hfault : ∀ t e, ChartFault t spec e →
      renderTable t spec style out files = (.error e, files) := fun t e h =>
    renderTable_of_error (Drawing.ofTable_eq_error_iff.mpr h) out files
  refine ⟨fun t e => ⟨?_, fun h => ⟨files, hfault t e h, h.isOfValues⟩⟩, hfault, ?_, ?_⟩
  · rintro ⟨after, h, hvalues⟩
    cases hd : Drawing.ofTable t spec style with
    | error e' =>
      rw [renderTable_of_error hd] at h
      cases h
      exact Drawing.ofTable_eq_error_iff.mp hd
    | ok d =>
      have hsave : saveDrawing d out files = (.error e, after) := by
        rw [← h, renderTable, hd]
        rfl
      rw [isOfValues_of_saveDrawing hsave] at hvalues
      cases hvalues
  · intro file e h
    exact FileTask.bind_of_error (Prod.ext h (Table.load_snd file files))
  · intro file t h
    exact FileTask.bind_of_ok (Prod.ext h (Table.load_snd file files))

/-- A table with whole numbers, with a gap and with a text. -/
def patchyTable : Table where
  rows := 2
  columns := [("n", .int64 [some 1, some 2]), ("gap", .int64 [some 3, none]),
    ("word", .text [some ['a'], some ['b']])]
  size_eq := by simp [Column.size]

/-- A chart with three series, of which the last two cannot be drawn. -/
def patchySpec : ChartSpec :=
  ⟨"patchy", "n", "x", "y", [⟨"n", "whole"⟩, ⟨"word", "text"⟩, ⟨"gap", "gap"⟩]⟩

theorem render_outcome_of_patchy :
    ChartFault patchyTable patchySpec (.notNumbers "word" .text) ∧
      renderTable patchyTable patchySpec .line ⟨"plots/new/patchy.png"⟩ ⟨[], []⟩ =
        (.error (.notNumbers "word" .text), ⟨[], []⟩) := by
  have hn : patchyTable.numbers "n" = .ok [.ofInt 1, .ofInt 2] := rfl
  have hfault : ChartFault patchyTable patchySpec (.notNumbers "word" .text) := by
    have hsplit : patchySpec.series =
        [⟨"n", "whole"⟩] ++ ⟨"word", "text"⟩ :: [⟨"gap", "gap"⟩] := rfl
    refine .series hn hsplit ?_ ?_
    · simpa using ⟨_, hn⟩
    · exact .notNumbers (c := .text [some ['a'], some ['b']]) rfl rfl rfl
  obtain ⟨-, hrender, -, -⟩ := render_outcome patchySpec .line ⟨"plots/new/patchy.png"⟩ ⟨[], []⟩
  exact ⟨hfault, hrender _ _ hfault⟩

end BenchLog
