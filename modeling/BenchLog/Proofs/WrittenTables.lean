/-
# Tables are read as they were written

The kinds of the columns are not written: reading sees them from the cells. A
column of repetitions shows whole numbers only, and in a column of floats each
cell shows a point, an exponent or one of the words for the values that no
decimal has. So as soon as there is a row, every column of a table of numbers
gets its kind back, and each cell its number.

Key definitions: `Table.HoldsNumbers`, `Table.Made`.
Key theorems: `transpose_transpose`, `Column.ofCells?_ofFloats`,
`Column.ofCells?_ofRepetitions`, `Table.ofCsv_toCsv`,
`Table.Made.holdsNumbers`, `Table.load_save`.
-/
import BenchLog.Chart.Render
import BenchLog.Proofs.AlignedTables
import BenchLog.Proofs.WrittenContents
import BenchLog.Proofs.WrittenNumbers
import BenchLog.Proofs.WrittenRecords

namespace BenchLog

/-! ### Rows and columns -/

theorem transpose_cons {blank : α} {l : List α} {lines : List (List α)} :
    ∀ {count : ℕ}, l.length = count →
      transpose blank count (l :: lines) = l.zipWith List.cons (transpose blank count lines) := by
  induction l generalizing lines with
  | nil =>
    rintro count rfl
    rfl
  | cons a l ih =>
    rintro count rfl
    rw [List.length_cons, transpose, transpose, List.zipWith_cons_cons, List.map_cons,
      List.map_cons, List.tail_cons, ih rfl]
    rfl

/-- The columns of the rows of columns are the columns. -/
theorem transpose_transpose {blank : α} {count : ℕ} {lines : List (List α)}
    (h : ∀ l ∈ lines, l.length = count) :
    transpose blank lines.length (transpose blank count lines) = lines := by
  induction lines with
  | nil => rfl
  | cons l lines ih =>
    have hl : l.length = count := h l List.mem_cons_self
    have hrows : (transpose blank count lines).length = l.length :=
      length_transpose.trans hl.symm
    have hheads : (l.zipWith List.cons (transpose blank count lines)).map (·.headD blank) = l :=
      calc _ = (l.zip (transpose blank count lines)).map Prod.fst := by
            rw [List.zip, List.map_zipWith, List.map_zipWith]
            rfl
        _ = l := List.map_fst_zip hrows.ge
    have htails : (l.zipWith List.cons (transpose blank count lines)).map List.tail =
        transpose blank count lines :=
      calc _ = (l.zip (transpose blank count lines)).map Prod.snd := by
            rw [List.zip, List.map_zipWith, List.map_zipWith]
            rfl
        _ = transpose blank count lines := List.map_snd_zip hrows.le
    rw [transpose_cons hl, List.length_cons, transpose, hheads, htails,
      ih fun k hk => h k (List.mem_cons_of_mem _ hk)]

/-! ### Columns -/

namespace Column

theorem writeCells_map_some (write : α → List Char) (as : List α) :
    writeCells write (as.map some) = as.map write := by
  rw [writeCells, List.map_map]
  rfl

/-- Cells that are all of one kind of numbers make a column of this kind. -/
theorem columnKind_of_forall {kinds : List Kind} {kind : Kind} (hne : kinds ≠ [])
    (h : ∀ k ∈ kinds, k = kind) (hnumeric : kind.isNumeric = true) :
    Cell.columnKind kinds = kind := by
  obtain ⟨k, ks, rfl⟩ := List.exists_cons_of_ne_nil hne
  obtain rfl : k = kind := h k List.mem_cons_self
  have hall : (k :: ks).all Kind.isNumeric = true :=
    List.all_eq_true.mpr fun l hl => h l hl ▸ hnumeric
  cases k with
  | int64 =>
    have hint : (Kind.int64 :: ks).all (· == .int64) = true :=
      List.all_eq_true.mpr fun l hl => beq_iff_eq.mpr (h l hl)
    rw [Cell.columnKind, if_neg (by simp), if_neg (by simp), if_pos hint]
  | float64 =>
    rw [Cell.columnKind, if_neg (by simp), if_neg (by simp), if_neg (by simp), if_pos hall]
  | _ => cases hnumeric

/-- Cells are read as they were written if each is. -/
theorem readCells?_map {write : α → List Char} {read : List Char → Option β} {f : α → β}
    {as : List α} (hread : ∀ a ∈ as, read (write a) = some (f a)) (hne : ∀ a ∈ as, write a ≠ []) :
    readCells? read (as.map write) = some (as.map fun a => some (f a)) := by
  induction as with
  | nil => rfl
  | cons a as ih =>
    have ih := ih (fun b hb => hread b (List.mem_cons_of_mem _ hb))
      (fun b hb => hne b (List.mem_cons_of_mem _ hb))
    unfold readCells? at ih ⊢
    rw [List.map_cons, List.mapM_cons, ih, hread a List.mem_cons_self]
    simp [hne a List.mem_cons_self]

/-- Texts that all show one kind of numbers make a column of this kind. -/
theorem ofCells?_map {write : α → List Char} {kind : Kind} {as : List α} (has : as ≠ [])
    (hkind : ∀ a ∈ as, Cell.kind (write a) = kind) (hnumeric : kind.isNumeric = true)
    (hne : ∀ a ∈ as, write a ≠ []) :
    ofCells? (as.map write) = ofTexts? kind (as.map write) := by
  have hfilter : (as.map write).filter (!·.isEmpty) = as.map write :=
    List.filter_eq_self.mpr fun cs hcs => by
      obtain ⟨a, ha, rfl⟩ := List.mem_map.mp hcs
      simp [hne a ha]
  have hcolumn : Cell.columnKind ((as.map write).map Cell.kind) = kind := by
    refine columnKind_of_forall (by simpa using has) (fun k hk => ?_) hnumeric
    obtain ⟨cs, hcs, rfl⟩ := List.mem_map.mp hk
    obtain ⟨a, ha, rfl⟩ := List.mem_map.mp hcs
    exact hkind a ha
  rw [ofCells?, hfilter, hcolumn]

/-- A column of floats is read back. -/
theorem ofCells?_ofFloats {values : List Float} (h : values ≠ []) :
    ofCells? (ofFloats values).cellTexts = some (ofFloats values) := by
  have hne : ∀ x ∈ values, cellStyle.float x ≠ [] := by
    intro x _ hnil
    have hkind := cellStyle.kind_float x
    rw [hnil] at hkind
    exact absurd hkind (by decide)
  rw [ofFloats, cellTexts, writeCells_map_some,
    ofCells?_map h (fun x _ => cellStyle.kind_float x) rfl hne, ofTexts?,
    readCells?_map (fun x _ => cellStyle.float?_float x) hne]
  rfl

/-- A column of repetitions is read back. -/
theorem ofCells?_ofRepetitions {repetitions : List UInt32} (h : repetitions ≠ []) :
    ofCells? (ofRepetitions repetitions).cellTexts = some (ofRepetitions repetitions) := by
  have hsmall : ∀ r : UInt32, r.toNat < Nat.pow 2 63 := fun r =>
    r.toNat_lt.trans (by decide)
  have htexts : (ofRepetitions repetitions).cellTexts =
      repetitions.map fun r => Number.natDigits r.toNat := by
    rw [ofRepetitions, cellTexts, writeCells, List.map_map]
    rfl
  have hne : ∀ r ∈ repetitions, Number.natDigits r.toNat ≠ [] := fun _ _ =>
    Number.natDigits_ne_nil _
  rw [htexts, ofCells?_map h (fun r _ => Cell.kind_natDigits (hsmall r)) rfl hne, ofTexts?,
    readCells?_map (fun r _ => Cell.int64?_natDigits (hsmall r)) hne]
  rfl

end Column

/-! ### Tables -/

namespace Table

/-- That the columns have their size is proved again when they are read. -/
theorem map_readColumns? {size : ℕ} :
    ∀ named : List (String × { texts : List (List Char) // texts.length = size }),
      (readColumns? size named).map (·.map (·.1)) =
        (named.map fun n => (n.1, n.2.1)).mapM fun n => (Column.ofCells? n.2).map (n.1, ·)
  | [] => rfl
  | (name, texts) :: rest => by
    have ih := map_readColumns? rest
    rw [List.map_cons, List.mapM_cons, readColumns?, ← ih]
    split
    · rename_i hnone
      rw [hnone]
      rfl
    · rename_i c hsome
      simp only [hsome]
      cases readColumns? size rest <;> rfl

theorem length_cellTexts (c : Column) : c.cellTexts.length = c.size := by
  cases c <;> simp [Column.cellTexts, Column.writeCells, Column.size]

/-- A table whose first column counts repetitions and whose others hold floats. -/
def HoldsNumbers (t : Table) : Prop :=
  ∃ repetitions columns,
    t.columns = (repetitionName, .ofRepetitions repetitions) :: floatColumns columns

theorem HoldsNumbers.head?_names {t : Table} (h : t.HoldsNumbers) :
    t.names.head? = some repetitionName := by
  obtain ⟨repetitions, columns, hcolumns⟩ := h
  rw [names, hcolumns]
  rfl

/-- Every column of numbers is read back, if there are rows. -/
theorem HoldsNumbers.ofCells?_cellTexts {t : Table} (h : t.HoldsNumbers) (hrows : 0 < t.rows) :
    ∀ c ∈ t.columns, Column.ofCells? c.2.cellTexts = some c.2 := by
  obtain ⟨repetitions, columns, hcolumns⟩ := h
  intro c hc
  have hsize := t.size_eq c hc
  rw [hcolumns] at hc
  rcases List.mem_cons.mp hc with rfl | hc
  · rw [Column.size_ofRepetitions] at hsize
    exact Column.ofCells?_ofRepetitions (List.ne_nil_of_length_pos (hsize ▸ hrows))
  · obtain ⟨d, -, rfl⟩ := List.mem_map.mp hc
    have hlength : d.2.length = t.rows := (Column.size_ofFloats d.2).symm.trans hsize
    exact Column.ofCells?_ofFloats (List.ne_nil_of_length_pos (hlength ▸ hrows))

/-- The text of a table that begins with repetitions begins with a letter. -/
theorem exists_toCsv_cons {t : Table} (h : t.names.head? = some repetitionName) :
    ∃ cs, t.toCsv = 'R' :: cs := by
  obtain ⟨name, others, hnames⟩ : ∃ name others, t.names = name :: others :=
    List.exists_cons_of_ne_nil fun hnil => by rw [hnil] at h; cases h
  rw [hnames, List.head?_cons, Option.some.injEq] at h
  subst h
  have hline : ∃ cs, Csv.line (repetitionName.toList :: others.map String.toList) = 'R' :: cs := by
    cases others with
    | nil => exact ⟨_, rfl⟩
    | cons other others =>
      rw [List.map_cons, Csv.line_cons_cons]
      exact ⟨_, rfl⟩
  obtain ⟨cs, hcs⟩ := hline
  have hrecord : Csv.record (repetitionName.toList :: others.map String.toList) =
      'R' :: (cs ++ ['\n']) := by
    change (if (Csv.line _).isEmpty then _ else Csv.line _) ++ ['\n'] = _
    rw [hcs]
    rfl
  rw [toCsv, hnames, List.map_cons, hrecord]
  exact ⟨_, rfl⟩

/-- Texts with their names, whether or not their size is kept with them. -/
theorem map_zip_attach {lines : List (List (List Char))} {size : ℕ}
    (h : ∀ l ∈ lines, l.length = size) (names : List String) :
    (names.zip (lines.attach.map fun l =>
        (⟨l.1, h l.1 l.2⟩ : { texts : List (List Char) // texts.length = size }))).map
      (fun n => (n.1, n.2.1)) = names.zip lines :=
  calc _ = (names.zip (lines.attach.map fun l =>
          (⟨l.1, h l.1 l.2⟩ : { texts : List (List Char) // texts.length = size }))).map
        (Prod.map id (·.1)) := rfl
    _ = names.zip lines := by
      rw [← List.zip_map_right, List.map_map]
      exact congrArg _ (List.attach_map_subtype_val lines)

/-- The records of a written table. -/
theorem records_toCsv {t : Table} (hfirst : t.names.head? = some repetitionName) :
    Csv.records t.toCsv = t.names.map String.toList ::
      transpose [] t.rows (t.columns.map fun c => c.2.cellTexts) := by
  have hne : t.columns ≠ [] := by
    intro hnil
    rw [names, hnil] at hfirst
    cases hfirst
  have htext : t.toCsv = (t.names.map String.toList ::
      transpose [] t.rows (t.columns.map fun c => c.2.cellTexts)).flatMap Csv.record := rfl
  obtain ⟨cs, hcs⟩ := exists_toCsv_cons hfirst
  rw [htext]
  refine Csv.records_flatMap_record (fun r hr => ?_) ?_
  · rcases List.mem_cons.mp hr with rfl | hr
    · simpa [names] using hne
    · have hlength := length_of_mem_transpose r hr
      rw [List.length_map] at hlength
      exact List.ne_nil_of_length_pos (hlength ▸ List.length_pos_of_ne_nil hne)
  · rw [← htext, hcs]
    rfl

/-- A table with rows is read as it was written if each of its columns is read back. -/
theorem ofCsv_toCsv {t : Table} (hrows : 0 < t.rows) (hfirst : t.names.head? = some repetitionName)
    (hread : ∀ c ∈ t.columns, Column.ofCells? c.2.cellTexts = some c.2) (p : Path) :
    ofCsv p t.toCsv = .ok t := by
  have hne : t.columns ≠ [] := by
    intro hnil
    rw [names, hnil] at hfirst
    cases hfirst
  have hlengths : ∀ l ∈ t.columns.map fun c => c.2.cellTexts, l.length = t.rows := by
    intro l hl
    obtain ⟨c, hc, rfl⟩ := List.mem_map.mp hl
    rw [length_cellTexts, t.size_eq c hc]
  have hrecords := records_toCsv hfirst
  generalize hrowsEq : transpose [] t.rows (t.columns.map fun c => c.2.cellTexts) = rows at hrecords
  have hback : transpose [] (t.columns.map fun c => c.2.cellTexts).length rows =
      t.columns.map fun c => c.2.cellTexts := hrowsEq ▸ transpose_transpose hlengths
  have hsize : rows.length = t.rows := hrowsEq ▸ length_transpose
  have hwidth : ∀ r ∈ rows, r.length = (t.columns.map fun c => c.2.cellTexts).length :=
    hrowsEq ▸ length_of_mem_transpose
  rw [List.length_map] at hback hwidth
  have hlength : (t.names.map String.toList).length = t.columns.length := by simp [names]
  have hany : (rows.any fun r => r.length != (t.names.map String.toList).length) = false := by
    rw [List.any_eq_false]
    intro r hr
    simp [hlength, hwidth r hr]
  have hnames : (t.names.map String.toList).map String.ofList = t.names := by
    simp [Function.comp_def]
  have hzip : t.names.zip (transpose [] (t.names.map String.toList).length rows) =
      t.columns.map fun c => (c.1, c.2.cellTexts) := by
    rw [hlength, hback, names, List.zip_map']
  have hcolumns := map_readColumns? (t.names.zip
    ((transpose [] (t.names.map String.toList).length rows).attach.map fun l =>
      ⟨l.1, length_of_mem_transpose l.1 l.2⟩))
  have hcells : ∀ c ∈ t.columns, (Column.ofCells? c.2.cellTexts).map (c.1, ·) = some c :=
    fun c hc => by rw [hread c hc, Option.map_some]
  rw [map_zip_attach length_of_mem_transpose, hzip, mapM_map_eq_some hcells] at hcolumns
  simp only [ofCsv, hrecords, hany, Bool.false_eq_true, if_false, hnames]
  split
  · rename_i hnone
    rw [hnone] at hcolumns
    cases hcolumns
  · rename_i columns hsome
    rw [hsome, Option.map_some, Option.some.injEq] at hcolumns
    rw [if_neg (by simpa using List.ne_nil_of_length_pos (hsize ▸ hrows)), Except.ok.injEq]
    exact eq_of_columns hcolumns hne

/-! ### How tables of numbers come about -/

theorem HoldsNumbers.find?_repetitionName {t : Table} (h : t.HoldsNumbers) :
    ∃ repetitions, t.find? repetitionName = some (.ofRepetitions repetitions) := by
  obtain ⟨repetitions, columns, hcolumns⟩ := h
  exact ⟨repetitions, by rw [find?, hcolumns, List.lookup_cons_self]⟩

theorem HoldsNumbers.of_find? {t : Table} (h : t.HoldsNumbers) {name : String} {c : Column}
    (hname : name ≠ repetitionName) (hc : t.find? name = some c) : ∃ xs, c = .ofFloats xs := by
  obtain ⟨repetitions, columns, hcolumns⟩ := h
  have hbeq : (name == repetitionName) = false := beq_eq_false_iff_ne.mpr hname
  rw [find?, hcolumns, List.lookup_cons, hbeq] at hc
  obtain ⟨before, after, hmem, -⟩ := List.lookup_eq_some_iff.mp hc
  obtain ⟨d, -, hd⟩ := List.mem_map.mp (hmem ▸ List.mem_append_right before List.mem_cons_self)
  cases hd
  exact ⟨d.2, rfl⟩

theorem fitting_eq_ok {t : Table} {name : String}
    {c : { c : String × Column // c.2.size = t.rows }} (h : t.fitting name = .ok c) :
    t.find? name = some c.1.2 ∧ c.1.1 = name := by
  unfold fitting at h
  split at h
  · rename_i d hd
    cases h
    exact ⟨hd, rfl⟩
  · cases h

theorem columns_of_select {t u : Table} {a b : String} (h : t.select [a, b] = .ok u) :
    ∃ c d, t.find? a = some c ∧ t.find? b = some d ∧ u.columns = [(a, c), (b, d)] := by
  obtain ⟨chosen, hboth, hu⟩ := exists_of_bind_eq_ok h
  rw [List.mapM_cons] at hboth
  obtain ⟨c, hc, hrest⟩ := exists_of_bind_eq_ok hboth
  obtain ⟨others, hsecond, hcons⟩ := exists_of_bind_eq_ok hrest
  rw [List.mapM_cons] at hsecond
  obtain ⟨d, hd, hlast⟩ := exists_of_bind_eq_ok hsecond
  cases hlast
  cases hcons
  cases hu
  obtain ⟨hfindc, hnamec⟩ := fitting_eq_ok hc
  obtain ⟨hfindd, hnamed⟩ := fitting_eq_ok hd
  exact ⟨c.1.2, d.1.2, hfindc, hfindd, by rw [← hnamec, ← hnamed]; rfl⟩

theorem columns_of_rename {t u : Table} {source target : String}
    (h : t.rename source target = .ok u) : u.columns = renameFirst source target t.columns := by
  obtain ⟨_, -, hu⟩ := exists_of_bind_eq_ok h
  cases hu
  rfl

theorem columns_of_merge {t other u : Table} {name newName : String}
    (h : t.merge other name newName = .ok u) :
    ∃ c, other.find? name = some c ∧ u.columns = t.columns ++ [(newName, c)] := by
  unfold merge at h
  split at h
  · obtain ⟨c, hc, hu⟩ := exists_of_bind_eq_ok h
    cases hu
    exact ⟨c.1.2, (fitting_eq_ok hc).1, rfl⟩
  · cases h

theorem holdsNumbers_of_alignDataset {files : FileTree} {layout : DatasetLayout} {dir : Path}
    {source : String} {d : AlignedDataset} (h : alignDataset files layout dir source = .ok d)
    (m : Metric) : (d.table m).HoldsNumbers := by
  obtain ⟨logs, hlogs⟩ := exists_standIn_of_alignDataset h
  obtain ⟨ram, cpu, time, hram, hcpu, htime, rfl⟩ := hlogs.alignDataset_eq_ok_iff.mp h
  obtain ⟨-, ram, hramColumns, rfl⟩ := alignRam_eq_ok_iff.mp hram
  obtain ⟨-, cpu, hcpuColumns, rfl⟩ := alignCpu_eq_ok_iff.mp hcpu
  obtain ⟨times, -, -, time, htimeColumns, rfl⟩ := alignTime_eq_ok_iff.mp htime
  cases m
  case ram => exact ⟨_, [(ramStartColumn, _), (Metric.ram.valueColumn, _)], hramColumns⟩
  case cpu => exact ⟨_, [(Metric.cpu.valueColumn, _)], hcpuColumns⟩
  case executionTime => exact ⟨_, [(Metric.executionTime.valueColumn, _)], htimeColumns⟩

theorem valueColumn_ne_repetitionName (m : Metric) : m.valueColumn ≠ repetitionName := by
  cases m <;> decide

/-- A merged table has the repetitions and the values of the first table, and the values of
the second. -/
theorem columns_of_mergeMetric {s p : AlignedDataset} {m : Metric} {t : Table}
    (h : mergeMetric s p m = .ok t) :
    ∃ counts c d, (s.table m).find? repetitionName = some counts ∧
      (s.table m).find? m.valueColumn = some c ∧ (p.table m).find? m.valueColumn = some d ∧
      t.columns = [(repetitionName, counts), (m.sequentialColumn, c), (m.parallelColumn, d)] := by
  obtain ⟨chosen, hchosen, h⟩ := exists_of_bind_eq_ok h
  obtain ⟨values, hvalues, h⟩ := exists_of_bind_eq_ok h
  obtain ⟨counts, c, hcounts, hc, hchosen⟩ := columns_of_select hchosen
  obtain ⟨d, hd, hcolumns⟩ := columns_of_merge h
  refine ⟨counts, c, d, hcounts, hc, hd, ?_⟩
  rw [hcolumns, columns_of_rename hvalues, hchosen, renameFirst,
    if_neg (valueColumn_ne_repetitionName m).symm, renameFirst, if_pos rfl]
  rfl

theorem holdsNumbers_of_mergeMetric {s p : AlignedDataset} {m : Metric} {t : Table}
    (hs : (s.table m).HoldsNumbers) (hp : (p.table m).HoldsNumbers)
    (h : mergeMetric s p m = .ok t) : t.HoldsNumbers := by
  have hname := valueColumn_ne_repetitionName m
  obtain ⟨counts, c, d, hcounts, hc, hd, hcolumns⟩ := columns_of_mergeMetric h
  obtain ⟨repetitions, hrepetitions⟩ := hs.find?_repetitionName
  obtain rfl : Column.ofRepetitions repetitions = counts :=
    Option.some.inj (hrepetitions.symm.trans hcounts)
  obtain ⟨xs, rfl⟩ := hs.of_find? hname hc
  obtain ⟨ys, rfl⟩ := hp.of_find? hname hd
  exact ⟨repetitions, [(m.sequentialColumn, xs), (m.parallelColumn, ys)], hcolumns⟩

/-- A table of repetitions and columns of numbers, or one that compares a metric of two
aligned datasets. -/
inductive Made : Table → Prop
  | ofRepetitions {repetitions : List UInt32} {columns : List (String × List Float)} {t : Table} :
      withRepetitions repetitions columns = .ok t → Made t
  | merged {files files' : FileTree} {layout layout' : DatasetLayout} {dir dir' : Path}
      {source source' : String} {s p : AlignedDataset} {m : Metric} {t : Table} :
      alignDataset files layout dir source = .ok s →
      alignDataset files' layout' dir' source' = .ok p → mergeMetric s p m = .ok t → Made t

theorem Made.holdsNumbers {t : Table} (h : t.Made) : t.HoldsNumbers := by
  cases h with
  | ofRepetitions h => exact ⟨_, _, columns_of_withRepetitions h⟩
  | merged hs hp h =>
    exact holdsNumbers_of_mergeMetric (holdsNumbers_of_alignDataset hs _)
      (holdsNumbers_of_alignDataset hp _) h

/-! ### Files -/

theorem load_of_readText {files : FileTree} {p : Path} {text : List Char}
    (h : files.readText p = .ok text) : load p files = (ofContent p (.text text), files) := by
  obtain ⟨content, hread, htext⟩ :
      ∃ content, files.read p = .ok content ∧ content = .text text := by
    unfold FileTree.readText at h
    cases hr : files.read p with
    | error e => rw [hr] at h; cases h
    | ok content =>
      rw [hr] at h
      cases content <;> cases h
      exact ⟨_, rfl, rfl⟩
  rw [load, hread, htext]

/-- **A table of numbers with at least one row is read back from the file it was written to,
with its names, the kinds of its columns and all cells, so drawing from the file is drawing
from the table.** The names and the values may be any: infinities are read back from their
words. -/
theorem load_save {t : Table} (ht : t.Made) (hrows : 0 < t.rows) {p : Path}
    {files after : FileTree} (h : t.save p files = (.ok (), after)) :
    load p after = (.ok t, after) ∧
      ∀ spec style out, renderFile p spec style out after = renderTable t spec style out after := by
  have hnumbers := ht.holdsNumbers
  obtain ⟨cs, hcs⟩ := exists_toCsv_cons hnumbers.head?_names
  have hload : load p after = (.ok t, after) := by
    rw [load_of_readText (FileTask.readText_of_save h), ofContent]
    have hmark : (Csv.dropMark t.toCsv).isEmpty = false := by
      rw [hcs]
      rfl
    rw [hmark, if_neg Bool.false_ne_true, ofCsv_toCsv hrows hnumbers.head?_names
      (hnumbers.ofCells?_cellTexts hrows)]
  exact ⟨hload, fun spec style out => FileTask.bind_of_ok hload⟩

/-- Values that are written with a point, with an exponent, as if whole, and as words. -/
def variedColumns : List (String × List Float) :=
  [("usage_1", [0.1, 1e300, 5e-324]), ("usage_2", [3, 1 / 0, -1 / 0])]

theorem load_save_of_varied :
    ∃ t after, withRepetitions [1, 2, 4294967295] variedColumns = .ok t ∧ t.Made ∧ 0 < t.rows ∧
      t.save ⟨"out/t.csv"⟩ ⟨[], []⟩ = (.ok (), after) ∧
      load ⟨"out/t.csv"⟩ after = (.ok t, after) ∧
      ∀ spec style out, renderFile ⟨"out/t.csv"⟩ spec style out after =
        renderTable t spec style out after := by
  obtain ⟨t, ht, hcolumns⟩ := exists_withRepetitions [1, 2, 4294967295] variedColumns
    (by simp [variedColumns])
  have hrows : t.rows = 3 :=
    (t.size_eq _ (hcolumns ▸ List.mem_cons_self)).symm.trans (Column.size_ofRepetitions _)
  have hsave : t.save ⟨"out/t.csv"⟩ ⟨[], []⟩ = (.ok (), (t.save ⟨"out/t.csv"⟩ ⟨[], []⟩).2) := by
    rfl
  have hmade : t.Made := .ofRepetitions ht
  have hpos : 0 < t.rows := by omega
  exact ⟨t, _, ht, hmade, hpos, hsave, load_save hmade hpos hsave⟩

end Table
end BenchLog
