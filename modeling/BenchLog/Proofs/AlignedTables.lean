/-
# Tables of one size, and where sizes can differ

The tables of a dataset are made of columns of one length, so aligning never
fails for the sizes of columns, and no reader of files and no chart does. Sizes
can differ in one place only: where a metric of two datasets is merged. There
they are looked at last, as aligned tables have the columns that are selected.

Key definitions: `Error.isMismatch`, `NoMismatch`, `Table.Fits`.
Key theorems: `Table.exists_withRepetitions`, `noMismatch_alignDataset`,
`fits_of_alignDataset`, `mergeMetric_of_rows_ne`.
-/
import BenchLog.Report.Comparison

namespace BenchLog

/-- Whether tables of different sizes are the reason. -/
def Error.isMismatch : Error → Bool
  | rowCountMismatch _ _ => true
  | _ => false

/-- If the result is an error, sizes are not the reason. -/
def NoMismatch (r : Except Error α) : Prop :=
  ∀ e, r = .error e → e.isMismatch = false

/-! ### Failing for other reasons -/

theorem noMismatch_ok (a : α) : NoMismatch (.ok a) :=
  fun _ h => nomatch h

theorem noMismatch_error {e : Error} (h : e.isMismatch = false) :
    NoMismatch (.error e : Except Error α) := by
  intro e' he
  cases he
  exact h

theorem NoMismatch.bind {r : Except Error α} {f : α → Except Error β} (hr : NoMismatch r)
    (hf : ∀ a, r = .ok a → NoMismatch (f a)) : NoMismatch (r >>= f) := by
  cases r with
  | error e => exact noMismatch_error (hr e rfl)
  | ok a => exact hf a rfl

theorem NoMismatch.mapM {f : α → Except Error β} :
    ∀ {as : List α}, (∀ a ∈ as, NoMismatch (f a)) → NoMismatch (as.mapM f)
  | [], _ => noMismatch_ok []
  | a :: as, h => by
    rw [List.mapM_cons]
    refine (h a List.mem_cons_self).bind fun b _ => ?_
    have has := NoMismatch.mapM fun a' ha' => h a' (List.mem_cons_of_mem _ ha')
    exact has.bind fun bs _ => noMismatch_ok (b :: bs)

namespace Table

theorem noMismatch_column (t : Table) (name : String) : NoMismatch (t.column name) := by
  unfold column
  split
  · exact noMismatch_ok _
  · exact noMismatch_error rfl

theorem noMismatch_numbers (t : Table) (name : String) : NoMismatch (t.numbers name) := by
  refine (noMismatch_column t name).bind fun c _ => ?_
  split
  · exact noMismatch_error rfl
  · split
    · exact noMismatch_ok _
    · exact noMismatch_error rfl

/-- A table is made if all columns have a cell for each repetition. -/
theorem exists_withRepetitions (repetitions : List UInt32)
    (columns : List (String × List Float))
    (h : ∀ c ∈ columns, c.2.length = repetitions.length) :
    ∃ t, withRepetitions repetitions columns = .ok t ∧
      t.columns = (repetitionName, .ofRepetitions repetitions) :: floatColumns columns := by
  have hfit : columns.find? (·.2.length != repetitions.length) = none :=
    List.find?_eq_none.mpr fun c hc => by simpa using h c hc
  unfold withRepetitions
  split
  · rename_i c hc
    rw [hfit] at hc
    cases hc
  · exact ⟨_, rfl, rfl⟩

/-- A table is made if all columns are as long as the first one. -/
theorem exists_ofFloats (first : String × List Float) (others : List (String × List Float))
    (h : ∀ c ∈ others, c.2.length = first.2.length) :
    ∃ t, ofFloats (first :: others) = .ok t ∧ t.columns = floatColumns (first :: others) := by
  have hfit : (first :: others).find? (·.2.length != first.2.length) = none :=
    List.find?_eq_none.mpr fun c hc => by
      rcases List.mem_cons.mp hc with rfl | hc
      · simp
      · simp [h c hc]
  rw [ofFloats]
  split
  · rename_i c hc
    rw [hfit] at hc
    cases hc
  · exact ⟨_, rfl, rfl⟩

theorem noMismatch_ofContent (p : Path) (c : Content) : NoMismatch (ofContent p c) := by
  unfold ofContent
  split
  · split
    · exact noMismatch_error rfl
    · unfold ofCsv
      split
      · exact noMismatch_error rfl
      · split
        · exact noMismatch_error rfl
        · dsimp only
          split
          · exact noMismatch_error rfl
          · split
            · exact noMismatch_error rfl
            · exact noMismatch_ok _
  · exact noMismatch_error rfl

end Table

theorem noMismatch_ofTable (t : Table) (spec : ChartSpec) (style : ChartStyle) :
    NoMismatch (Drawing.ofTable t spec style) := by
  refine (t.noMismatch_numbers spec.xColumn).bind fun xs _ =>
    (NoMismatch.mapM fun s _ => t.noMismatch_numbers s.column).bind fun series _ => ?_
  split
  · exact noMismatch_error rfl
  · split
    · exact noMismatch_error rfl
    · exact noMismatch_ok _

/-! ### Aligned tables -/

theorem noMismatch_withRepetitions {repetitions : List UInt32}
    {columns : List (String × List Float)}
    (h : ∀ c ∈ columns, c.2.length = repetitions.length) :
    NoMismatch (Table.withRepetitions repetitions columns) := by
  obtain ⟨t, ht, -⟩ := Table.exists_withRepetitions repetitions columns h
  rw [ht]
  exact noMismatch_ok t

theorem noMismatch_readLog (t : FileTree) (p : Path) : NoMismatch (readLog t p) := by
  unfold readLog
  split
  · exact noMismatch_error rfl
  · split
    · exact noMismatch_error rfl
    · exact noMismatch_ok _

theorem noMismatch_alignRam (p : Path) (text : List Char) : NoMismatch (alignRam p text) := by
  unfold alignRam
  dsimp only
  split
  · exact noMismatch_error rfl
  · refine (noMismatch_withRepetitions ?_).bind fun _ _ => noMismatch_ok _
    simp

theorem noMismatch_alignCpu (p : Path) (text : List Char) : NoMismatch (alignCpu p text) := by
  unfold alignCpu
  dsimp only
  split
  · exact noMismatch_error rfl
  · refine (noMismatch_withRepetitions ?_).bind fun _ _ => noMismatch_ok _
    simp

theorem noMismatch_milliseconds (text : List Char) : NoMismatch (Duration.milliseconds text) := by
  unfold Duration.milliseconds
  dsimp only
  split
  · exact noMismatch_error rfl
  · split
    · exact noMismatch_ok _
    · exact noMismatch_error rfl

theorem noMismatch_executionTimes (text : List Char) : NoMismatch (ExecutionTime.ofLog text) := by
  refine NoMismatch.mapM fun r hr => ?_
  obtain ⟨line, -, hline⟩ := List.mem_filterMap.mp hr
  obtain ⟨duration, -, rfl⟩ := Option.map_eq_some_iff.mp hline
  exact noMismatch_milliseconds duration

theorem noMismatch_alignTime (p : Path) (text : List Char) : NoMismatch (alignTime p text) := by
  refine (noMismatch_executionTimes text).bind fun times _ => ?_
  split
  · exact noMismatch_error rfl
  · refine (noMismatch_withRepetitions ?_).bind fun _ _ => noMismatch_ok _
    simp

/-- Aligning never fails for the sizes of tables. -/
theorem noMismatch_alignDataset (t : FileTree) (layout : DatasetLayout) (dir : Path)
    (source : String) : NoMismatch (alignDataset t layout dir source) :=
  (noMismatch_readLog t _).bind fun _ _ => (noMismatch_alignRam _ _).bind fun _ _ =>
    (noMismatch_readLog t _).bind fun _ _ => (noMismatch_alignCpu _ _).bind fun _ _ =>
      (noMismatch_readLog t _).bind fun _ _ => (noMismatch_alignTime _ _).bind fun _ _ =>
        noMismatch_ok _

theorem noMismatch_ofFloats (first : String × List Float) (others : List (String × List Float))
    (h : ∀ c ∈ others, c.2.length = first.2.length) :
    NoMismatch (Table.ofFloats (first :: others)) := by
  obtain ⟨t, ht, -⟩ := Table.exists_ofFloats first others h
  rw [ht]
  exact noMismatch_ok t

theorem noMismatch_readTimeline (t : FileTree) (p : Path) : NoMismatch (readTimeline t p) := by
  refine (noMismatch_readLog t p).bind fun text _ => ?_
  unfold timelineTable
  split
  · exact noMismatch_error rfl
  · exact noMismatch_ofFloats _ _ (by simp)

/-! ### Merging aligned tables -/

/-- The columns that are compared are there. -/
structure Table.Fits (t : Table) (m : Metric) : Prop where
  repetition : (t.find? repetitionName).isSome
  value : (t.find? m.valueColumn).isSome

/-- A sequence that succeeds succeeds in both parts. -/
theorem exists_of_bind_eq_ok {r : Except ε α} {f : α → Except ε β} {b : β}
    (h : (r >>= f) = .ok b) : ∃ a, r = .ok a ∧ f a = .ok b := by
  cases r with
  | error e => cases h
  | ok a => exact ⟨a, rfl, h⟩

theorem bind_eq_ok_iff {r : Except ε α} {f : α → Except ε β} {b : β} :
    (r >>= f) = .ok b ↔ ∃ a, r = .ok a ∧ f a = .ok b := by
  refine ⟨exists_of_bind_eq_ok, fun ⟨a, hr, hf⟩ => ?_⟩
  rw [hr]
  exact hf

theorem eq_ok_of_toOption {r : Except ε α} {a : α} (h : r.toOption = some a) : r = .ok a := by
  cases r with
  | error => cases h
  | ok => exact congrArg Except.ok (Option.some.inj h)

theorem Table.columns_of_withRepetitions {repetitions : List UInt32} {t : Table}
    {columns : List (String × List Float)} (h : withRepetitions repetitions columns = .ok t) :
    t.columns = (repetitionName, .ofRepetitions repetitions) :: floatColumns columns := by
  unfold withRepetitions at h
  split at h
  · cases h
  · cases h
    rfl

theorem Table.fits_of_withRepetitions {repetitions : List UInt32} {t : Table} {m : Metric}
    {columns : List (String × List Float)} (h : withRepetitions repetitions columns = .ok t)
    (hm : m.valueColumn ∈ columns.map (·.1)) : t.Fits m := by
  have hcolumns := columns_of_withRepetitions h
  have hfind : ∀ name ∈ t.columns.map (·.1), (t.find? name).isSome := by
    intro name hname
    rw [Table.find?, Option.isSome_iff_ne_none, Ne, List.lookup_eq_none_iff]
    intro hall
    obtain ⟨c, hc, rfl⟩ := List.mem_map.mp hname
    exact absurd (hall c hc) (by simp)
  refine ⟨hfind _ (by simp [hcolumns]), hfind _ ?_⟩
  rw [hcolumns, List.map_cons, floatColumns, List.map_map]
  exact List.mem_cons_of_mem _ hm

theorem fits_of_alignRam {p : Path} {text : List Char} {r : Pairing × Table}
    (h : alignRam p text = .ok r) : r.2.Fits .ram := by
  unfold alignRam at h
  dsimp only at h
  split at h
  · cases h
  · obtain ⟨t, ht, hr⟩ := exists_of_bind_eq_ok h
    cases hr
    exact Table.fits_of_withRepetitions ht (by simp)

theorem fits_of_alignCpu {p : Path} {text : List Char} {r : Nat × List (UInt32 × Float) × Table}
    (h : alignCpu p text = .ok r) : r.2.2.Fits .cpu := by
  unfold alignCpu at h
  dsimp only at h
  split at h
  · cases h
  · obtain ⟨t, ht, hr⟩ := exists_of_bind_eq_ok h
    cases hr
    exact Table.fits_of_withRepetitions ht (by simp)

theorem fits_of_alignTime {p : Path} {text : List Char} {r : List Float × Table}
    (h : alignTime p text = .ok r) : r.2.Fits .executionTime := by
  obtain ⟨times, -, h⟩ := exists_of_bind_eq_ok h
  split at h
  · cases h
  · obtain ⟨t, ht, hr⟩ := exists_of_bind_eq_ok h
    cases hr
    exact Table.fits_of_withRepetitions ht (by simp)

/-- The tables of a dataset can be compared. -/
theorem fits_of_alignDataset {t : FileTree} {layout : DatasetLayout} {dir : Path} {source : String}
    {d : AlignedDataset} (h : alignDataset t layout dir source = .ok d) (m : Metric) :
    (d.table m).Fits m := by
  obtain ⟨_, -, h⟩ := exists_of_bind_eq_ok h
  obtain ⟨⟨_, ram⟩, hram, h⟩ := exists_of_bind_eq_ok h
  obtain ⟨_, -, h⟩ := exists_of_bind_eq_ok h
  obtain ⟨⟨_, _, cpu⟩, hcpu, h⟩ := exists_of_bind_eq_ok h
  obtain ⟨_, -, h⟩ := exists_of_bind_eq_ok h
  obtain ⟨⟨_, time⟩, htime, h⟩ := exists_of_bind_eq_ok h
  cases h
  cases m
  case ram => exact fits_of_alignRam hram
  case cpu => exact fits_of_alignCpu hcpu
  case executionTime => exact fits_of_alignTime htime

namespace Table

variable {t : Table} {m : Metric}

theorem exists_fitting {name : String} (h : (t.find? name).isSome) :
    ∃ c, t.fitting name = .ok c ∧ c.1.1 = name := by
  unfold fitting
  split
  · exact ⟨_, rfl, rfl⟩
  · rename_i hnone
    rw [hnone] at h
    cases h

/-- The compared columns can be selected, and the values are among them. -/
theorem Fits.exists_select (h : t.Fits m) :
    ∃ chosen, t.select [repetitionName, m.valueColumn] = .ok chosen ∧
      (chosen.find? m.valueColumn).isSome := by
  obtain ⟨r, hr, -⟩ := exists_fitting h.repetition
  obtain ⟨v, hv, hname⟩ := exists_fitting h.value
  have hboth : [repetitionName, m.valueColumn].mapM t.fitting = .ok [r, v] := by
    rw [List.mapM_cons, hr, List.mapM_cons, hv, List.mapM_nil]
    rfl
  refine ⟨⟨t.rows, [r.1, v.1], ?_⟩, ?_, ?_⟩
  · intro c hc
    simp only [List.mem_cons, List.not_mem_nil, or_false] at hc
    rcases hc with rfl | rfl
    · exact r.2
    · exact v.2
  · rw [select, hboth]
    rfl
  · rw [find?, Option.isSome_iff_ne_none, Ne, List.lookup_eq_none_iff]
    intro hall
    exact absurd (hall v.1 (by simp)) (by simp [hname])

theorem exists_rename {source : String} (h : (t.find? source).isSome) (target : String) :
    ∃ u, t.rename source target = .ok u := by
  obtain ⟨c, hc⟩ := Option.isSome_iff_exists.mp h
  have hcolumn : t.column source = .ok c := by
    rw [column, hc]
  exact ⟨_, by rw [rename, hcolumn]; rfl⟩

theorem merge_of_rows_ne {other : Table} (h : t.rows ≠ other.rows) (name newName : String) :
    t.merge other name newName = .error (.rowCountMismatch t.rows other.rows) := by
  rw [merge, dif_neg h]

end Table

/-- The compared columns are always selected and renamed, so all that can fail is that the two
sides are put together. -/
theorem exists_mergeMetric_eq_merge {s p : AlignedDataset} {m : Metric}
    (hs : (s.table m).Fits m) :
    ∃ values : Table, values.rows = (s.table m).rows ∧
      mergeMetric s p m = values.merge (p.table m) m.valueColumn m.parallelColumn := by
  obtain ⟨chosen, hchosen, hvalue⟩ := hs.exists_select
  obtain ⟨values, hvalues⟩ := Table.exists_rename hvalue m.sequentialColumn
  refine ⟨values, ?_, ?_⟩
  · calc values.rows = chosen.rows := Table.rows_rename hvalues
      _ = (s.table m).rows := Table.rows_select hchosen
  · simp only [mergeMetric, hchosen, hvalues, bind, Except.bind]

/-- Two datasets whose tables of a metric differ in size are not merged. -/
theorem mergeMetric_of_rows_ne {s p : AlignedDataset} {m : Metric} (hs : (s.table m).Fits m)
    (h : (s.table m).rows ≠ (p.table m).rows) :
    mergeMetric s p m = .error (.rowCountMismatch (s.table m).rows (p.table m).rows) := by
  obtain ⟨values, hrows, hmerge⟩ := exists_mergeMetric_eq_merge (p := p) hs
  rw [← hrows] at h ⊢
  rw [hmerge]
  exact Table.merge_of_rows_ne h _ _

end BenchLog
