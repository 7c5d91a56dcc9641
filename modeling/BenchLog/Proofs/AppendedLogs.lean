/-
# Appended logs

A log that is run again is appended to. If nothing of the first run is left open,
the second one is aligned as if it stood for itself: the tables are the tables of
the two runs, one below the other, and the counters are added up, whatever
repetitions the two runs have in common.

Each log carries something over the seam, and each has its own condition. The
first run has to end its last line, so that lines stay lines. A start that waits
would be ended by the second run (`Pairing.ofRecords_append`); an open block
would take in samples that come before the first marker of the second run
(`CpuBlock.Anchored`); and an odd row would be coupled with a row of the second
run (`coupleGreedily_append`).

Key definitions: `CpuBlock.Anchored`, `DatasetLogs.Closed`, `DatasetPlace`,
`AlignedDataset.Stacks`.
Key theorems: `Pairing.ofLog_append`, `CpuBlock.ofLog_append`,
`coupleGreedily_append`, `ExecutionTime.ofLog_append`,
`DatasetPlace.align_append`.
-/
import Mathlib.Algebra.Group.Even
import BenchLog.Proofs.AlignedLogs

namespace BenchLog

/-- Behind an ended line, a text has its own lines. -/
theorem Text.lines_append_of_ended {as : List Char} (h : as.getLast? = some '\n')
    (bs : List Char) : lines (as ++ bs) = lines as ++ lines bs := by
  obtain ⟨front, rfl⟩ := List.getLast?_eq_some_iff.mp h
  rw [List.append_assoc, List.singleton_append, lines_append]

/-! ### Memory usage -/

/-- Later lines make later records. -/
theorem Record.ofNumberedLines_zipIdx (lines : List (List Char)) (n : ℕ) :
    ofNumberedLines (lines.zipIdx n) =
      (ofNumberedLines lines.zipIdx).map (·.renumber (n + ·)) := by
  have hshift : ∀ l : List Char × ℕ,
      ofLine? l.1 (n + l.2) = (ofLine? l.1 l.2).map (·.renumber (n + ·)) := by
    intro l
    rw [ofLine?_eq_map l.1 (n + l.2), ofLine?_eq_map l.1 l.2, Option.map_map]
    rfl
  rw [ofNumberedLines, ofNumberedLines, List.map_filterMap, List.zipIdx_eq_map_add,
    List.filterMap_map]
  exact List.filterMap_congr fun l _ => hshift l

theorem Record.ofLog_append {as : List Char} (h : as.getLast? = some '\n') (bs : List Char) :
    ofLog (as ++ bs) =
      ofLog as ++ (ofLog bs).map (·.renumber ((Text.lines as).length + ·)) := by
  rw [ofLog, Text.lines_append_of_ended h, List.zipIdx_append, ofLog, ofLog,
    ← ofNumberedLines_zipIdx, Nat.zero_add, ofNumberedLines, ofNumberedLines, ofNumberedLines,
    List.filterMap_append]

/-- If no start of the first log waits, the pairs of the two logs are listed one
behind the other. -/
theorem Pairing.ofLog_append {as : List Char} (h : as.getLast? = some '\n')
    (hopen : (ofRecords (Record.ofLog as)).unmatchedStarts = 0) (bs : List Char) :
    (ofRecords (Record.ofLog (as ++ bs))).pairs.map (·.row) =
        (ofRecords (Record.ofLog as)).pairs.map (·.row) ++
          (ofRecords (Record.ofLog bs)).pairs.map (·.row) ∧
      (ofRecords (Record.ofLog (as ++ bs))).droppedEnds =
        (ofRecords (Record.ofLog as)).droppedEnds + (ofRecords (Record.ofLog bs)).droppedEnds ∧
      (ofRecords (Record.ofLog (as ++ bs))).unmatchedStarts =
        (ofRecords (Record.ofLog bs)).unmatchedStarts := by
  -- The records of the second log move to later lines, which changes no pair of them.
  have hlater : ∀ x ∈ Record.ofLog as,
      ∀ y ∈ (Record.ofLog bs).map (·.renumber ((Text.lines as).length + ·)), x.line < y.line := by
    intro x hx y hy
    obtain ⟨z, -, rfl⟩ := List.mem_map.mp hy
    have hx' : x.line < 0 + (Text.lines as).length := (Record.le_line_of_mem hx).2
    have hz : (z.renumber ((Text.lines as).length + ·)).line =
        (Text.lines as).length + z.line := rfl
    omega
  have hshift : ofRecords ((Record.ofLog bs).map (·.renumber ((Text.lines as).length + ·))) =
      (ofRecords (Record.ofLog bs)).renumber ((Text.lines as).length + ·) :=
    ofRecords_renumber fun i _ j _ hij => Nat.add_lt_add_left hij _
  obtain ⟨hpairs, hdropped, hunmatched⟩ := ofRecords_append hopen hlater
  rw [← Record.ofLog_append h, hshift] at hpairs hdropped hunmatched
  refine ⟨?_, hdropped, hunmatched⟩
  rw [hpairs, List.map_append, map_row_renumber]

/-- An aligned log of memory usage goes on with another one. -/
theorem alignRam_append {p q path : Path} {as bs : List Char} (h : as.getLast? = some '\n')
    (hopen : (Pairing.ofRecords (Record.ofLog as)).unmatchedStarts = 0)
    {first second : Pairing × Table} (hfirst : alignRam p as = .ok first)
    (hsecond : alignRam q bs = .ok second) :
    ∃ r, alignRam path (as ++ bs) = .ok r ∧
      (∃ rows more, first.2.columns = ramColumns rows ∧ second.2.columns = ramColumns more ∧
        r.2.columns = ramColumns (rows ++ more)) ∧
      r.1.pairs.length = first.1.pairs.length + second.1.pairs.length ∧
      r.1.droppedEnds = first.1.droppedEnds + second.1.droppedEnds ∧
      r.1.unmatchedStarts = first.1.unmatchedStarts + second.1.unmatchedStarts := by
  obtain ⟨hne, t, ht, rfl⟩ := alignRam_eq_ok_iff.mp hfirst
  obtain ⟨-, u, hu, rfl⟩ := alignRam_eq_ok_iff.mp hsecond
  obtain ⟨hrows, hdropped, hunmatched⟩ := Pairing.ofLog_append h hopen bs
  have hlength : (Pairing.ofRecords (Record.ofLog (as ++ bs))).pairs.length =
      (Pairing.ofRecords (Record.ofLog as)).pairs.length +
        (Pairing.ofRecords (Record.ofLog bs)).pairs.length := by
    have hrowsLength := congrArg List.length hrows
    rwa [List.length_map, List.length_append, List.length_map, List.length_map] at hrowsLength
  have hsome : (Pairing.ofRecords (Record.ofLog (as ++ bs))).pairs ≠ [] := by
    rw [← List.length_pos_iff] at hne ⊢
    omega
  obtain ⟨v, hv⟩ := exists_ramTable
    ((Pairing.ofRecords (Record.ofLog (as ++ bs))).pairs.map (·.row))
  refine ⟨_, alignRam_eq_ok_iff.mpr ⟨hsome, v, hv, rfl⟩, ⟨_, _, ht, hu, ?_⟩, hlength, hdropped, ?_⟩
  · exact hv.trans (congrArg ramColumns hrows)
  · rw [hunmatched, hopen, Nat.zero_add]

/-! ### The processor's usage -/

/-- No sample of a log comes before its first marker. -/
def CpuBlock.Anchored (text : List Char) : Prop :=
  ∀ front l back x, Text.lines text = front ++ l :: back → CpuLine.ofLine? l = some (.sample x) →
    ∃ k ∈ front, ∃ side repetition sample,
      CpuLine.ofLine? k = some (.marker side repetition sample)

namespace CpuBlock

/-- The first line of an anchored log that says something is a marker. -/
theorem Anchored.head? {text : List Char} (h : Anchored text) (x : Float) :
    (Text.readings CpuLine.ofLine? text).head? ≠ some (.sample x) := by
  intro hhead
  obtain ⟨readings, hreadings⟩ := List.head?_eq_some_iff.mp hhead
  obtain ⟨front, l, back, hlines, hfront, hl, -⟩ := List.filterMap_eq_cons_iff.mp hreadings
  obtain ⟨k, hk, side, repetition, sample, hmarker⟩ := h front l back x hlines hl
  rw [hfront k hk] at hmarker
  cases hmarker

/-- The first marker of the second log closes the open block of the first. -/
theorem rows_append (block : Option CpuBlock) (xs : List (Option CpuLine)) {ys : List CpuLine}
    (h : ∀ x, ys.head? ≠ some (.sample x)) :
    rows block (xs ++ ys.map some) = rows block xs ++ rows none (ys.map some) := by
  fun_induction rows block xs with
  | case1 block =>
    -- The end of the log closes the open block as a marker does.
    cases ys with
    | nil => simp [rows]
    | cons y ys =>
      cases y with
      | marker side repetition sample => rfl
      | sample x => exact absurd rfl (h x)
  | case2 block lines ih => exact ih
  | case3 block side repetition sample lines ih =>
    rw [List.cons_append, rows_marker, ih, List.append_assoc]
  | case4 block x lines ih => exact ih

theorem ofLog_append {as bs : List Char} (h : as.getLast? = some '\n') (hbs : Anchored bs) :
    ofLog (as ++ bs) = ofLog as ++ ofLog bs := by
  have hreadings : Text.readings CpuLine.ofLine? (as ++ bs) =
      Text.readings CpuLine.ofLine? as ++ Text.readings CpuLine.ofLine? bs := by
    rw [Text.readings, Text.lines_append_of_ended h, List.filterMap_append]
    rfl
  rw [ofLog_eq_rows, hreadings, List.map_append, rows_append none _ hbs.head?, ofLog_eq_rows,
    ofLog_eq_rows]

end CpuBlock

theorem takeFirst_append {p : α → Bool} {as rest : List α} {b : α}
    (h : takeFirst p as = some (b, rest)) (bs : List α) :
    takeFirst p (as ++ bs) = some (b, rest ++ bs) := by
  obtain ⟨front, back, rfl, rfl, hb, hfront⟩ := takeFirst_eq_some_iff.mp h
  exact takeFirst_eq_some_iff.mpr
    ⟨front, back ++ bs, by rw [List.append_assoc, List.cons_append],
      by rw [List.append_assoc], hb, hfront⟩

/-- If each repetition has an even number of rows, none is coupled with a later row. -/
theorem coupleGreedily_append (rows more : List (UInt32 × Float))
    (h : ∀ r, Even (rows.countP (·.1 == r))) :
    coupleGreedily (rows ++ more) = coupleGreedily rows ++ coupleGreedily more := by
  fun_induction coupleGreedily rows with
  | case1 => rfl
  | case2 row rows partner rest htake ih =>
    obtain ⟨front, back, rfl, rfl, hpartner, -⟩ := takeFirst_eq_some_iff.mp htake
    have hid : partner.1 = row.1 := beq_iff_eq.mp hpartner
    have hrest : ∀ r, Even ((front ++ back).countP (·.1 == r)) := by
      intro r
      have hall := h r
      simp only [List.countP_cons, List.countP_append, hid, Nat.even_iff] at hall ⊢
      split at hall <;> omega
    rw [List.cons_append, coupleGreedily_of_partner (takeFirst_append htake more), ih hrest]
    rfl
  | case3 row rows htake ih =>
    -- A row without a partner is the only one of its repetition that is left.
    have hnone : rows.countP (·.1 == row.1) = 0 :=
      List.countP_eq_zero.mpr fun x hx => by simpa using takeFirst_eq_none_iff.mp htake x hx
    have hodd := h row.1
    rw [List.countP_cons, hnone] at hodd
    simp at hodd

/-- An aligned log of the processor's usage goes on with another one. -/
theorem alignCpu_append {p q path : Path} {as bs : List Char} (h : as.getLast? = some '\n')
    (heven : ∀ r, Even ((CpuBlock.ofLog as).countP (·.1 == r))) (hbs : CpuBlock.Anchored bs)
    {first second : ℕ × List (UInt32 × Float) × Table} (hfirst : alignCpu p as = .ok first)
    (hsecond : alignCpu q bs = .ok second) :
    ∃ r, alignCpu path (as ++ bs) = .ok r ∧
      (∃ rows more, first.2.2.columns = cpuColumns rows ∧ second.2.2.columns = cpuColumns more ∧
        r.2.2.columns = cpuColumns (rows ++ more)) ∧
      r.1 = first.1 + second.1 ∧ r.2.1.length = first.2.1.length + second.2.1.length := by
  obtain ⟨hne, t, ht, rfl⟩ := alignCpu_eq_ok_iff.mp hfirst
  obtain ⟨-, u, hu, rfl⟩ := alignCpu_eq_ok_iff.mp hsecond
  have hblocks : CpuBlock.ofLog (as ++ bs) = CpuBlock.ofLog as ++ CpuBlock.ofLog bs :=
    CpuBlock.ofLog_append h hbs
  have hrows : coupleRows (CpuBlock.ofLog (as ++ bs)) =
      coupleRows (CpuBlock.ofLog as) ++ coupleRows (CpuBlock.ofLog bs) := by
    simp only [coupleRows_eq_coupleGreedily, hblocks]
    exact coupleGreedily_append _ _ heven
  have hsome : coupleRows (CpuBlock.ofLog (as ++ bs)) ≠ [] := by
    rw [hrows]
    exact fun hnil => hne (List.append_eq_nil_iff.mp hnil).1
  obtain ⟨v, hv⟩ := exists_cpuTable (coupleRows (CpuBlock.ofLog (as ++ bs)))
  refine ⟨_, alignCpu_eq_ok_iff.mpr ⟨hsome, v, hv, rfl⟩, ⟨_, _, ht, hu, ?_⟩, ?_, ?_⟩
  · exact hv.trans (congrArg cpuColumns hrows)
  · rw [hblocks, List.length_append]
  · rw [hrows, List.length_append]

/-! ### Execution times -/

theorem ExecutionTime.ofLog_append {as bs : List Char} (h : as.getLast? = some '\n')
    {times more : List Float} (has : ofLog as = .ok times) (hbs : ofLog bs = .ok more) :
    ofLog (as ++ bs) = .ok (times ++ more) := by
  rw [ofLog] at has hbs
  rw [ofLog, Text.lines_append_of_ended h, List.filterMap_append, List.mapM_append, has, hbs]
  rfl

/-- An aligned log of execution times goes on with another one. -/
theorem alignTime_append {p q path : Path} {as bs : List Char} (h : as.getLast? = some '\n')
    {first second : List Float × Table} (hfirst : alignTime p as = .ok first)
    (hsecond : alignTime q bs = .ok second) :
    ∃ r, alignTime path (as ++ bs) = .ok r ∧
      (∃ times more, first.2.columns = timeColumns times ∧ second.2.columns = timeColumns more ∧
        r.2.columns = timeColumns (times ++ more)) ∧
      r.1.length = first.1.length + second.1.length := by
  obtain ⟨times, htimes, hne, t, ht, rfl⟩ := alignTime_eq_ok_iff.mp hfirst
  obtain ⟨more, hmore, -, u, hu, rfl⟩ := alignTime_eq_ok_iff.mp hsecond
  have hall : ExecutionTime.ofLog (as ++ bs) = .ok (times ++ more) :=
    ExecutionTime.ofLog_append h htimes hmore
  have hsome : times ++ more ≠ [] := fun hnil => hne (List.append_eq_nil_iff.mp hnil).1
  obtain ⟨v, hv⟩ := exists_timeTable (times ++ more)
  exact ⟨_, alignTime_eq_ok_iff.mpr ⟨_, hall, hsome, v, hv, rfl⟩, ⟨_, _, ht, hu, hv⟩,
    List.length_append⟩

/-! ### A dataset -/

instance : Append DatasetLogs where
  append a b := ⟨a.ram ++ b.ram, a.cpu ++ b.cpu, a.time ++ b.time⟩

/-- Nothing in the logs is left open. -/
structure DatasetLogs.Closed (logs : DatasetLogs) : Prop where
  ram_ended : logs.ram.getLast? = some '\n'
  cpu_ended : logs.cpu.getLast? = some '\n'
  time_ended : logs.time.getLast? = some '\n'
  no_open_start : (Pairing.ofRecords (Record.ofLog logs.ram)).unmatchedStarts = 0
  even_rows : ∀ r, Even ((CpuBlock.ofLog logs.cpu).countP (·.1 == r))

/-- Where a dataset stands, and what its summary calls the folder. -/
structure DatasetPlace where
  files : FileTree
  layout : DatasetLayout
  dir : Path
  source : String

namespace DatasetPlace

/-- The dataset of a place. -/
def align (p : DatasetPlace) : Except Error AlignedDataset :=
  alignDataset p.files p.layout p.dir p.source

/-- The logs stand at a place. -/
def Holds (p : DatasetPlace) (logs : DatasetLogs) : Prop :=
  logs.StandIn p.files p.layout p.dir

end DatasetPlace

/-- The dataset `d` is the dataset `first` with the dataset `second` below it: its
tables are theirs, one below the other, with the execution times counted through,
and its counters are their sums. -/
structure AlignedDataset.Stacks (first second d : AlignedDataset) : Prop where
  ram : ∃ rows more, first.ram.columns = ramColumns rows ∧ second.ram.columns = ramColumns more ∧
    d.ram.columns = ramColumns (rows ++ more)
  cpu : ∃ rows more, first.cpu.columns = cpuColumns rows ∧ second.cpu.columns = cpuColumns more ∧
    d.cpu.columns = cpuColumns (rows ++ more)
  time : ∃ times more, first.time.columns = timeColumns times ∧
    second.time.columns = timeColumns more ∧ d.time.columns = timeColumns (times ++ more)
  ramPairs : d.summary.ramPairs = first.summary.ramPairs + second.summary.ramPairs
  ramDroppedEnds :
    d.summary.ramDroppedEnds = first.summary.ramDroppedEnds + second.summary.ramDroppedEnds
  ramUnmatchedStarts : d.summary.ramUnmatchedStarts =
    first.summary.ramUnmatchedStarts + second.summary.ramUnmatchedStarts
  cpuBlocks : d.summary.cpuBlocks = first.summary.cpuBlocks + second.summary.cpuBlocks
  cpuRows : d.summary.cpuRows = first.summary.cpuRows + second.summary.cpuRows
  executionTimes :
    d.summary.executionTimes = first.summary.executionTimes + second.summary.executionTimes

/-- **Appended logs are aligned one after the other.** If two datasets are aligned,
nothing in the logs of the first one is left open and no sample of the second one
comes before its first marker, then the first logs with the second ones appended
are aligned too, to the tables of the one above those of the other, and the
counters are added up. The two may have repetitions in common. -/
theorem DatasetPlace.align_append {a b : DatasetLogs} {p q place : DatasetPlace} (ha : p.Holds a)
    (hb : q.Holds b) (hab : place.Holds (a ++ b)) {first second : AlignedDataset}
    (hfirst : p.align = .ok first) (hsecond : q.align = .ok second) (hclosed : a.Closed)
    (hanchored : CpuBlock.Anchored b.cpu) :
    ∃ d, place.align = .ok d ∧ first.Stacks second d := by
  obtain ⟨ram₁, cpu₁, time₁, hram₁, hcpu₁, htime₁, rfl⟩ := ha.alignDataset_eq_ok_iff.mp hfirst
  obtain ⟨ram₂, cpu₂, time₂, hram₂, hcpu₂, htime₂, rfl⟩ := hb.alignDataset_eq_ok_iff.mp hsecond
  obtain ⟨ram, hram, hramColumns, hpairs, hdropped, hunmatched⟩ :=
    alignRam_append hclosed.ram_ended hclosed.no_open_start hram₁ hram₂
  obtain ⟨cpu, hcpu, hcpuColumns, hblocks, hrows⟩ :=
    alignCpu_append hclosed.cpu_ended hclosed.even_rows hanchored hcpu₁ hcpu₂
  obtain ⟨time, htime, htimeColumns, htimes⟩ := alignTime_append hclosed.time_ended htime₁ htime₂
  refine ⟨_, hab.alignDataset_eq_ok_iff.mpr ⟨ram, cpu, time, hram, hcpu, htime, rfl⟩, ?_⟩
  -- The three summaries show the counters of their logs.
  obtain ⟨_, hs₁⟩ :=
    AlignedDataset.exists_summary_ofLogs p.layout.name p.source ram₁ cpu₁ time₁
  obtain ⟨_, hs₂⟩ :=
    AlignedDataset.exists_summary_ofLogs q.layout.name q.source ram₂ cpu₂ time₂
  obtain ⟨_, hs⟩ :=
    AlignedDataset.exists_summary_ofLogs place.layout.name place.source ram cpu time
  exact {
    ram := hramColumns
    cpu := hcpuColumns
    time := htimeColumns
    ramPairs := by rw [hs₁, hs₂, hs]; exact hpairs
    ramDroppedEnds := by rw [hs₁, hs₂, hs]; exact hdropped
    ramUnmatchedStarts := by rw [hs₁, hs₂, hs]; exact hunmatched
    cpuBlocks := by rw [hs₁, hs₂, hs]; exact hblocks
    cpuRows := by rw [hs₁, hs₂, hs]; exact hrows
    executionTimes := by rw [hs₁, hs₂, hs]; exact htimes }

/-! ### Complete logs -/

theorem Text.getLast?_written {ls : List (List Char)} (h : ls ≠ []) :
    (written ls).getLast? = some '\n' := by
  obtain ⟨front, l, rfl⟩ := (List.eq_nil_or_concat' ls).resolve_left h
  rw [written, List.flatMap_append, List.flatMap_singleton, ← List.append_assoc,
    List.getLast?_concat]

theorem TakeTurns.even_length {sides : List Side} (h : TakeTurns sides) : Even sides.length := by
  induction h with
  | nil => exact .zero
  | span _ ih => simpa [Nat.even_add_one] using ih

namespace CompleteLogs

/-- Complete logs leave nothing open. -/
theorem closed_texts (logs : CompleteLogs) : logs.texts.Closed where
  ram_ended := Text.getLast?_written (by simpa using logs.ram_ne_nil)
  cpu_ended := Text.getLast?_written (by
    obtain ⟨e, events, he⟩ := List.exists_cons_of_ne_nil logs.cpu_ne_nil
    rw [he, List.flatMap_cons, CpuEvent.lines]
    exact List.cons_ne_nil _ _)
  time_ended := Text.getLast?_written (by simpa using logs.durations_ne_nil)
  no_open_start := by
    have hrecords := Record.ofLog_of_events (RamEvent.lines_written logs.ram)
    rw [texts, hrecords]
    exact (RamEvent.ofRecords_of_events logs.ram_alternates).2.2
  even_rows r := by
    have hblocks := CpuBlock.ofLog_of_events (CpuEvent.lines_written logs.cpu)
    have heven := (logs.cpu_alternates r).even_length
    rw [List.length_map, ofNumber, ← List.countP_eq_length_filter] at heven
    rw [texts, hblocks, List.countP_map]
    exact heven

/-- In complete logs, no sample comes before a marker. -/
theorem anchored_texts (logs : CompleteLogs) : CpuBlock.Anchored logs.texts.cpu := by
  obtain ⟨e, events, he⟩ := List.exists_cons_of_ne_nil logs.cpu_ne_nil
  intro front l back x hlines hl
  rw [texts, CpuEvent.lines_written, he, List.flatMap_cons, CpuEvent.lines,
    List.cons_append] at hlines
  cases front with
  | nil =>
    obtain ⟨rfl, -⟩ := List.cons.inj hlines
    rw [e.ofLine?_opening] at hl
    cases hl
  | cons k front =>
    obtain ⟨rfl, -⟩ := List.cons.inj hlines
    exact ⟨e.opening, List.mem_cons_self, _, _, _, e.ofLine?_opening⟩

end CompleteLogs

/-- The same repetition run again, appended to the logs of its first run. -/
theorem DatasetPlace.align_rerun :
    ∃ (logs : CompleteLogs) (p place : DatasetPlace) (first d : AlignedDataset),
      p.Holds logs.texts ∧ place.Holds (logs.texts ++ logs.texts) ∧ p.align = .ok first ∧
      place.align = .ok d ∧ first.Stacks first d := by
  let logs : CompleteLogs := .single
  let place (texts : DatasetLogs) : DatasetPlace := ⟨texts.tree [], .named "d", ⟨""⟩, "logs"⟩
  have hplace (texts : DatasetLogs) : (place texts).Holds texts := texts.standIn_tree []
  obtain ⟨first, hfirst⟩ := CompleteLogs.exists_alignDataset (hplace logs.texts) "logs"
  obtain ⟨d, hd, hstacks⟩ := DatasetPlace.align_append (hplace logs.texts) (hplace logs.texts)
    (hplace (logs.texts ++ logs.texts)) hfirst hfirst logs.closed_texts logs.anchored_texts
  exact ⟨logs, _, _, first, d, hplace _, hplace _, hfirst, hd, hstacks⟩

end BenchLog
