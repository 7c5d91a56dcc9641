/-
# Stretches of evaluations

The events of a log are stretches of evaluations with terminations between them: whatever stands
in front of the first evaluation is idle, and so is everything from the first termination behind
a stretch up to the next one. A stretch has one row for each step from an evaluation to the next
mark, which is the evaluation or the termination behind it. The steps telescope, so what the rows
of a stretch show adds up to the time from its first mark to its last. Each row shows a whole
number that floats hold exactly, and no sum is rounded here.

Key definitions: `Stretch`, `Stretch.rows`, `Stretch.seconds`, `Splits`, `Table.ShowsWhole`.
Key theorems: `exists_splits`, `Splits.finishedRows_eq`, `Stretch.sum_rows`,
`readTimeline_of_stretches`.
-/
import BenchLog.Proofs.SummaryAgreement
import BenchLog.Proofs.TimelineRows
import BenchLog.Proofs.WholeFloats

namespace BenchLog

/-! ### Splitting events -/

/-- A maximal stretch of evaluations, and the terminations up to the next one. -/
structure Stretch where
  first : Moment × UInt64
  others : List (Moment × UInt64)
  terminations : List Moment
  deriving DecidableEq, Repr

namespace Stretch

variable (s : Stretch)

/-- The evaluations in order. There is at least one. -/
def evaluations : List (Moment × UInt64) := s.first :: s.others

/-- What the log tells of the stretch. -/
def events : List PreprocessingEvent :=
  s.evaluations.map (fun e => .evaluation e.1 e.2) ++ s.terminations.map .termination

/-- The time of the last evaluation. -/
def last : Moment := (s.others.getLast?.getD s.first).1

/-- The termination that ends the stretch. An open stretch lasts up to its last evaluation. -/
def close : Moment := s.terminations.head?.getD s.last

/-- The seconds from the first evaluation on. -/
def seconds : ℤ := s.close.number - s.first.1.number

/-- The times of the evaluations, and that of the termination if there is one. -/
def marks : List Moment := s.evaluations.map Prod.fst ++ s.terminations.take 1

/-- A row for each evaluation that another mark follows, up to this mark. -/
def rows : List TimelineRow :=
  List.zipWith (fun e next => ⟨e.2, next.secondsSince e.1⟩) s.evaluations s.marks.tail

end Stretch

/-- The idle terminations in front, then the stretches. Only the last one may be open. -/
structure Splits (events : List PreprocessingEvent) (idle : List Moment)
    (stretches : List Stretch) : Prop where
  events_eq : events = idle.map .termination ++ stretches.flatMap Stretch.events
  ended : ∀ s ∈ stretches.dropLast, s.terminations ≠ []

/-- Events can be split, whatever their order. -/
theorem exists_splits (events : List PreprocessingEvent) :
    ∃ idle stretches, Splits events idle stretches := by
  induction events with
  | nil => exact ⟨[], [], rfl, nofun⟩
  | cons event events ih =>
    obtain ⟨idle, stretches, hevents, hended⟩ := ih
    cases event with
    | termination time => exact ⟨time :: idle, stretches, congrArg _ hevents, hended⟩
    | evaluation time bits =>
      -- The evaluation belongs to the stretch behind it unless a termination stands between.
      rcases idle with _ | ⟨t, ts⟩
      · rcases stretches with _ | ⟨s, stretches⟩
        · exact ⟨[], [⟨(time, bits), [], []⟩], congrArg _ hevents, nofun⟩
        · refine ⟨[], ⟨(time, bits), s.evaluations, s.terminations⟩ :: stretches,
            congrArg _ hevents, ?_⟩
          cases stretches with
          | nil => exact nofun
          | cons s' stretches =>
            intro r hr
            rcases List.mem_cons.mp hr with rfl | hr
            · exact hended s List.mem_cons_self
            · exact hended r (List.mem_cons_of_mem s hr)
      · refine ⟨[], ⟨(time, bits), [], t :: ts⟩ :: stretches, congrArg _ hevents, ?_⟩
        cases stretches with
        | nil => exact nofun
        | cons s stretches =>
          intro r hr
          rcases List.mem_cons.mp hr with rfl | hr
          · exact List.cons_ne_nil t ts
          · exact hended r hr

/-! ### Rows of a stretch -/

theorem finishedRows_terminations (idle : List Moment) (events : List PreprocessingEvent) :
    finishedRows (idle.map .termination ++ events) = finishedRows events := by
  induction idle with
  | nil => rfl
  | cons time idle ih =>
    rw [List.map_cons, List.cons_append, finishedRows_termination, ih]

namespace Stretch

theorem rows_cons (first second : Moment × UInt64) (others : List (Moment × UInt64))
    (terminations : List Moment) :
    rows ⟨first, second :: others, terminations⟩ =
      ⟨first.2, second.1.secondsSince first.1⟩ :: rows ⟨second, others, terminations⟩ := rfl

theorem seconds_cons (first second : Moment × UInt64) (others : List (Moment × UInt64))
    (terminations : List Moment) :
    seconds ⟨first, second :: others, terminations⟩ =
      (second.1.number - first.1.number) + seconds ⟨second, others, terminations⟩ := by
  have hlast : last ⟨first, second :: others, terminations⟩ =
      last ⟨second, others, terminations⟩ := by
    rw [last, last, List.getLast?_cons, Option.getD_some]
  simp only [seconds, close, hlast]
  omega

/-- The rows of a stretch, with those of everything behind it. -/
theorem finishedRows_events_append {s : Stretch} {events : List PreprocessingEvent}
    (h : s.terminations = [] → events = []) :
    finishedRows (s.events ++ events) = s.rows ++ finishedRows events := by
  obtain ⟨first, others, terminations⟩ := s
  induction others generalizing first with
  | nil =>
    cases terminations with
    | nil =>
      rw [h rfl]
      rfl
    | cons time terminations =>
      show finishedRows (.evaluation first.1 first.2 ::
        ((time :: terminations).map .termination ++ events)) = _
      rw [List.map_cons, List.cons_append, finishedRows_evaluation, ← List.cons_append,
        ← List.map_cons, finishedRows_terminations]
      rfl
  | cons second others ih =>
    show finishedRows (.evaluation first.1 first.2 ::
      (Stretch.events ⟨second, others, terminations⟩ ++ _)) = _
    rw [rows_cons, List.cons_append, ← ih second h]
    exact finishedRows_evaluation first.1 first.2 (.evaluation second.1 second.2) _

/-- The rows telescope. -/
theorem sum_rows {s : Stretch} (h : ∀ m ∈ s.marks, m.second < 60) :
    (s.rows.map TimelineRow.seconds).sum = s.seconds := by
  obtain ⟨first, others, terminations⟩ := s
  induction others generalizing first with
  | nil =>
    cases terminations with
    | nil => exact (sub_self first.1.number).symm
    | cons time terminations =>
      have hfirst : first.1.second < 60 := h first.1 List.mem_cons_self
      have htime : time.second < 60 := h time (List.mem_cons_of_mem first.1 List.mem_cons_self)
      show (time.secondsSince first.1 + 0 : ℤ) = time.number - first.1.number
      rw [Moment.secondsSince_of_second_lt htime hfirst, add_zero]
  | cons second others ih =>
    have hfirst : first.1.second < 60 := h first.1 List.mem_cons_self
    have hsecond : second.1.second < 60 :=
      h second.1 (List.mem_cons_of_mem first.1 List.mem_cons_self)
    rw [rows_cons, List.map_cons, List.sum_cons, seconds_cons,
      ih second fun m hm => h m (List.mem_cons_of_mem first.1 hm),
      Moment.secondsSince_of_second_lt hsecond hfirst]

/-- Marks are moments of events. -/
theorem exists_mem_events {s : Stretch} {m : Moment} (h : m ∈ s.marks) :
    ∃ e ∈ s.events, e.moment = m := by
  rcases List.mem_append.mp h with h | h
  · obtain ⟨e, he, rfl⟩ := List.mem_map.mp h
    exact ⟨.evaluation e.1 e.2, List.mem_append_left _ (List.mem_map_of_mem he), rfl⟩
  · exact ⟨.termination m,
      List.mem_append_right _ (List.mem_map_of_mem (List.mem_of_mem_take h)), rfl⟩

end Stretch

namespace Splits

variable {events : List PreprocessingEvent} {idle : List Moment} {stretches : List Stretch}

/-- All rows are those of stretches: nothing idle has one. -/
theorem finishedRows_eq (h : Splits events idle stretches) :
    finishedRows events = stretches.flatMap Stretch.rows := by
  rw [h.events_eq, finishedRows_terminations]
  have hended := h.ended
  clear h
  induction stretches with
  | nil => rfl
  | cons s stretches ih =>
    have hopen : s.terminations = [] → stretches.flatMap Stretch.events = [] := by
      intro hnil
      cases stretches with
      | nil => rfl
      | cons s' stretches => exact absurd hnil (hended s List.mem_cons_self)
    rw [List.flatMap_cons, List.flatMap_cons, Stretch.finishedRows_events_append hopen, ih]
    intro r hr
    cases stretches with
    | nil => exact absurd hr List.not_mem_nil
    | cons s' stretches => exact hended r (List.mem_cons_of_mem s hr)

theorem sum_rows (h : Splits events idle stretches) (hsecond : ∀ e ∈ events, e.moment.second < 60)
    {s : Stretch} (hs : s ∈ stretches) : (s.rows.map TimelineRow.seconds).sum = s.seconds := by
  apply Stretch.sum_rows
  intro m hm
  obtain ⟨e, he, rfl⟩ := Stretch.exists_mem_events hm
  apply hsecond e
  rw [h.events_eq]
  exact List.mem_append_right _ (List.mem_flatMap.mpr ⟨s, hs, he⟩)

/-- What all rows show adds up to what the stretches last. -/
theorem sum_finishedRows (h : Splits events idle stretches)
    (hsecond : ∀ e ∈ events, e.moment.second < 60) :
    ((finishedRows events).map TimelineRow.seconds).sum =
      (stretches.map Stretch.seconds).sum := by
  rw [h.finishedRows_eq, List.map_flatMap, List.flatMap, List.sum_flatten, List.map_map]
  exact congrArg _ (List.map_congr_left fun s hs => h.sum_rows hsecond hs)

end Splits

/-! ### Exact floats -/

/-- The numbers of a column are these whole numbers, with nothing rounded. -/
def Table.ShowsWhole (t : Table) (name : String) (ns : List ℤ) : Prop :=
  ∃ values, t.numbers name = .ok values ∧
    values.map (fun x => (Number.Binary.ofFloat x).number?) = ns.map fun n : ℤ => some (n : ℚ)

theorem Date.daysInMonth_le (year : ℤ) (month : ℕ) : daysInMonth year month ≤ 31 := by
  unfold daysInMonth
  repeat' split
  all_goals omega

/-- Years of four digits have few days. -/
theorem Date.natAbs_dayNumber_lt {d : Date} (h : d.IsValid) (hyear : 0 ≤ d.year)
    (hyear' : d.year < 10000) : d.dayNumber.natAbs < 2 ^ 22 := by
  obtain ⟨hmonth, hmonth', hday, hday'⟩ := h
  have hmost := hday'.trans (daysInMonth_le d.year d.month)
  simp only [dayNumber, epoch]
  split <;> omega

/-- The moments of a log have few seconds up to them. -/
theorem Stamp.natAbs_number_lt {stamp : Stamp} {m : Moment} (h : stamp.moment? = some m) :
    m.number.natAbs < 2 ^ 40 := by
  simp only [Stamp.moment?, Option.bind_eq_bind, Option.bind_eq_some_iff] at h
  obtain ⟨year, hyear, month, -, day, -, hour, -, minute, -, second, -, hm⟩ := h
  obtain ⟨⟨-, -, hyear'⟩, hnat⟩ := Number.natBelow?_eq_some_iff.mp hyear
  by_cases hvalid : Moment.IsValid ⟨⟨year, month, day⟩, hour, minute, second⟩
  · rw [if_pos hvalid] at hm
    obtain rfl := Option.some.inj hm
    obtain ⟨hdate, hhour, hminute, hsecond⟩ := hvalid
    have hdays : (Date.dayNumber ⟨year, month, day⟩).natAbs < 2 ^ 22 :=
      Date.natAbs_dayNumber_lt hdate (Int.natCast_nonneg year) (by show (year : ℤ) < 10000; omega)
    simp only [Moment.number, Moment.tick] at hdays hhour hminute hsecond ⊢
    omega
  · rw [if_neg hvalid] at hm
    cases hm

theorem PreprocessingEvent.natAbs_number_lt {line : List Char} {e : PreprocessingEvent}
    (h : ofLine? line = some e) : e.moment.number.natAbs < 2 ^ 40 := by
  unfold ofLine? at h
  cases hevaluation : evaluationOfLine? line with
  | none =>
    rw [hevaluation] at h
    obtain ⟨m, hm, rfl⟩ := Option.map_eq_some_iff.mp h
    obtain ⟨stamp, -, hstamp⟩ := Option.bind_eq_some_iff.mp hm
    exact stamp.natAbs_number_lt hstamp
  | some found =>
    rw [hevaluation] at h
    obtain rfl := Option.some.inj h
    simp only [evaluationOfLine?, Option.bind_eq_bind, Option.bind_eq_some_iff] at hevaluation
    obtain ⟨⟨stamp, bits⟩, -, m, hm, bits', -, hfound⟩ := hevaluation
    obtain rfl := Option.some.inj hfound
    exact stamp.natAbs_number_lt hm

/-- Rows show the seconds between two events. -/
theorem exists_of_mem_finishedRows {events : List PreprocessingEvent} {r : TimelineRow}
    (hr : r ∈ finishedRows events) :
    ∃ e ∈ events, ∃ next ∈ events, r.seconds = next.moment.secondsSince e.moment := by
  obtain ⟨i, -, hi⟩ := List.mem_filterMap.mp hr
  unfold finishedRow? at hi
  split at hi
  · rename_i time bits next hevent hnext
    cases hi
    exact ⟨_, List.mem_of_getElem? hevent, next, List.mem_of_getElem? hnext, rfl⟩
  · cases hi

/-- What a row shows is a whole number that a float holds exactly. -/
theorem natAbs_seconds_lt {text : List Char} {r : TimelineRow}
    (hsecond : ∀ e ∈ preprocessingEvents text, e.moment.second < 60)
    (h : r ∈ timelineRows text) : r.seconds.natAbs < 2 ^ 53 := by
  rw [timelineRows_eq_finishedRows] at h
  obtain ⟨e, he, next, hnext, hseconds⟩ := exists_of_mem_finishedRows h
  obtain ⟨line, -, hline⟩ := List.mem_filterMap.mp he
  obtain ⟨line', -, hline'⟩ := List.mem_filterMap.mp hnext
  have hlt := PreprocessingEvent.natAbs_number_lt hline
  have hlt' := PreprocessingEvent.natAbs_number_lt hline'
  rw [hseconds, Moment.secondsSince_of_second_lt (hsecond next hnext) (hsecond e he)]
  omega

/-- **The rows of a timeline add up to what the stretches of evaluations last.** However the
timestamps are ordered, the events of a log are split into stretches. Each row belongs to a
stretch, so what is idle between a termination and the next evaluation is in no row; the rows of
a stretch go from each mark to the next one, and add up to the seconds between its first
evaluation and the termination that ends it, or its last evaluation if it is open. The column of
processing times holds these numbers exactly. -/
theorem readTimeline_of_stretches {files : FileTree} {p : Path} {text : List Char}
    (hread : files.readText p = .ok text)
    (hsecond : ∀ e ∈ preprocessingEvents text, e.moment.second < 60) :
    (∃ idle stretches, Splits (preprocessingEvents text) idle stretches) ∧
    ∀ {idle : List Moment} {stretches : List Stretch},
      Splits (preprocessingEvents text) idle stretches →
        timelineRows text = stretches.flatMap Stretch.rows ∧
        (∀ s ∈ stretches, (s.rows.map TimelineRow.seconds).sum = s.seconds) ∧
        (stretches.flatMap Stretch.rows = [] → readTimeline files p = .error (.emptyInput p) ∧
          (stretches.map Stretch.seconds).sum = 0) ∧
        (stretches.flatMap Stretch.rows ≠ [] → ∃ t seconds, readTimeline files p = .ok t ∧
          t.ShowsWhole processingColumn seconds ∧
          seconds.sum = (stretches.map Stretch.seconds).sum) := by
  refine ⟨exists_splits _, fun {idle stretches} h => ?_⟩
  have hrows := h.finishedRows_eq
  have hsum := h.sum_finishedRows hsecond
  rw [← timelineRows_eq_finishedRows] at hrows hsum
  rw [readTimeline_eq_timelineTable hread]
  refine ⟨hrows, fun s hs => h.sum_rows hsecond hs, ?_, ?_⟩
  · intro hnil
    rw [← hrows] at hnil
    rw [hnil] at hsum
    exact ⟨timelineTable_eq_error_iff.mpr hnil, hsum.symm⟩
  · intro hne
    rw [← hrows] at hne
    obtain ⟨t, ht, hcolumns⟩ := exists_timelineTable p hne
    refine ⟨t, (timelineRows text).map TimelineRow.seconds, ht,
      ⟨(timelineRows text).map fun r => Float.ofInt r.seconds,
        Table.numbers_of_floats ?_, ?_⟩, hsum⟩
    · rw [Table.find?, hcolumns]
      rfl
    · rw [List.map_map, List.map_map]
      apply List.map_congr_left
      intro r hr
      exact Number.number?_ofInt (natAbs_seconds_lt hsecond hr)

/-- The log of two stretches: one that two terminations follow, the first of them before the
last evaluation, and an open one. -/
def idleLog : List Char :=
  Text.written (["2024/12/08 09:00:00 simulation terminated successfully.",
    "2024/12/08 10:00:00 Merkle preprocessing evaluation for dbLen 8589934592 bits",
    "2024/12/08 10:20:00 Merkle preprocessing evaluation for dbLen 17179869184 bits",
    "2024/12/08 10:10:00 simulation terminated successfully.",
    "2024/12/08 11:00:00 simulation terminated successfully.",
    "2024/12/08 23:59:30 Merkle preprocessing evaluation for dbLen 8589934592 bits",
    "2024/12/09 00:00:30 Merkle preprocessing evaluation for dbLen 17179869184 bits"].map
      String.toList)

/-- The stretches of `idleLog`. -/
def idleStretches : List Stretch :=
  [⟨(⟨⟨2024, 12, 8⟩, 10, 0, 0⟩, 8589934592), [(⟨⟨2024, 12, 8⟩, 10, 20, 0⟩, 17179869184)],
      [⟨⟨2024, 12, 8⟩, 10, 10, 0⟩, ⟨⟨2024, 12, 8⟩, 11, 0, 0⟩]⟩,
    ⟨(⟨⟨2024, 12, 8⟩, 23, 59, 30⟩, 8589934592), [(⟨⟨2024, 12, 9⟩, 0, 0, 30⟩, 17179869184)], []⟩]

theorem readTimeline_of_idleLog :
    let files : FileTree := ⟨[], [(["p.log"], .file (.text idleLog))]⟩
    files.readText ⟨"p.log"⟩ = .ok idleLog ∧
      (∀ e ∈ preprocessingEvents idleLog, e.moment.second < 60) ∧
      Splits (preprocessingEvents idleLog) [⟨⟨2024, 12, 8⟩, 9, 0, 0⟩] idleStretches ∧
      ∃ t seconds, readTimeline files ⟨"p.log"⟩ = .ok t ∧
        t.ShowsWhole processingColumn seconds ∧ seconds.sum = 660 := by
  intro files
  have hread : files.readText ⟨"p.log"⟩ = .ok idleLog := rfl
  have hsplits :
      Splits (preprocessingEvents idleLog) [⟨⟨2024, 12, 8⟩, 9, 0, 0⟩] idleStretches :=
    ⟨by decide +kernel, by decide⟩
  have hsecond : ∀ e ∈ preprocessingEvents idleLog, e.moment.second < 60 := by
    rw [hsplits.events_eq]
    decide
  obtain ⟨-, -, -, htable⟩ := (readTimeline_of_stretches hread hsecond).2 hsplits
  have hne : idleStretches.flatMap Stretch.rows ≠ [] := by decide
  have hsum : (idleStretches.map Stretch.seconds).sum = 660 := by decide
  rw [hsum] at htable
  exact ⟨hread, hsecond, hsplits, htable hne⟩

end BenchLog
