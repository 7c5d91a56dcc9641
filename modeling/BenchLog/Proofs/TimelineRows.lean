/-
# The rows of a timeline

A timeline is made in one pass over the events of a log, which keeps the evaluation that
is running and replaces it at every event. Seen from the whole list of events, it has one
row for each place at which an evaluation stands and another event follows: the row shows
the size of the evaluation's database and the seconds up to the event behind it, which are
less than zero if the clock went back. Nothing begins with a termination, and an
evaluation that no event follows has no row. That both are the same is an invariant of the
pass (`TimelineState.Tracks`).

Key definitions: `finishedRow?`, `finishedRows`, `TimelineState.Tracks`.
Key theorems: `finishedRows_append_singleton`, `tracks_foldl`,
`timelineRows_eq_finishedRows`, `readTimeline_of_readText`.
-/
import Mathlib.Data.List.Induction
import BenchLog.Proofs.AlignedLogs

namespace BenchLog

/-! ### Places of events -/

/-- The row of the evaluation at a place, if there is one and another event follows it. -/
def finishedRow? (events : List PreprocessingEvent) (i : ℕ) : Option TimelineRow :=
  match events[i]?, events[i + 1]? with
  | some (.evaluation time bits), some next => some ⟨bits, next.moment.secondsSince time⟩
  | _, _ => none

/-- The rows of all places but the last one, in order. -/
def finishedRows (events : List PreprocessingEvent) : List TimelineRow :=
  (List.range (events.length - 1)).filterMap (finishedRow? events)

variable {events : List PreprocessingEvent} {event next : PreprocessingEvent} {i : ℕ}

theorem finishedRow?_eq_map (hevent : events[i]? = some event) (hnext : events[i + 1]? = some next) :
    finishedRow? events i = event.evaluation?.map (·.row next.moment) := by
  rw [finishedRow?, hevent, hnext]
  cases event <;> rfl

theorem finishedRow?_succ (event : PreprocessingEvent) (events : List PreprocessingEvent) (i : ℕ) :
    finishedRow? (event :: events) (i + 1) = finishedRow? events i := rfl

/-- What stands behind two places does not matter to the row of the first one. -/
theorem finishedRow?_append (h : i + 1 < events.length) (later : List PreprocessingEvent) :
    finishedRow? (events ++ later) i = finishedRow? events i := by
  rw [finishedRow?, finishedRow?, List.getElem?_append_left (Nat.lt_of_succ_lt h),
    List.getElem?_append_left h]

theorem finishedRows_cons_cons (event next : PreprocessingEvent)
    (events : List PreprocessingEvent) :
    finishedRows (event :: next :: events) =
      (event.evaluation?.map (·.row next.moment)).toList ++ finishedRows (next :: events) := by
  have hlater : ((List.range events.length).map Nat.succ).filterMap
      (finishedRow? (event :: next :: events)) =
        (List.range events.length).filterMap (finishedRow? (next :: events)) := by
    rw [List.filterMap_map]
    exact List.filterMap_congr fun i _ => finishedRow?_succ event (next :: events) i
  have hlength : (event :: next :: events).length - 1 = events.length + 1 := rfl
  rw [finishedRows, hlength, List.range_succ_eq_map, List.filterMap_cons, hlater,
    finishedRow?_eq_map rfl rfl]
  cases event.evaluation?.map (·.row next.moment) <;> rfl

/-- Nothing begins with a termination. -/
theorem finishedRows_termination (time : Moment) (events : List PreprocessingEvent) :
    finishedRows (.termination time :: events) = finishedRows events := by
  cases events with
  | nil => rfl
  | cons next events => exact finishedRows_cons_cons (.termination time) next events

theorem finishedRows_evaluation (time : Moment) (bits : UInt64) (next : PreprocessingEvent)
    (events : List PreprocessingEvent) :
    finishedRows (.evaluation time bits :: next :: events) =
      ⟨bits, next.moment.secondsSince time⟩ :: finishedRows (next :: events) :=
  finishedRows_cons_cons (.evaluation time bits) next events

/-- One more event gives a row to the last one if that is an evaluation. -/
theorem finishedRows_append_singleton (events : List PreprocessingEvent)
    (next : PreprocessingEvent) :
    finishedRows (events ++ [next]) = finishedRows events ++
      ((events.getLast?.bind PreprocessingEvent.evaluation?).map (·.row next.moment)).toList := by
  rcases List.eq_nil_or_concat' events with rfl | ⟨front, last, rfl⟩
  · rfl
  · have hfront : (List.range front.length).filterMap (finishedRow? (front ++ [last] ++ [next])) =
        finishedRows (front ++ [last]) := by
      have hlength : (front ++ [last]).length - 1 = front.length := by simp
      rw [finishedRows, hlength]
      refine List.filterMap_congr fun i hi => finishedRow?_append ?_ [next]
      rw [List.length_append, List.length_singleton]
      exact Nat.succ_lt_succ (List.mem_range.mp hi)
    have hlast : finishedRow? (front ++ [last] ++ [next]) front.length =
        last.evaluation?.map (·.row next.moment) :=
      finishedRow?_eq_map (by simp) (by simp)
    have hlength : (front ++ [last] ++ [next]).length - 1 = front.length + 1 := by simp
    rw [finishedRows, hlength, List.range_succ, List.filterMap_append, hfront, List.getLast?_append,
      List.getLast?_singleton, Option.some_or, Option.bind_some, List.filterMap_cons, hlast]
    cases last.evaluation?.map (·.row next.moment) <;> rfl

/-! ### One pass -/

namespace TimelineState

variable {s : TimelineState}

/-- What is known of the pass behind some events: the last one is running if it is an
evaluation, and all in front of it have their rows. -/
structure Tracks (s : TimelineState) (events : List PreprocessingEvent) : Prop where
  running_eq : s.running = events.getLast?.bind PreprocessingEvent.evaluation?
  rows_eq : s.rows.toList = finishedRows events

theorem tracks_initial : initial.Tracks [] := ⟨rfl, rfl⟩

theorem Tracks.step (h : s.Tracks events) (next : PreprocessingEvent) :
    (s.step next).Tracks (events ++ [next]) where
  running_eq := by
    rw [List.getLast?_append, List.getLast?_singleton]
    rfl
  rows_eq := by
    rw [finishedRows_append_singleton, ← h.running_eq, ← h.rows_eq, TimelineState.step]
    cases s.running with
    | none => exact (List.append_nil _).symm
    | some e => exact Array.toList_push

theorem tracks_foldl (events : List PreprocessingEvent) :
    (events.foldl TimelineState.step initial).Tracks events := by
  induction events using List.reverseRecOn with
  | nil => exact tracks_initial
  | append_singleton events next ih =>
    rw [List.foldl_append]
    exact ih.step next

end TimelineState

/-- The pass finds the rows of all places. -/
theorem timelineRows_eq_finishedRows (text : List Char) :
    timelineRows text = finishedRows (preprocessingEvents text) := by
  rw [timelineRows_eq_foldl]
  exact (TimelineState.tracks_foldl _).rows_eq

/-! ### Tables of rows -/

/-- The columns of a timeline: the size of each database in units of 2^33 bits, and the
seconds of its evaluation. -/
def timelineColumns (rows : List TimelineRow) : List (String × Column) :=
  [("DB_Size_GiB", .ofFloats (rows.map fun r => Float.ofNat r.bits.toNat / Float.ofNat (2 ^ 33))),
   ("Processing_Time_s", .ofFloats (rows.map fun r => Float.ofInt r.seconds))]

/-- A timeline that has rows is a table. -/
theorem exists_timelineTable {text : List Char} (path : Path) (h : timelineRows text ≠ []) :
    ∃ t, timelineTable path text = .ok t ∧ t.columns = timelineColumns (timelineRows text) := by
  unfold timelineTable
  cases hrows : timelineRows text with
  | nil => exact absurd hrows h
  | cons r rows =>
    exact Table.exists_ofFloats (sizeColumn, (r :: rows).map TimelineRow.size)
      [(processingColumn, (r :: rows).map fun r => Float.ofInt r.seconds)] (by simp)

/-- A timeline without rows is an error. -/
theorem timelineTable_eq_error_iff {path : Path} {text : List Char} :
    timelineTable path text = .error (.emptyInput path) ↔ timelineRows text = [] := by
  constructor
  · intro herror
    by_contra hne
    obtain ⟨t, ht, -⟩ := exists_timelineTable path hne
    rw [herror] at ht
    cases ht
  · intro hnil
    rw [timelineTable, hnil]

/-! ### The timeline -/

/-- Where a log can be read, its timeline is made from the text. -/
theorem readTimeline_eq_timelineTable {files : FileTree} {p : Path} {text : List Char}
    (h : files.readText p = .ok text) : readTimeline files p = timelineTable p text := by
  rw [readTimeline_eq_bind, FileTree.logText_of_readText h]
  rfl

/-- **The timeline of a log has a row for each evaluation that another event follows, in
order, with the size of its database and the signed seconds up to that event; if there is
none, the log counts as empty.** Apart from leap seconds, the seconds between two moments are
the difference of their numbers. -/
theorem readTimeline_of_readText {files : FileTree} {p : Path} {text : List Char}
    (h : files.readText p = .ok text) :
    timelineRows text = finishedRows (preprocessingEvents text) ∧
    (readTimeline files p = .error (.emptyInput p) ↔
      finishedRows (preprocessingEvents text) = []) ∧
    (finishedRows (preprocessingEvents text) ≠ [] → ∃ t, readTimeline files p = .ok t ∧
      t.columns = timelineColumns (finishedRows (preprocessingEvents text))) ∧
    ∀ m other : Moment, m.second < 60 → other.second < 60 →
      m.secondsSince other = m.number - other.number := by
  rw [readTimeline_eq_timelineTable h, ← timelineRows_eq_finishedRows]
  exact ⟨rfl, timelineTable_eq_error_iff, exists_timelineTable p,
    fun m other => Moment.secondsSince_of_second_lt⟩

/-- The log of two runs; in the second one the clock goes back, and it has no end. -/
def rerunLog : List Char :=
  Text.written (["2024/12/08 10:00:00 Merkle preprocessing evaluation for dbLen 8589934592 bits",
    "2024/12/09 00:10:00 simulation terminated successfully.",
    "2024/12/09 10:00:00 Merkle preprocessing evaluation for dbLen 17179869184 bits",
    "2024/12/09 09:59:30 Merkle preprocessing evaluation for dbLen 25769803776 bits"].map
      String.toList)

theorem readTimeline_of_rerun :
    let files : FileTree := ⟨[], [(["p.log"], .file (.text rerunLog))]⟩
    files.readText ⟨"p.log"⟩ = .ok rerunLog ∧ ∃ t, readTimeline files ⟨"p.log"⟩ = .ok t ∧
      t.columns = timelineColumns [⟨8589934592, 51000⟩, ⟨17179869184, -30⟩] := by
  intro files
  have hread : files.readText ⟨"p.log"⟩ = .ok rerunLog := rfl
  have hrows : finishedRows (preprocessingEvents rerunLog) =
      [⟨8589934592, 51000⟩, ⟨17179869184, -30⟩] := by
    decide +kernel
  obtain ⟨-, -, htable, -⟩ := readTimeline_of_readText hread
  rw [hrows] at htable
  exact ⟨hread, htable (List.cons_ne_nil _ _)⟩

end BenchLog
