/-
# The timeline of preprocessing

One pass over a log keeps the evaluation that is running. The next event of the
log ends it, whichever it is, and gives it a row; then an evaluation that begins
is the running one, and behind a termination none is. What is still running at
the end of the log is left out.

Key definitions: `TimelineRow`, `TimelineState`, `TimelineState.step`,
`timelineRows`, `timelineTable`.
Key theorems: `foldl_readLine`, `timelineRows_eq_foldl`.
-/
import BenchLog.Log.Preprocessing
import BenchLog.Table.Basic
import BenchLog.Text.Lines

namespace BenchLog

/-- How long the evaluation for a database of so many bits took. -/
structure TimelineRow where
  bits : UInt64
  seconds : Int
  deriving DecidableEq, Repr

/-- An evaluation that has begun, for a database of so many bits. -/
structure Evaluation where
  time : Moment
  bits : UInt64
  deriving DecidableEq, Repr

/-- The row of an evaluation that is over. -/
def Evaluation.row (e : Evaluation) (stop : Moment) : TimelineRow :=
  ⟨e.bits, stop.secondsSince e.time⟩

/-- The evaluation that an event begins. A termination begins none. -/
def PreprocessingEvent.evaluation? : PreprocessingEvent → Option Evaluation
  | evaluation time bits => some ⟨time, bits⟩
  | termination _ => none

/-- What is known on the way through a log: the evaluation that is running, if
one is, and the rows of those that are over. -/
structure TimelineState where
  running : Option Evaluation
  rows : Array TimelineRow

namespace TimelineState

def initial : TimelineState := ⟨none, #[]⟩

/-- An event ends the running evaluation, and takes its place. -/
def step (s : TimelineState) (event : PreprocessingEvent) : TimelineState where
  running := event.evaluation?
  rows :=
    match s.running with
    | some e => s.rows.push (e.row event.moment)
    | none => s.rows

/-- A line without an event is passed over. -/
def readLine (s : TimelineState) (line : List Char) : TimelineState :=
  match PreprocessingEvent.ofLine? line with
  | some event => s.step event
  | none => s

end TimelineState

/-- The rows of a log. -/
def timelineRows (text : List Char) : List TimelineRow :=
  ((Text.lines text).foldl TimelineState.readLine .initial).rows.toList

/-- The size of a database in units of eight times two to the thirtieth bits. -/
def TimelineRow.size (r : TimelineRow) : Float :=
  Float.ofNat r.bits.toNat / Float.ofNat (Nat.pow 2 33)

/-- The column of database sizes. -/
def sizeColumn : String := "DB_Size_GiB"

/-- The column of processing times. -/
def processingColumn : String := "Processing_Time_s"

/-- The timeline of a log's text as a table; `path` names the log. -/
def timelineTable (path : Path) (text : List Char) : Except Error Table :=
  match timelineRows text with
  | [] => .error (.emptyInput path)
  | rows =>
    Table.ofFloats
      [(sizeColumn, rows.map TimelineRow.size),
       (processingColumn, rows.map fun r => Float.ofInt r.seconds)]

/-! ### Events -/

/-- The events of a log in order. -/
def preprocessingEvents (text : List Char) : List PreprocessingEvent :=
  (Text.lines text).filterMap PreprocessingEvent.ofLine?

/-- The pass over the lines goes from event to event. -/
theorem foldl_readLine (lines : List (List Char)) (s : TimelineState) :
    lines.foldl TimelineState.readLine s =
      (lines.filterMap PreprocessingEvent.ofLine?).foldl TimelineState.step s := by
  induction lines generalizing s with
  | nil => rfl
  | cons line lines ih =>
    rw [List.foldl_cons, ih, TimelineState.readLine]
    cases h : PreprocessingEvent.ofLine? line with
    | none => rw [List.filterMap_cons_none h]
    | some event => rw [List.filterMap_cons_some h, List.foldl_cons]

theorem timelineRows_eq_foldl (text : List Char) : timelineRows text =
    ((preprocessingEvents text).foldl TimelineState.step .initial).rows.toList := by
  rw [timelineRows, preprocessingEvents, foldl_readLine]

end BenchLog
