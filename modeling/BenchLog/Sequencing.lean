/-
# Coupling rows by repetition

The rows of the processor's usage have no sides. A row is coupled with the
nearest later row of its repetition that is still free, and both are given out
one after the other, in the order of the first rows of the couples. A row that
finds no partner is dropped.

Each repetition has a queue of its rows. The queues are filled first; then the
rows are visited in order, and a row that is not consumed yet stands at the
front of its queue, with its partner behind it.

Key definitions: `CoupleState`, `CoupleState.visit`, `coupleRows`,
`coupleTexts`.
-/
import Std.Data.HashMap
import BenchLog.Error
import BenchLog.Number.Reading

namespace BenchLog

/-- The rows of each repetition that are still free: index and value. -/
abbrev RowQueues := Std.HashMap UInt32 (List (Nat × Float))

/-- How far coupling has come. -/
structure CoupleState where
  queues : RowQueues
  /-- Whether the row of an index is coupled or dropped. -/
  consumed : Array Bool
  /-- The rows given out, the latest one first. -/
  output : List (UInt32 × Float)

namespace CoupleState

/-- The queues of all rows; the rows come from the last to the first. -/
def fill (rows : List (UInt32 × Float)) : RowQueues :=
  rows.zipIdx.foldr
    (fun ((id, x), i) queues => queues.insert id ((i, x) :: queues.getD id []))
    ∅

/-- Before the first visit. -/
def initial (rows : List (UInt32 × Float)) : CoupleState where
  queues := fill rows
  consumed := Array.replicate rows.length false
  output := []

/-- Visiting one row. -/
def visit (s : CoupleState) (row : (UInt32 × Float) × Nat) : CoupleState :=
  let ((id, x), i) := row
  if s.consumed.getD i false then
    s
  else
    match s.queues.getD id [] with
    | [] => s
    | [_] =>
      { s with
        queues := s.queues.insert id []
        consumed := s.consumed.setIfInBounds i true }
    | _ :: (j, y) :: queue =>
      { queues := s.queues.insert id queue
        consumed := (s.consumed.setIfInBounds i true).setIfInBounds j true
        output := (id, y) :: (id, x) :: s.output }

end CoupleState

/-- The coupled rows, partners next to each other. -/
def coupleRows (rows : List (UInt32 × Float)) : List (UInt32 × Float) :=
  (rows.zipIdx.foldl CoupleState.visit (.initial rows)).output.reverse

/-- The value of a row given as text; blanks around it do not matter. -/
def usageOfText (id : UInt32) (text : List Char) : Except Error (UInt32 × Float) :=
  let text := Text.trim text
  match Number.float? text with
  | some x => .ok (id, x)
  | none => .error (.malformedUsage text id)

/-- The coupled rows of values given as texts, if all of them are numbers. -/
def coupleTexts (rows : List (UInt32 × List Char)) : Except Error (List (UInt32 × Float)) := do
  let values ← rows.mapM fun (id, text) => usageOfText id text
  .ok (coupleRows values)

end BenchLog
