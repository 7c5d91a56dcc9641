/-
# The log of preprocessing

A timestamp stands in front of the two kinds of event: an evaluation for a
database of some length begins, or the simulation ends. Events count only if
the date exists and the numbers can be read.

Key definitions: `Stamp`, `PreprocessingEvent`, `evaluationOfLine?`,
`terminationOfLine?`, `PreprocessingEvent.ofLine?`.
-/
import BenchLog.Calendar.Moment
import BenchLog.Number.Reading
import BenchLog.Text.Scan

namespace BenchLog

/-- The digits of a timestamp as written. -/
structure Stamp where
  year : List Char
  month : List Char
  day : List Char
  hour : List Char
  minute : List Char
  second : List Char
  deriving DecidableEq, Repr

namespace Stamp

/-- A timestamp at the front of the text, `2024/12/08 19:50:08`, and the rest. -/
def scan (cs : List Char) : Option (Stamp × List Char) := do
  let (year, rest) ← Text.fixedDigits 4 cs
  let (month, rest) ← Text.fixedDigits 2 (← Text.literal "/" rest)
  let (day, rest) ← Text.fixedDigits 2 (← Text.literal "/" rest)
  let (hour, rest) ← Text.fixedDigits 2 (← Text.literal " " rest)
  let (minute, rest) ← Text.fixedDigits 2 (← Text.literal ":" rest)
  let (second, rest) ← Text.fixedDigits 2 (← Text.literal ":" rest)
  some (⟨year, month, day, hour, minute, second⟩, rest)

/-- The moment of a timestamp, if there is one. -/
def moment? (s : Stamp) : Option Moment := do
  let number := Number.natBelow? 10000
  let m : Moment :=
    { date := ⟨← number s.year, ← number s.month, ← number s.day⟩
      hour := ← number s.hour
      minute := ← number s.minute
      second := ← number s.second }
  if m.IsValid then some m else none

end Stamp

/-- An event of the log. -/
inductive PreprocessingEvent where
  /-- The evaluation for a database of so many bits begins. -/
  | evaluation (time : Moment) (bits : UInt64)
  | termination (time : Moment)
  deriving DecidableEq, Repr

namespace PreprocessingEvent

/-- The time of an event. -/
def moment : PreprocessingEvent → Moment
  | evaluation m _ => m
  | termination m => m

/-- A begin of an evaluation at the front of the text. -/
def scanEvaluation (cs : List Char) : Option (Stamp × List Char) := do
  let (stamp, rest) ← Stamp.scan cs
  let rest ← Text.literal " Merkle preprocessing evaluation for dbLen " rest
  let (bits, rest) ← Text.digits rest
  let _ ← Text.literal " bits" rest
  some (stamp, bits)

/-- An end of the simulation at the front of the text. -/
def scanTermination (cs : List Char) : Option Stamp := do
  let (stamp, rest) ← Stamp.scan cs
  let _ ← Text.literal " simulation terminated successfully" rest
  some stamp

/-- The time of an evaluation and the length of its database, if the line names them. -/
def evaluationOfLine? (line : List Char) : Option (Moment × UInt64) := do
  let (stamp, bits) ← Text.search (fun _ => scanEvaluation) none line
  some (← stamp.moment?, ← Number.longWord? bits)

/-- The time at which the simulation ended, if the line names it. -/
def terminationOfLine? (line : List Char) : Option Moment := do
  let stamp ← Text.search (fun _ => scanTermination) none line
  stamp.moment?

/-- The event of a line. -/
def ofLine? (line : List Char) : Option PreprocessingEvent :=
  match evaluationOfLine? line with
  | some (m, bits) => some (evaluation m bits)
  | none => (terminationOfLine? line).map termination

end PreprocessingEvent
end BenchLog
