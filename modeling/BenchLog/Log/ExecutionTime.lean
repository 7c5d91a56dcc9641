/-
# The log of execution times

A line such as `Execution Time: 2.5s` names a duration. The duration is the
text up to the next blank, and it has to be one.

Key definitions: `ExecutionTime.ofLine?`, `ExecutionTime.ofLog`.
-/
import BenchLog.Log.Duration
import BenchLog.Text.Lines
import BenchLog.Text.Scan

namespace BenchLog.ExecutionTime

/-- The text after the heading, up to the next blank. -/
def scan (cs : List Char) : Option (List Char) := do
  let rest ← Text.literal "Execution Time:" cs
  let (token, _) ← Text.run (fun c => !Text.isBlank c) (Text.trimStart rest)
  some token

/-- What a line says about an execution time: nothing, a malformed duration, or
its milliseconds. -/
def ofLine? (line : List Char) : Option (Except Error Float) :=
  (Text.search (fun _ => scan) none line).map Duration.milliseconds

/-- The execution times of a log in the order of its lines. The first malformed
duration makes the log unusable. -/
def ofLog (text : List Char) : Except Error (List Float) :=
  ((Text.lines text).filterMap ofLine?).mapM id

end BenchLog.ExecutionTime
