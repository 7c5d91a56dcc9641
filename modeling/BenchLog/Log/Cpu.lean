/-
# The log of the processor's usage

A marker opens a block; it may carry the first sample of the block, and lines
such as `%Cpu(s): 12.5 us` add further ones. A block stands for the largest of
its samples, and for nothing if it has none. Samples in front of the first
marker belong to no block.

Key definitions: `CpuLine`, `CpuLine.ofLine?`, `CpuBlock`, `CpuBlock.rows`,
`CpuBlock.ofLog`.
Key theorems: `CpuBlock.rows_marker`, `CpuBlock.rows_sample`.
-/
import BenchLog.Log.Marker
import BenchLog.Number.Extremum
import BenchLog.Text.Lines

namespace BenchLog

/-- A line of the log. -/
inductive CpuLine where
  /-- A marker, with the sample on its line if there is one. -/
  | marker (side : Side) (repetition : UInt32) (sample : Option Float)
  | sample (value : Float)

namespace CpuLine

/-- A sample as written at the front of the text. -/
def scanSample (cs : List Char) : Option (List Char) := do
  let rest ← Text.literal "Cpu(s):" cs
  let (value, rest) ← Text.decimal (Text.trimStart rest)
  let _ ← Text.literal "us" (Text.trimStart rest)
  some value

/-- The first sample of a line. -/
def sampleOfLine? (line : List Char) : Option Float :=
  (Text.search (fun _ => scanSample) none line).bind Number.float?

/-- The first marker of a line, as written. -/
def markerOfLine? (line : List Char) : Option Marker :=
  Text.search (fun before cs => (Marker.scan before cs).map (·.1)) none line

/-- What a line is. A line with a marker that cannot be converted is nothing. -/
def ofLine? (line : List Char) : Option CpuLine :=
  let sample := sampleOfLine? line
  match markerOfLine? line with
  | some m => do
    let side ← m.side?
    let repetition ← m.repetition?
    some (marker side repetition sample)
  | none => sample.map CpuLine.sample

end CpuLine

/-- A block of samples under a marker: the largest of them, if there are any. -/
structure CpuBlock where
  repetition : UInt32
  largest : Option Float

namespace CpuBlock

/-- The block with one more sample. -/
def add (b : CpuBlock) (x : Float) : CpuBlock :=
  { b with largest := some (b.largest.elim x (Number.larger · x)) }

/-- What a finished block stands for. -/
def row? (b : CpuBlock) : Option (UInt32 × Float) :=
  b.largest.map (b.repetition, ·)

/-- The rows of a list of lines, where `block` is the open block. -/
def rows (block : Option CpuBlock) : List (Option CpuLine) → List (UInt32 × Float)
  | [] => (block.bind row?).toList
  | none :: lines => rows block lines
  | some (.marker _ repetition sample) :: lines =>
    (block.bind row?).toList ++ rows (some ⟨repetition, sample⟩) lines
  | some (.sample x) :: lines => rows (block.map (·.add x)) lines

/-- The repetitions of a log with the largest sample of each, one row a block. -/
def ofLog (text : List Char) : List (UInt32 × Float) :=
  rows none ((Text.lines text).map CpuLine.ofLine?)

@[simp] theorem rows_marker (block : Option CpuBlock) (side : Side) (repetition : UInt32)
    (sample : Option Float) (lines : List (Option CpuLine)) :
    rows block (some (.marker side repetition sample) :: lines) =
      (block.bind row?).toList ++ rows (some ⟨repetition, sample⟩) lines := rfl

@[simp] theorem rows_sample (block : Option CpuBlock) (x : Float) (lines : List (Option CpuLine)) :
    rows block (some (.sample x) :: lines) = rows (block.map (·.add x)) lines := rfl

end CpuBlock
end BenchLog
