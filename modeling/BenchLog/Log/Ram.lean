/-
# The log of memory usage

A marker followed by `RAM Usage: 7450 MB` is a record. Only the first place of
a line that has this form is looked at.

Key definitions: `Record`, `RamReading`, `Record.ofLine?`, `Record.ofLog`.
Key theorems: `Record.line_of_ofLine?`, `Record.mem_ofLog_iff`.
-/
import BenchLog.Log.Marker
import BenchLog.Text.Lines

namespace BenchLog

/-- A measurement at one side of a repetition. -/
structure Record where
  side : Side
  repetition : UInt32
  /-- The measured value, in megabytes. -/
  value : Float
  /-- The index of the line, counted from zero. -/
  line : Nat

/-- A record as written. -/
structure RamReading where
  marker : Marker
  value : List Char
  deriving DecidableEq, Repr

/-- A record at the front of the text. -/
def RamReading.scan (before : Option Char) (cs : List Char) : Option RamReading := do
  let (marker, rest) ← Marker.scan before cs
  let rest ← Text.literalFold "RAM Usage:" (Text.trimStart rest)
  let (value, rest) ← Text.decimal (Text.trimStart rest)
  let _ ← Text.literalFold "MB" (Text.trimStart rest)
  some ⟨marker, value⟩

/-- What a record as written stands for. -/
def RamReading.record? (r : RamReading) (line : Nat) : Option Record := do
  let side ← r.marker.side?
  let repetition ← r.marker.repetition?
  let value ← Number.float? r.value
  some ⟨side, repetition, value, line⟩

namespace Record

/-- The record of a line. -/
def ofLine? (line : List Char) (index : Nat) : Option Record :=
  (Text.search RamReading.scan none line).bind (·.record? index)

/-- The records of numbered lines. -/
def ofNumberedLines (lines : List (List Char × Nat)) : List Record :=
  lines.filterMap fun l => ofLine? l.1 l.2

/-- The records of a log in the order of their lines. -/
def ofLog (text : List Char) : List Record :=
  ofNumberedLines (Text.lines text).zipIdx

/-- A record keeps the index of its line. -/
theorem line_of_ofLine? {line : List Char} {index : Nat} {r : Record}
    (h : ofLine? line index = some r) : r.line = index := by
  obtain ⟨reading, _, h⟩ := Option.bind_eq_some_iff.1 h
  simp only [RamReading.record?, Option.bind_eq_bind, Option.bind_eq_some_iff] at h
  obtain ⟨_, _, _, _, _, _, h⟩ := h
  rw [← Option.some.inj h]

/-- The records of a log are the records of its lines. -/
theorem mem_ofLog_iff {text : List Char} {r : Record} :
    r ∈ ofLog text ↔ ∃ l i, (Text.lines text)[i]? = some l ∧ ofLine? l i = some r := by
  simp only [ofLog, ofNumberedLines, List.mem_filterMap, Prod.exists]
  constructor
  · rintro ⟨l, i, hm, h⟩
    exact ⟨l, i, by simpa using List.mem_zipIdx_iff_getElem?.1 hm, h⟩
  · rintro ⟨l, i, hm, h⟩
    exact ⟨l, i, List.mem_zipIdx_iff_getElem?.2 (by simpa using hm), h⟩

end Record
end BenchLog
