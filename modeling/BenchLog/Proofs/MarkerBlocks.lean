/-
# The lines of a processor's log in blocks

Each line of a log is a marker, a sample or nothing. The markers cut the lines into
what comes in front of the first of them and blocks, a marker with the lines below
it. The rows of the log are those of the blocks: the number of the marker with the
largest of the samples on its line and below it, and none if there are no samples.
The open block of the program is a marker with the samples so far,
so a stretch without markers adds its samples to it (`rows_append_of_no_marker`), and
the next marker and the end of the lines give its row (`rows_blocks`).

Key definitions: `MarkedBlock`, `MarkedBlock.row?`, `Blocks`.
Key theorems: `CpuBlock.rows_blocks`, `Blocks.exists_of_lines`, `ofLog_eq_blocks`.
-/
import BenchLog.Proofs.SampleSections

namespace BenchLog

/-! ### Blocks -/

/-- Whether a line is a marker. -/
def CpuLine.isMarker : Option CpuLine → Bool
  | some (.marker _ _ _) => true
  | _ => false

/-- The value of a line that is a sample. -/
def CpuLine.value? : Option CpuLine → Option Float
  | some (.sample x) => some x
  | _ => none

open CpuLine

/-- A marker and the lines below it, none of which is another marker. -/
structure MarkedBlock where
  side : Side
  repetition : UInt32
  /-- The sample on the line of the marker. -/
  own : Option Float
  below : List (Option CpuLine)
  noMarker : ∀ line ∈ below, isMarker line = false

namespace MarkedBlock

/-- The lines of a block, that of the marker first. -/
def lines (b : MarkedBlock) : List (Option CpuLine) :=
  some (.marker b.side b.repetition b.own) :: b.below

/-- The samples of a block, that of the marker first. -/
def samples (b : MarkedBlock) : List Float :=
  b.own.toList ++ b.below.filterMap value?

/-- The row of a block: the largest of its samples, if there are any. -/
def row? (b : MarkedBlock) : Option (UInt32 × Float) :=
  sampleRow? b.repetition b.samples

end MarkedBlock

/-- Lines as what comes in front of the first marker, and blocks. -/
structure Blocks (lines : List (Option CpuLine)) where
  leading : List (Option CpuLine)
  blocks : List MarkedBlock
  noMarker : ∀ line ∈ leading, isMarker line = false
  lines_eq : lines = leading ++ blocks.flatMap MarkedBlock.lines

/-- All lines are in blocks but those in front of the first marker. -/
theorem Blocks.exists_of_lines (lines : List (Option CpuLine)) : Nonempty (Blocks lines) := by
  induction lines with
  | nil => exact ⟨[], [], by simp, rfl⟩
  | cons line lines ih =>
    obtain ⟨leading, blocks, hleading, rfl⟩ := ih
    by_cases hmarker : isMarker line = true
    · -- The marker takes the lines that had none above them.
      unfold isMarker at hmarker
      split at hmarker
      · rename_i side repetition own
        exact ⟨[], ⟨side, repetition, own, leading, hleading⟩ :: blocks, by simp, rfl⟩
      · cases hmarker
    · have hline : isMarker line = false := by simpa using hmarker
      exact ⟨line :: leading, blocks, List.forall_mem_cons.mpr ⟨hline, hleading⟩, rfl⟩

/-! ### The rows of blocks -/

namespace CpuBlock

/-- A line that is no marker adds its sample, if it is one, to the open block. -/
theorem rows_cons_of_no_marker {line : Option CpuLine} (h : isMarker line = false)
    (block : Option CpuBlock) (rest : List (Option CpuLine)) :
    rows block (line :: rest) = rows (block.map ((value? line).toList.foldl add ·)) rest := by
  match line with
  | none => cases block <;> rfl
  | some (.sample x) => exact rows_sample block x rest
  | some (.marker _ _ _) => cases h

theorem rows_append_of_no_marker {front : List (Option CpuLine)}
    (h : ∀ line ∈ front, isMarker line = false) (rest : List (Option CpuLine)) :
    ∀ block : Option CpuBlock, rows block (front ++ rest) =
      rows (block.map ((front.filterMap value?).foldl add ·)) rest := by
  induction front with
  | nil =>
    intro block
    cases block <;> rfl
  | cons line front ih =>
    intro block
    obtain ⟨hline, hfront⟩ := List.forall_mem_cons.mp h
    rw [List.cons_append, rows_cons_of_no_marker hline, ih hfront, Option.map_map]
    congr 1
    cases block with
    | none => rfl
    | some b => cases hx : value? line <;> simp [hx]

/-- The row of a block to which samples have been added one by one. -/
theorem row?_foldl_add (samples : List Float) :
    ∀ b : CpuBlock, (samples.foldl add b).row? = b.rowWith? samples := by
  induction samples with
  | nil => exact fun b => b.rowWith?_nil.symm
  | cons x samples ih =>
    intro b
    rw [List.foldl_cons, ih, rowWith?_cons]

/-- The open block gives its row, and then each block does. -/
theorem rows_blocks (blocks : List MarkedBlock) :
    ∀ block : Option CpuBlock, rows block (blocks.flatMap MarkedBlock.lines) =
      (block.bind row?).toList ++ blocks.filterMap MarkedBlock.row? := by
  induction blocks with
  | nil => simp [rows]
  | cons b blocks ih =>
    intro block
    have hrow : ((b.below.filterMap value?).foldl add ⟨b.repetition, b.own⟩).row? = b.row? :=
      row?_foldl_add _ _
    calc rows block ((b :: blocks).flatMap MarkedBlock.lines)
        = (block.bind row?).toList ++
            rows (some ⟨b.repetition, b.own⟩) (b.below ++ blocks.flatMap MarkedBlock.lines) := by
          rw [List.flatMap_cons, MarkedBlock.lines, List.cons_append, rows_marker]
      _ = (block.bind row?).toList ++ (b.row?.toList ++ blocks.filterMap MarkedBlock.row?) := by
          rw [rows_append_of_no_marker b.noMarker, ih, Option.map_some, Option.bind_some, hrow]
      _ = (block.bind row?).toList ++ (b :: blocks).filterMap MarkedBlock.row? := by
          cases hb : b.row? <;> simp [hb]

end CpuBlock

theorem Blocks.rows_eq {lines : List (Option CpuLine)} (b : Blocks lines) :
    CpuBlock.rows none lines = b.blocks.filterMap MarkedBlock.row? := by
  obtain ⟨leading, blocks, hleading, rfl⟩ := b
  rw [CpuBlock.rows_append_of_no_marker hleading]
  exact CpuBlock.rows_blocks blocks none

/-- **The rows of a log are those of its blocks, in the order of their markers: the number of the
marker, and the largest of the samples on its line and below it up to the next marker or the
end. A block without samples has no row, and the samples in front of the first marker are in
none.** -/
theorem ofLog_eq_blocks (text : List Char) :
    Nonempty (Blocks ((Text.lines text).map ofLine?)) ∧
      ∀ b : Blocks ((Text.lines text).map ofLine?),
        CpuBlock.ofLog text = b.blocks.filterMap MarkedBlock.row? :=
  ⟨Blocks.exists_of_lines _, fun b => b.rows_eq⟩

end BenchLog
