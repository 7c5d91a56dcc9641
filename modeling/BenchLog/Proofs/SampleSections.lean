/-
# The sections of a processor's log

A marker line is a line with a marker on it, and its section reaches from it to
the next marker line. A row is to be about one section: it has the number of the
marker and the largest of the samples on the marker's line and below it
(`sectionRows`). The program goes by fewer lines. A marker whose number needs more
than thirty-two bits, or has digits outside ASCII, or whose first word has a long s,
cannot be converted; its line is passed over as noise is, and the block above stays
open and takes the samples of the section (`ofLog_ne_sectionRows`). Where no sample
strays in this way, the rows are those of the sections (`ofLog_eq_sectionRows`).

Key definitions: `CpuLine.isMarkerLine`, `CpuLine.openedRepetition?`, `rowsUpTo`,
`sectionRows`, `StrayFree`.
Key theorems: `ofLog_eq_rowsUpTo`, `ofLog_eq_sectionRows`.
-/
import BenchLog.Log.Cpu
import BenchLog.Proofs.Lexemes

namespace BenchLog

/-! ### Marker lines -/

namespace CpuLine

/-- Whether a marker stands on the line. -/
def isMarkerLine (line : List Char) : Bool :=
  (markerOfLine? line).isSome

/-- The repetition that the marker of a line names, if the marker can be converted. -/
def openedRepetition? (line : List Char) : Option UInt32 :=
  (markerOfLine? line).bind fun m => m.side?.bind fun _ => m.repetition?

/-- Whether the line opens a block. -/
def opensBlock (line : List Char) : Bool :=
  (openedRepetition? line).isSome

/-- The sample of a line without a marker. -/
def bareSample? (line : List Char) : Option Float :=
  if isMarkerLine line then none else sampleOfLine? line

theorem isMarkerLine_of_opensBlock {line : List Char} (h : opensBlock line = true) :
    isMarkerLine line = true := by
  cases hm : markerOfLine? line with
  | none => simp [opensBlock, openedRepetition?, hm] at h
  | some m => simp [isMarkerLine, hm]

/-- A line whose marker can be converted is a marker with the sample of the line. -/
theorem ofLine?_of_opened {line : List Char} {repetition : UInt32}
    (h : openedRepetition? line = some repetition) :
    ∃ side, ofLine? line = some (.marker side repetition (sampleOfLine? line)) := by
  obtain ⟨m, hm, h⟩ := Option.bind_eq_some_iff.mp h
  obtain ⟨side, hside, hrepetition⟩ := Option.bind_eq_some_iff.mp h
  exact ⟨side, by simp [ofLine?, hm, hside, hrepetition]⟩

/-- Any other line is its bare sample, if it has one. -/
theorem ofLine?_of_not_opened {line : List Char} (h : openedRepetition? line = none) :
    ofLine? line = (bareSample? line).map .sample := by
  cases hm : markerOfLine? line with
  | none => simp [ofLine?, bareSample?, isMarkerLine, hm]
  | some m =>
    have hnone : ∀ side, m.side? = some side → m.repetition? = none := by
      intro side hside
      simpa [openedRepetition?, hm, hside] using h
    cases hside : m.side? with
    | none => simp [ofLine?, bareSample?, isMarkerLine, hm, hside]
    | some side => simp [ofLine?, bareSample?, isMarkerLine, hm, hside, hnone side hside]

end CpuLine

open CpuLine

/-! ### Rows of sections -/

/-- The row of a repetition with the given samples: the largest of them, if there are any. -/
def sampleRow? (repetition : UInt32) : List Float → Option (UInt32 × Float)
  | [] => none
  | x :: xs => some (repetition, xs.foldl Number.larger x)

/-- The bare samples in front of the first line that ends a section. -/
def samplesUpTo (ends : List Char → Bool) (lines : List (List Char)) : List Float :=
  (lines.takeWhile (!ends ·)).filterMap bareSample?

/-- A row for each line whose marker can be converted: the samples on the line and below it,
up to the next line that ends a section. -/
def rowsUpTo (ends : List Char → Bool) : List (List Char) → List (UInt32 × Float)
  | [] => []
  | line :: lines =>
    ((openedRepetition? line).bind fun repetition =>
        sampleRow? repetition ((sampleOfLine? line).toList ++ samplesUpTo ends lines)).toList ++
      rowsUpTo ends lines

/-- The rows of a log in which each marker line ends the section in front of it. -/
def sectionRows (text : List Char) : List (UInt32 × Float) :=
  rowsUpTo isMarkerLine (Text.lines text)

theorem samplesUpTo_cons (ends : List Char → Bool) (line : List Char) (lines : List (List Char)) :
    samplesUpTo ends (line :: lines) =
      if ends line then [] else (bareSample? line).toList ++ samplesUpTo ends lines := by
  rw [samplesUpTo, List.takeWhile_cons]
  cases hends : ends line with
  | true => rfl
  | false =>
    rw [Bool.not_false, if_pos rfl, List.filterMap_cons]
    cases bareSample? line <;> rfl

/-! ### Blocks as rows -/

namespace CpuBlock

/-- The row of a block when the samples have been added to it. -/
def rowWith? (b : CpuBlock) (samples : List Float) : Option (UInt32 × Float) :=
  sampleRow? b.repetition (b.largest.toList ++ samples)

theorem rowWith?_nil (b : CpuBlock) : b.rowWith? [] = b.row? := by
  obtain ⟨repetition, largest⟩ := b
  cases largest <;> rfl

theorem rowWith?_cons (b : CpuBlock) (x : Float) (samples : List Float) :
    b.rowWith? (x :: samples) = (b.add x).rowWith? samples := by
  obtain ⟨repetition, largest⟩ := b
  cases largest <;> rfl

/-- The open block takes the samples up to the next line that opens one. -/
theorem rows_eq_rowsUpTo (lines : List (List Char)) : ∀ block : Option CpuBlock,
    rows block (lines.map ofLine?) =
      (block.bind (·.rowWith? (samplesUpTo opensBlock lines))).toList ++
        rowsUpTo opensBlock lines := by
  induction lines with
  | nil =>
    intro block
    cases block with
    | none => rfl
    | some b => simp [rows, rowsUpTo, samplesUpTo, rowWith?_nil]
  | cons line lines ih =>
    intro block
    rw [List.map_cons, samplesUpTo_cons, rowsUpTo, opensBlock]
    cases hopened : openedRepetition? line with
    | some repetition =>
      obtain ⟨side, hline⟩ := ofLine?_of_opened hopened
      rw [hline, rows_marker, ih, Option.isSome_some, if_pos rfl]
      simp only [rowWith?_nil]
      rfl
    | none =>
      rw [ofLine?_of_not_opened hopened, Option.bind_none, Option.toList_none, List.nil_append,
        Option.isSome_none, if_neg Bool.false_ne_true]
      cases bareSample? line with
      | none => exact ih block
      | some x =>
        rw [Option.map_some, rows_sample, ih]
        cases block with
        | none => rfl
        | some b =>
          rw [Option.map_some, Option.bind_some, Option.bind_some, Option.toList_some,
            List.singleton_append, rowWith?_cons]

/-- The rows of any log: a section ends at the next line that opens a block. -/
theorem ofLog_eq_rowsUpTo (text : List Char) :
    ofLog text = rowsUpTo opensBlock (Text.lines text) := by
  rw [ofLog, rows_eq_rowsUpTo, Option.bind_none]
  rfl

end CpuBlock

/-! ### Markers that cannot be converted -/

/-- Whether a sample below the lines would stray into a block that is not its own: a block is
open, but the nearest marker line is not the one that opened it. -/
def strays (above : List (List Char)) : Bool :=
  above.any opensBlock && !(above.reverse.find? isMarkerLine).all opensBlock

/-- No bare sample of the log strays. -/
def StrayFree (text : List Char) : Prop :=
  ∀ i, ∀ h : i < (Text.lines text).length, (bareSample? (Text.lines text)[i]).isSome →
    strays ((Text.lines text).take i) = false

instance : DecidablePred StrayFree := fun _ => Nat.decidableBallLT _ _

theorem StrayFree.strays_eq_false {text : List Char} (h : StrayFree text)
    {above below : List (List Char)} {line : List Char}
    (hlines : Text.lines text = above ++ line :: below) (hline : (bareSample? line).isSome) :
    strays above = false := by
  have hlt : above.length < (Text.lines text).length := by simp [hlines]
  have hget : (Text.lines text)[above.length] = line := by simp [hlines]
  have htake : (Text.lines text).take above.length = above := by simp [hlines]
  have hfree := h above.length hlt (by rw [hget]; exact hline)
  rwa [htake] at hfree

/-- In a log without strays, no marker line stands between a line that opens a block and a
sample of that block. -/
theorem StrayFree.not_isMarkerLine {text : List Char} (h : StrayFree text)
    {above between below : List (List Char)} {opening line : List Char}
    (hlines : Text.lines text = above ++ opening :: (between ++ line :: below))
    (hopening : opensBlock opening) (hline : (bareSample? line).isSome)
    (hbetween : ∀ k ∈ between, opensBlock k = false) :
    ∀ k ∈ between, isMarkerLine k = false := by
  intro k hk
  by_contra hmarker
  rw [Bool.not_eq_false] at hmarker
  -- The nearest marker line is one of those in between, and none of them opens a block.
  have hsome : (between.reverse.find? isMarkerLine).isSome :=
    List.find?_isSome.mpr ⟨k, List.mem_reverse.mpr hk, hmarker⟩
  obtain ⟨mark, hmark⟩ := Option.isSome_iff_exists.mp hsome
  have hfound : (above ++ opening :: between).reverse.find? isMarkerLine = some mark := by
    rw [List.reverse_append, List.reverse_cons, List.append_assoc, List.find?_append, hmark]
    rfl
  have hclosed : opensBlock mark = false :=
    hbetween mark (List.mem_reverse.mp (List.mem_of_find?_eq_some hmark))
  have hstrays : strays (above ++ opening :: between) = true := by
    rw [strays, hfound, Option.all_some, hclosed, List.any_append, List.any_cons, hopening]
    simp
  have hsplit : Text.lines text = (above ++ opening :: between) ++ line :: below := by
    rw [hlines, List.append_assoc, List.cons_append]
  rw [h.strays_eq_false hsplit hline] at hstrays
  cases hstrays

theorem exists_of_mem_takeWhile {p : List Char → Bool} {l : List Char} :
    ∀ {lines : List (List Char)}, l ∈ lines.takeWhile p →
      ∃ front back, lines = front ++ l :: back ∧ ∀ k ∈ front, p k
  | line :: lines, h => by
    rw [List.takeWhile_cons] at h
    split at h
    next hp =>
      rcases List.mem_cons.mp h with rfl | h
      · exact ⟨[], lines, rfl, nofun⟩
      · obtain ⟨front, back, rfl, hfront⟩ := exists_of_mem_takeWhile h
        exact ⟨line :: front, back, rfl, List.forall_mem_cons.mpr ⟨hp, hfront⟩⟩
    next => cases h

/-- The samples below a line are the same up to either kind of line, if no marker line stands in
front of a sample that the wider reach takes in. -/
theorem samplesUpTo_opensBlock : ∀ {lines : List (List Char)},
    (∀ between line below, lines = between ++ line :: below → (bareSample? line).isSome →
      (∀ k ∈ between, opensBlock k = false) → ∀ k ∈ between, isMarkerLine k = false) →
    samplesUpTo opensBlock lines = samplesUpTo isMarkerLine lines
  | [], _ => rfl
  | line :: lines, h => by
    rw [samplesUpTo_cons, samplesUpTo_cons]
    cases hopened : opensBlock line with
    | true => rw [if_pos rfl, if_pos (isMarkerLine_of_opensBlock hopened)]
    | false =>
      rw [if_neg Bool.false_ne_true]
      cases hmarker : isMarkerLine line with
      | false =>
        have hrest : samplesUpTo opensBlock lines = samplesUpTo isMarkerLine lines :=
          samplesUpTo_opensBlock fun between l below hlines hl hbetween k hk =>
            h (line :: between) l below (by rw [hlines, List.cons_append]) hl
              (List.forall_mem_cons.mpr ⟨hopened, hbetween⟩) k (List.mem_cons_of_mem _ hk)
        rw [if_neg Bool.false_ne_true, hrest]
      | true =>
        -- No sample comes before the next line that opens a block.
        have hempty : samplesUpTo opensBlock lines = [] := by
          refine List.filterMap_eq_nil_iff.mpr fun l hl => ?_
          by_contra hsample
          obtain ⟨front, back, rfl, hfront⟩ := exists_of_mem_takeWhile hl
          have hclosed : ∀ k ∈ line :: front, opensBlock k = false :=
            List.forall_mem_cons.mpr ⟨hopened, fun k hk => by simpa using hfront k hk⟩
          have hfalse := h (line :: front) l back rfl (Option.isSome_iff_ne_none.mpr hsample)
            hclosed line List.mem_cons_self
          rw [hmarker] at hfalse
          cases hfalse
        rw [if_pos rfl, hempty, bareSample?, if_pos hmarker]
        rfl

theorem StrayFree.rowsUpTo_opensBlock {text : List Char} (h : StrayFree text) :
    ∀ {above lines : List (List Char)}, Text.lines text = above ++ lines →
      rowsUpTo opensBlock lines = rowsUpTo isMarkerLine lines
  | _, [], _ => rfl
  | above, line :: lines, hlines => by
    have hbelow : Text.lines text = (above ++ [line]) ++ lines := by
      rw [hlines, List.append_cons]
    have hrest : rowsUpTo opensBlock lines = rowsUpTo isMarkerLine lines :=
      h.rowsUpTo_opensBlock hbelow
    rw [rowsUpTo, rowsUpTo, hrest]
    cases hopened : openedRepetition? line with
    | none => rfl
    | some repetition =>
      have hopens : opensBlock line = true := by rw [opensBlock, hopened]; rfl
      have hsamples : samplesUpTo opensBlock lines = samplesUpTo isMarkerLine lines := by
        refine samplesUpTo_opensBlock fun between l below hl hsample hbetween => ?_
        rw [hl] at hlines
        exact h.not_isMarkerLine hlines hopens hsample hbetween
      rw [hsamples]

/-- **In a log without strays each row is about one section: the number of the marker and the
largest sample on its line and below it, up to the next marker line. A marker that cannot be
converted has no row, and no row has the samples below it.** -/
theorem ofLog_eq_sectionRows {text : List Char} (h : StrayFree text) :
    CpuBlock.ofLog text = sectionRows text := by
  rw [CpuBlock.ofLog_eq_rowsUpTo, sectionRows]
  exact h.rowsUpTo_opensBlock (List.nil_append _).symm

/-- A log in which one marker has too large a number; the sample on its line belongs to no row,
and the next marker follows it at once. -/
def wideNumberLog : List Char :=
  Text.written (["Start of repetition 1: Goroutines: %Cpu(s): 1.5 us", "%Cpu(s): 2.0 us",
    "End of repetition 4294967296: %Cpu(s): 9.0 us", "End of repetition 1:",
    "%Cpu(s): 0.5 us"].map String.toList)

theorem ofLog_eq_sectionRows_of_wide_number :
    StrayFree wideNumberLog ∧ CpuBlock.ofLog wideNumberLog = sectionRows wideNumberLog := by
  have hfree : StrayFree wideNumberLog := by decide +kernel
  exact ⟨hfree, ofLog_eq_sectionRows hfree⟩

/-- A marker that cannot be converted leaves the block above it open, and that block takes the
sample below it. -/
theorem ofLog_ne_sectionRows :
    let text := Text.written (["Start of repetition 1:", "Start of repetition 4294967296:",
      "%Cpu(s): 9.0 us"].map String.toList)
    CpuBlock.ofLog text ≠ sectionRows text := by
  intro text h
  have hlog : (CpuBlock.ofLog text).map (·.1) = [1] := by decide +kernel
  have hsections : (sectionRows text).map (·.1) = [] := by decide +kernel
  rw [h, hsections] at hlog
  cases hlog

end BenchLog
