/-
# What line numbers do to pairing

Pairing uses the lines of records for one thing only, to put the pairs in order.
If other lines are in the same order, the result is the same with these lines
(`ofRecords_renumber`). The lines of a log ascend, so the pairs of a log are
given by what its records say, wherever they stand (`renumber_ofRecords_congr`).

Records that come later, on later lines, are paired for themselves once no start
waits any more (`ofRecords_append`).

Key definitions: `Record.renumber`, `Record.unnumbered`, `Pairing.renumber`,
`PairingState.after`.
Key theorems: `Pairing.ofRecords_renumber`, `Pairing.renumber_ofRecords_congr`,
`Pairing.ofRecords_append`, `Record.map_unnumbered_ofLog`.
-/
import BenchLog.Proofs.Interleaving

namespace BenchLog

/-! ### Other lines -/

/-- The record on another line. -/
def Record.renumber (f : ℕ → ℕ) (x : Record) : Record := { x with line := f x.line }

/-- The record without its line. -/
def Record.unnumbered (x : Record) : Record := x.renumber fun _ => 0

/-- The pair on other lines. -/
def RepetitionPair.renumber (f : ℕ → ℕ) (p : RepetitionPair) : RepetitionPair :=
  ⟨p.start.renumber f, p.finish.renumber f⟩

/-- The state of pairing, with the records on other lines. -/
def PairingState.renumber (f : ℕ → ℕ) (s : PairingState) : PairingState where
  pending := s.pending.map (·.renumber f)
  pairs := s.pairs.map (·.renumber f)
  droppedEnds := s.droppedEnds

/-- The result of pairing, with the records on other lines. -/
def Pairing.renumber (f : ℕ → ℕ) (p : Pairing) : Pairing where
  pairs := p.pairs.map (·.renumber f)
  droppedEnds := p.droppedEnds
  unmatchedStarts := p.unmatchedStarts

@[simp] theorem Record.side_renumber (f : ℕ → ℕ) (x : Record) : (x.renumber f).side = x.side := rfl

@[simp] theorem Record.repetition_renumber (f : ℕ → ℕ) (x : Record) :
    (x.renumber f).repetition = x.repetition := rfl

theorem Record.renumber_renumber (f g : ℕ → ℕ) (x : Record) :
    (x.renumber f).renumber g = x.renumber fun i => g (f i) := rfl

theorem Pairing.renumber_renumber (f g : ℕ → ℕ) (p : Pairing) :
    (p.renumber f).renumber g = p.renumber fun i => g (f i) := by
  simp only [Pairing.renumber, List.map_map]
  rfl

namespace PairingState

/-- A step does not look at lines. -/
theorem step_renumber (f : ℕ → ℕ) (s : PairingState) (x : Record) :
    (s.renumber f).step (x.renumber f) = (s.step x).renumber f := by
  cases hx : x.side with
  | start =>
    rw [step_start hx, step_start (s := s.renumber f) (r := x.renumber f) hx]
    simp [renumber]
  | finish =>
    have htake : takeFirst (·.repetition == x.repetition) (s.renumber f).pending =
        (takeFirst (·.repetition == x.repetition) s.pending).map fun t =>
          (t.1.renumber f, t.2.map (·.renumber f)) :=
      takeFirst_map (·.renumber f) (·.repetition == x.repetition) s.pending
    cases hs : takeFirst (·.repetition == x.repetition) s.pending <;>
      rw [hs] at htake <;>
      simp only [step, Record.side_renumber, Record.repetition_renumber, hx, htake, hs,
        Option.map_none, Option.map_some] <;>
      rfl

theorem foldl_step_renumber (f : ℕ → ℕ) (records : List Record) (s : PairingState) :
    (records.map (·.renumber f)).foldl step (s.renumber f) =
      (records.foldl step s).renumber f := by
  induction records generalizing s with
  | nil => rfl
  | cons x records ih => rw [List.map_cons, List.foldl_cons, step_renumber, ih, List.foldl_cons]

end PairingState

namespace Pairing

variable {records : List Record}

/-- Both records of a pair are records of the list. -/
theorem mem_of_mem_pairs {p : RepetitionPair} (hp : p ∈ (ofRecords records).pairs) :
    p.start ∈ records ∧ p.finish ∈ records := by
  obtain ⟨matching, h⟩ := exists_follows records
  have hmem : p ∈ (records.foldl PairingState.step .empty).pairs.reverse :=
    List.mem_reverse.mpr ((perm_pairs records).subset hp)
  obtain ⟨places, -, hstart, hfinish⟩ := exists_mem_of_forall₂ h.pairs.flip hmem
  exact ⟨List.mem_of_getElem? hstart, List.mem_of_getElem? hfinish⟩

/-- If the new lines are in the order of the old ones, pairing gives the same on
the new lines. -/
theorem ofRecords_renumber {f : ℕ → ℕ}
    (hf : StrictMonoOn f {i | ∃ x ∈ records, x.line = i}) :
    ofRecords (records.map (·.renumber f)) = (ofRecords records).renumber f := by
  have hfold : (records.map (·.renumber f)).foldl PairingState.step .empty =
      (records.foldl PairingState.step .empty).renumber f :=
    PairingState.foldl_step_renumber f records .empty
  have hsort : ((records.foldl PairingState.step .empty).pairs.reverse.mergeSort
        RepetitionPair.precedes).map (·.renumber f) =
      ((records.foldl PairingState.step .empty).pairs.reverse.map (·.renumber f)).mergeSort
        RepetitionPair.precedes := by
    refine List.map_mergeSort fun p hp q hq => ?_
    have hmem : ∀ {p : RepetitionPair},
        p ∈ (records.foldl PairingState.step .empty).pairs.reverse →
          p.start ∈ records ∧ p.finish ∈ records := fun hp =>
      mem_of_mem_pairs ((perm_pairs records).symm.subset (List.mem_reverse.mp hp))
    have hstart : p.start.line < q.start.line ↔ f p.start.line < f q.start.line :=
      (hf.lt_iff_lt ⟨_, (hmem hp).1, rfl⟩ ⟨_, (hmem hq).1, rfl⟩).symm
    have hsame : p.start.line = q.start.line ↔ f p.start.line = f q.start.line :=
      (hf.eq_iff_eq ⟨_, (hmem hp).1, rfl⟩ ⟨_, (hmem hq).1, rfl⟩).symm
    have hfinish : p.finish.line ≤ q.finish.line ↔ f p.finish.line ≤ f q.finish.line :=
      (hf.le_iff_le ⟨_, (hmem hp).2, rfl⟩ ⟨_, (hmem hq).2, rfl⟩).symm
    rw [Bool.eq_iff_iff]
    simp only [RepetitionPair.precedes, Bool.or_eq_true, Bool.and_eq_true, decide_eq_true_eq,
      beq_iff_eq]
    exact or_congr hstart (and_congr hsame hfinish)
  simp only [ofRecords, hfold, renumber, hsort, PairingState.renumber, List.map_reverse,
    List.length_map]

/-- The records with the places in their list for lines. -/
def numbered (records : List Record) : List Record :=
  records.zipIdx.map fun x => x.1.renumber fun _ => x.2

/-- Records on ascending lines come from the records with their places for lines,
by ascending new lines. -/
theorem exists_renumber_numbered (h : records.Pairwise fun x y => x.line < y.line) :
    ∃ f : ℕ → ℕ, StrictMonoOn f {i | ∃ x ∈ numbered (records.map (·.unnumbered)), x.line = i} ∧
      (numbered (records.map (·.unnumbered))).map (·.renumber f) = records := by
  refine ⟨fun i => (records[i]?.map (·.line)).getD 0, ?_, ?_⟩
  · have hlt : ∀ i, (∃ x ∈ numbered (records.map (·.unnumbered)), x.line = i) →
        i < records.length := by
      rintro i ⟨x, hx, rfl⟩
      obtain ⟨y, hy, rfl⟩ := List.mem_map.mp hx
      have hlt := List.snd_lt_of_mem_zipIdx hy
      rwa [List.length_map] at hlt
    intro i hi j hj hij
    have hpair := List.pairwise_iff_getElem.mp h i j (hlt i hi) (hlt j hj) hij
    simpa [hlt i hi, hlt j hj] using hpair
  · refine List.ext_getElem (by simp [numbered]) fun i hi hi' => ?_
    simp [numbered, Record.unnumbered, Record.renumber, hi']

/-- On ascending lines, the pairs are given by what the records say. -/
theorem renumber_ofRecords_congr {others : List Record}
    (h : records.map (·.unnumbered) = others.map (·.unnumbered))
    (hlines : records.Pairwise fun x y => x.line < y.line)
    (hothers : others.Pairwise fun x y => x.line < y.line) :
    (ofRecords records).renumber (fun _ => 0) = (ofRecords others).renumber fun _ => 0 := by
  obtain ⟨f, hf, hrecords⟩ := exists_renumber_numbered hlines
  obtain ⟨g, hg, hothers⟩ := exists_renumber_numbered hothers
  rw [← hrecords, ← hothers, ofRecords_renumber hf, ofRecords_renumber hg, renumber_renumber,
    renumber_renumber, h]

end Pairing

/-! ### Later records -/

namespace PairingState

/-- The state with earlier pairs and earlier dropped ends in it. -/
def after (s : PairingState) (pairs : List RepetitionPair) (droppedEnds : ℕ) : PairingState where
  pending := s.pending
  pairs := s.pairs ++ pairs
  droppedEnds := droppedEnds + s.droppedEnds

/-- A step does not look at what has been paired and dropped. -/
theorem step_after (s : PairingState) (pairs : List RepetitionPair) (droppedEnds : ℕ)
    (x : Record) : (s.after pairs droppedEnds).step x = (s.step x).after pairs droppedEnds := by
  cases hx : x.side with
  | start =>
    rw [step_start hx, step_start hx]
    rfl
  | finish =>
    have hpending : (s.after pairs droppedEnds).pending = s.pending := rfl
    cases htake : takeFirst (·.repetition == x.repetition) s.pending <;>
      simp only [step, hx, hpending, htake] <;>
      rfl

theorem foldl_step_after (records : List Record) (s : PairingState)
    (pairs : List RepetitionPair) (droppedEnds : ℕ) :
    records.foldl step (s.after pairs droppedEnds) =
      (records.foldl step s).after pairs droppedEnds := by
  induction records generalizing s with
  | nil => rfl
  | cons x records ih => rw [List.foldl_cons, step_after, ih, List.foldl_cons]

end PairingState

/-- Once no start waits any more, records on later lines are paired for
themselves. -/
theorem Pairing.ofRecords_append {records more : List Record}
    (hopen : (ofRecords records).unmatchedStarts = 0)
    (hlines : ∀ x ∈ records, ∀ y ∈ more, x.line < y.line) :
    (ofRecords (records ++ more)).pairs = (ofRecords records).pairs ++ (ofRecords more).pairs ∧
      (ofRecords (records ++ more)).droppedEnds =
        (ofRecords records).droppedEnds + (ofRecords more).droppedEnds ∧
      (ofRecords (records ++ more)).unmatchedStarts = (ofRecords more).unmatchedStarts := by
  set s := records.foldl PairingState.step .empty with hs
  set t := more.foldl PairingState.step .empty with ht
  have hsettled : s = PairingState.empty.after s.pairs s.droppedEnds := by
    have hpending : s.pending = [] := List.length_eq_zero_iff.mp hopen
    rw [PairingState.after, PairingState.empty, List.nil_append, Nat.add_zero, ← hpending]
  have hfold : (records ++ more).foldl PairingState.step .empty =
      t.after s.pairs s.droppedEnds := by
    rw [List.foldl_append, ← hs, hsettled, PairingState.foldl_step_after]
    rfl
  have hdropped : (ofRecords (records ++ more)).droppedEnds = s.droppedEnds + t.droppedEnds :=
    congrArg PairingState.droppedEnds hfold
  have hpending : (ofRecords (records ++ more)).unmatchedStarts = t.pending.length :=
    congrArg (fun u => u.pending.length) hfold
  refine ⟨?_, hdropped, hpending⟩
  -- Both sides are sorted and list the pairs of each key as they arrived.
  refine eq_of_filter_key (pairwise_pairs _) (List.pairwise_append.mpr ⟨pairwise_pairs _,
    pairwise_pairs _, fun p hp q hq => ?_⟩) fun k => ?_
  · have hlt := hlines _ (mem_of_mem_pairs hp).1 _ (mem_of_mem_pairs hq).1
    exact Prod.Lex.toLex_le_toLex.mpr (.inl hlt)
  · rw [filter_pairs, hfold, List.filter_append, filter_pairs, filter_pairs, PairingState.after,
      List.reverse_append, List.filter_append]

/-! ### The records of a log -/

namespace Record

/-- What a line says does not depend on where it stands. -/
theorem ofLine?_eq_map (line : List Char) (index : ℕ) :
    ofLine? line index = (ofLine? line 0).map (·.renumber fun _ => index) := by
  have hrecord : ∀ reading : RamReading, reading.record? index =
      (reading.record? 0).map (·.renumber fun _ => index) := by
    intro reading
    unfold RamReading.record?
    cases reading.marker.side? <;> cases reading.marker.repetition? <;>
      cases Number.float? reading.value <;> rfl
  unfold ofLine?
  rw [Option.map_bind]
  exact congrArg _ (funext hrecord)

/-- The records of numbered lines say what the lines say. -/
theorem map_unnumbered_ofNumberedLines (lines : List (List Char)) (k : ℕ) :
    (ofNumberedLines (lines.zipIdx k)).map (·.unnumbered) = lines.filterMap (ofLine? · 0) := by
  induction lines generalizing k with
  | nil => rfl
  | cons l lines ih =>
    have htail := ih (k + 1)
    rw [ofNumberedLines] at htail
    rw [List.zipIdx_cons, ofNumberedLines, List.filterMap_cons, List.filterMap_cons,
      ofLine?_eq_map l k]
    cases hl : ofLine? l 0 with
    | none => exact htail
    | some x =>
      have hx : (x.renumber fun _ => k).unnumbered = x := by
        have hline := line_of_ofLine? hl
        rw [unnumbered, renumber_renumber, renumber, ← hline]
      simp only [Option.map_some, List.map_cons, htail, hx]

/-- The records of a log say what its lines say. -/
theorem map_unnumbered_ofLog (text : List Char) :
    (ofLog text).map (·.unnumbered) = (Text.lines text).filterMap (ofLine? · 0) :=
  map_unnumbered_ofNumberedLines _ 0

theorem le_line_of_mem {lines : List (List Char)} {k : ℕ} {x : Record}
    (h : x ∈ ofNumberedLines (lines.zipIdx k)) : k ≤ x.line ∧ x.line < k + lines.length := by
  obtain ⟨⟨l, i⟩, hl, hx⟩ := List.mem_filterMap.mp h
  rw [line_of_ofLine? hx]
  exact ⟨List.le_snd_of_mem_zipIdx hl, List.snd_lt_add_of_mem_zipIdx hl⟩

/-- The lines of the records of a log ascend. -/
theorem pairwise_line_ofNumberedLines (lines : List (List Char)) (k : ℕ) :
    (ofNumberedLines (lines.zipIdx k)).Pairwise fun x y => x.line < y.line := by
  have hindices : (lines.zipIdx k).Pairwise fun a b => a.2 < b.2 := by
    have h : ((lines.zipIdx k).map (·.2)).Pairwise (· < ·) := by
      rw [List.zipIdx_map_snd]
      exact List.pairwise_lt_range'
    exact List.pairwise_map.mp h
  refine List.Pairwise.filterMap _ (fun a b hab x hx y hy => ?_) hindices
  rw [line_of_ofLine? hx, line_of_ofLine? hy]
  exact hab

theorem pairwise_line_ofLog (text : List Char) :
    (ofLog text).Pairwise fun x y => x.line < y.line :=
  pairwise_line_ofNumberedLines _ 0

end Record
end BenchLog
