/-
# The pairs of a log by their lines

The records of a log come in the order of their lines. So when an end comes, all
lines seen so far are in front of its own, and of the open starts of its repetition
it takes the one with the first line. What is kept along the fold (`Ordered`) is
that no line is used twice, and that of two pairs of one repetition the one whose
start stands first also ends first. Sorting the pairs by their lines keeps this.

Key definitions: `RepetitionPair.lines`, `RepetitionPair.StandsIn`,
`PairingState.Ordered`.
Key theorems: `PairingState.Ordered.step`, `PairingState.foldl_ordered`,
`Pairing.pairs_of_log`.
-/
import BenchLog.Proofs.LineNumbers
import BenchLog.Proofs.PairsAndCouples

namespace BenchLog

namespace RepetitionPair

/-- The lines of the two sides. -/
def lines (p : RepetitionPair) : List ℕ := [p.start.line, p.finish.line]

/-- A pair of records of a text: what is read of two of its lines, a start and
behind it an end of one repetition. -/
structure StandsIn (p : RepetitionPair) (text : List Char) : Prop where
  start_side : p.start.side = .start
  finish_side : p.finish.side = .finish
  start_repetition : p.start.repetition = p.repetition
  finish_repetition : p.finish.repetition = p.repetition
  start_lt_finish : p.start.line < p.finish.line
  finish_lt_length : p.finish.line < (Text.lines text).length
  start_read : ∃ line, (Text.lines text)[p.start.line]? = some line ∧
    Record.ofLine? line p.start.line = some p.start
  finish_read : ∃ line, (Text.lines text)[p.finish.line]? = some line ∧
    Record.ofLine? line p.finish.line = some p.finish

/-- If two pairs are of one repetition, the one with the first start has the first end. -/
def InTurn (p q : RepetitionPair) : Prop :=
  p.repetition = q.repetition →
    p.start.line < q.start.line ∧ p.finish.line < q.finish.line ∨
      q.start.line < p.start.line ∧ q.finish.line < p.finish.line

theorem InTurn.symm {p q : RepetitionPair} (h : p.InTurn q) : q.InTurn p :=
  fun he => (h he.symm).symm

end RepetitionPair

namespace PairingState

/-- The lines that are in use: those of the pairs, and those of the open starts. -/
def lines (s : PairingState) : List ℕ :=
  s.pairs.flatMap RepetitionPair.lines ++ s.pending.map (·.line)

/-- What pairing has come to by records in the order of their lines, all of which
are in front of the given one. -/
structure Ordered (s : PairingState) (n : ℕ) : Prop where
  lines_lt : ∀ i ∈ s.lines, i < n
  lines_nodup : s.lines.Nodup
  pending_ascend : s.pending.Pairwise fun x y => x.line < y.line
  pairs_ascend : ∀ p ∈ s.pairs, p.start.line < p.finish.line
  /-- A start waits behind those of its repetition that found their ends. -/
  waits : ∀ p ∈ s.pairs, ∀ x ∈ s.pending, x.repetition = p.repetition → p.start.line < x.line
  inTurn : s.pairs.Pairwise RepetitionPair.InTurn

theorem Ordered.empty (n : ℕ) : PairingState.empty.Ordered n := by
  constructor <;> simp [PairingState.empty, lines]

variable {s : PairingState} {n : ℕ} {x : Record}

theorem mem_lines_of_mem_pending (hx : x ∈ s.pending) : x.line ∈ s.lines :=
  List.mem_append_right _ (List.mem_map_of_mem hx)

theorem finish_mem_lines {p : RepetitionPair} (hp : p ∈ s.pairs) : p.finish.line ∈ s.lines :=
  List.mem_append_left _ (List.mem_flatMap.mpr ⟨p, hp, by simp [RepetitionPair.lines]⟩)

theorem Ordered.not_mem_lines (h : s.Ordered n) (hx : n ≤ x.line) : x.line ∉ s.lines :=
  fun hm => Nat.not_lt.mpr hx (h.lines_lt _ hm)

theorem Ordered.mono (h : s.Ordered n) {m : ℕ} (hm : n ≤ m) : s.Ordered m :=
  { h with lines_lt := fun i hi => Nat.lt_of_lt_of_le (h.lines_lt i hi) hm }

/-- A start is the last one to wait. -/
theorem Ordered.start (h : s.Ordered n) (hx : n ≤ x.line) :
    Ordered { s with pending := s.pending ++ [x] } (x.line + 1) := by
  have hlines : lines { s with pending := s.pending ++ [x] } = s.lines ++ [x.line] := by
    simp [lines]
  refine ⟨?_, ?_, ?_, h.pairs_ascend, ?_, h.inTurn⟩
  · rw [hlines]
    refine List.forall_mem_append.mpr ⟨fun i hi => ?_, by simp⟩
    have := h.lines_lt i hi
    omega
  · rw [hlines]
    exact h.lines_nodup.append (List.nodup_singleton _)
      (List.disjoint_singleton.mpr (h.not_mem_lines hx))
  · refine List.pairwise_append.mpr ⟨h.pending_ascend, List.pairwise_singleton _ _, ?_⟩
    intro y hy z hz
    rw [List.mem_singleton.mp hz]
    exact Nat.lt_of_lt_of_le (h.lines_lt _ (mem_lines_of_mem_pending hy)) hx
  · intro p hp y hy hr
    rcases List.mem_append.mp hy with hy | hy
    · exact h.waits p hp y hy hr
    · rw [List.mem_singleton.mp hy]
      have := h.pairs_ascend p hp
      have := h.lines_lt _ (finish_mem_lines hp)
      omega

/-- An end takes the first start of its repetition that waits. -/
theorem Ordered.matched (h : s.Ordered n) (hx : n ≤ x.line) {y : Record}
    {front back : List Record} (hsplit : s.pending = front ++ y :: back)
    (hy : y.repetition = x.repetition) (hfront : ∀ z ∈ front, z.repetition ≠ x.repetition) :
    Ordered { s with pending := front ++ back, pairs := ⟨y, x⟩ :: s.pairs } (x.line + 1) := by
  have hmem : y ∈ s.pending := hsplit ▸ List.mem_append_right _ List.mem_cons_self
  have hrest : ∀ z ∈ front ++ back, z ∈ s.pending := by
    intro z hz
    rw [hsplit]
    rcases List.mem_append.mp hz with hz | hz
    · exact List.mem_append_left _ hz
    · exact List.mem_append_right _ (List.mem_cons_of_mem _ hz)
  have hperm : (lines { s with pending := front ++ back, pairs := ⟨y, x⟩ :: s.pairs }).Perm
      (x.line :: s.lines) := by
    simp only [lines, hsplit, List.flatMap_cons, RepetitionPair.lines, List.map_append,
      List.map_cons, List.cons_append, List.nil_append]
    refine (List.Perm.swap _ _ _).trans (.cons _ ?_)
    rw [← List.append_assoc, ← List.append_assoc]
    exact List.perm_middle.symm
  have hylt := h.lines_lt _ (mem_lines_of_mem_pending hmem)
  have hascend := h.pending_ascend
  rw [hsplit, List.pairwise_append, List.pairwise_cons] at hascend
  obtain ⟨hfrontAscend, ⟨hback, hbackAscend⟩, hacross⟩ := hascend
  refine ⟨fun i hi => ?_, ?_, ?_, ?_, ?_, ?_⟩
  · rcases List.mem_cons.mp (hperm.subset hi) with rfl | hi
    · exact Nat.lt_succ_self _
    · have := h.lines_lt i hi
      omega
  · exact hperm.nodup_iff.mpr (List.nodup_cons.mpr ⟨h.not_mem_lines hx, h.lines_nodup⟩)
  · exact List.pairwise_append.mpr ⟨hfrontAscend, hbackAscend,
      fun z hz w hw => hacross z hz w (List.mem_cons_of_mem _ hw)⟩
  · refine List.forall_mem_cons.mpr ⟨?_, h.pairs_ascend⟩
    exact Nat.lt_of_lt_of_le hylt hx
  · refine List.forall_mem_cons.mpr
      ⟨fun z hz hr => ?_, fun p hp z hz => h.waits p hp z (hrest z hz)⟩
    -- No start in front of the one that is taken is of the repetition.
    rcases List.mem_append.mp hz with hz | hz
    · exact absurd hr (hfront z hz)
    · exact hback z hz
  · refine List.pairwise_cons.mpr ⟨fun p hp hr => .inr ⟨?_, ?_⟩, h.inTurn⟩
    · exact h.waits p hp y hmem (hy.trans hr)
    · exact Nat.lt_of_lt_of_le (h.lines_lt _ (finish_mem_lines hp)) hx

/-- One more record, behind all lines so far. -/
theorem Ordered.step (h : s.Ordered n) (hx : n ≤ x.line) : (s.step x).Ordered (x.line + 1) := by
  cases hside : x.side with
  | start =>
    rw [step_start hside]
    exact h.start hx
  | finish =>
    cases htake : takeFirst (·.repetition == x.repetition) s.pending with
    | none =>
      simp only [PairingState.step, hside, htake]
      exact { h.mono (Nat.le_succ_of_le hx) with }
    | some taken =>
      obtain ⟨y, rest⟩ := taken
      obtain ⟨front, back, hsplit, rfl, hy, hfront⟩ := takeFirst_eq_some_iff.mp htake
      simp only [PairingState.step, hside, htake]
      exact h.matched hx hsplit (beq_iff_eq.mp hy) fun z hz => by simpa using hfront z hz

theorem foldl_ordered {records : List Record} (hlines : records.Pairwise fun x y => x.line < y.line)
    (h : s.Ordered n) (hn : ∀ x ∈ records, n ≤ x.line) :
    ∃ m, (records.foldl PairingState.step s).Ordered m := by
  induction records generalizing s n with
  | nil => exact ⟨n, h⟩
  | cons x records ih =>
    rw [List.pairwise_cons] at hlines
    exact ih hlines.2 (h.step (hn x List.mem_cons_self)) fun y hy => hlines.1 y hy

end PairingState

namespace Pairing

/-- The pairs of records in the order of their lines: no line is used twice, and the
pairs of a repetition end in the order in which they start. -/
theorem pairs_of_ascending {records : List Record}
    (h : records.Pairwise fun x y => x.line < y.line) :
    (∀ p ∈ (ofRecords records).pairs, p.start.line < p.finish.line) ∧
      ((ofRecords records).pairs.flatMap RepetitionPair.lines).Nodup ∧
      (ofRecords records).pairs.Pairwise RepetitionPair.InTurn := by
  obtain ⟨n, hordered⟩ :=
    PairingState.foldl_ordered h (.empty 0) fun x _ => Nat.zero_le x.line
  have hperm := perm_pairs records
  refine ⟨fun p hp => hordered.pairs_ascend p (hperm.subset hp), ?_, ?_⟩
  · exact (hperm.flatMap_right _).nodup_iff.mpr (List.nodup_append.mp hordered.lines_nodup).1
  · exact (hperm.pairwise_iff RepetitionPair.InTurn.symm).mpr hordered.inTurn

/-- Different pairs start on different lines. -/
theorem pairwise_start_ne {ps : List RepetitionPair}
    (h : (ps.flatMap RepetitionPair.lines).Nodup) :
    ps.Pairwise fun p q => p.start.line ≠ q.start.line := by
  refine (List.nodup_flatMap.mp h).2.imp fun {p q} hdisjoint he => ?_
  have hq : p.start.line ∈ q.lines := he ▸ List.mem_cons_self
  exact hdisjoint List.mem_cons_self hq

theorem standsIn_of_mem_pairs {text : List Char} {p : RepetitionPair}
    (hp : p ∈ (ofRecords (Record.ofLog text)).pairs) : p.StandsIn text := by
  have hsided := sided_of_mem_pairs hp
  obtain ⟨hstart, hfinish⟩ := mem_of_mem_pairs hp
  obtain ⟨line, i, hline, hread⟩ := Record.mem_ofLog_iff.mp hstart
  obtain ⟨line', j, hline', hread'⟩ := Record.mem_ofLog_iff.mp hfinish
  obtain rfl := Record.line_of_ofLine? hread
  obtain rfl := Record.line_of_ofLine? hread'
  exact
    { start_side := hsided.start_side
      finish_side := hsided.finish_side
      start_repetition := hsided.start_repetition
      finish_repetition := rfl
      start_lt_finish := (pairs_of_ascending (Record.pairwise_line_ofLog text)).1 p hp
      finish_lt_length := (List.getElem?_eq_some_iff.mp hline').1
      start_read := ⟨line, hline, hread⟩
      finish_read := ⟨line', hline', hread'⟩ }

/-- **The pairs of a log are read of its lines, a start and behind it an end of one
repetition. They come in the strict order of their lines, no line is in two pairs, and
the pairs of a repetition end in the order in which they start.** -/
theorem pairs_of_log (text : List Char) :
    (∀ p ∈ (ofRecords (Record.ofLog text)).pairs, p.StandsIn text) ∧
      ((ofRecords (Record.ofLog text)).pairs.Pairwise fun p q => p.lineKey < q.lineKey) ∧
      ((ofRecords (Record.ofLog text)).pairs.flatMap RepetitionPair.lines).Nodup ∧
      (ofRecords (Record.ofLog text)).pairs.Pairwise fun p q =>
        p.repetition = q.repetition → p.finish.line < q.finish.line := by
  obtain ⟨-, hnodup, hturn⟩ := pairs_of_ascending (Record.pairwise_line_ofLog text)
  have hstarts : (ofRecords (Record.ofLog text)).pairs.Pairwise fun p q =>
      p.start.line < q.start.line := by
    refine (pairwise_start_ne hnodup).imp₂ (fun p q hne hle => ?_) (pairwise_pairs _)
    rcases Prod.Lex.toLex_le_toLex.mp hle with hlt | ⟨he, -⟩
    · exact hlt
    · exact absurd he hne
  refine ⟨fun p hp => standsIn_of_mem_pairs hp, ?_, hnodup, ?_⟩
  · exact hstarts.imp fun hlt => Prod.Lex.toLex_lt_toLex.mpr (.inl hlt)
  · refine hstarts.imp₂ (fun p q hlt hpq hr => ?_) hturn
    rcases hpq hr with ⟨-, hfinish⟩ | ⟨hgt, -⟩
    · exact hfinish
    · exact absurd hlt (Nat.lt_asymm hgt)

end Pairing
end BenchLog
