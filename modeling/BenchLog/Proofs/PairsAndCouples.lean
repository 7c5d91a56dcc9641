/-
# Where pairs and couples agree

Pairing joins an end to the oldest open start of its repetition. Coupling does
not see the sides: it joins a row to the nearest later row of its repetition.
On a complete list of records, where no end is dropped and no start stays open,
the two give the same rows, whatever the values, if and only if the records of
each repetition alternate. Where a repetition starts again before it has ended,
coupling joins its two starts.

What coupling gives out of one repetition is what it was given
(`filter_coupleRows`), and the pairs of one repetition are a start and an end
each (`Sided`); so if the two agree, the records of each repetition take turns.

Key definitions: `RepetitionPair.rows`, `PairingState.Sided`.
Key theorems: `PairingState.foldl_sided`,
`Pairing.flatMap_rows_eq_coupleRows_iff`,
`Pairing.not_flatMap_rows_eq_coupleRows`.
-/
import BenchLog.Proofs.Alternation
import BenchLog.Proofs.CouplePlaces
import BenchLog.Proofs.Interleaving

namespace BenchLog

/-! ### Pairs are a start and an end -/

/-- The rows of a pair, with values for the two records. -/
def RepetitionPair.rows (value : Record → Float) (p : RepetitionPair) : List (UInt32 × Float) :=
  [(p.repetition, value p.start), (p.repetition, value p.finish)]

/-- Whether a pair is a start and an end of one repetition. -/
structure RepetitionPair.Sided (p : RepetitionPair) : Prop where
  start_side : p.start.side = .start
  finish_side : p.finish.side = .finish
  start_repetition : p.start.repetition = p.repetition

namespace PairingState

/-- Starts wait, and a pair is a start and an end of one repetition. -/
structure Sided (s : PairingState) : Prop where
  pending : ∀ x ∈ s.pending, x.side = .start
  pairs : ∀ p ∈ s.pairs, p.Sided

theorem Sided.step {s : PairingState} (h : s.Sided) (x : Record) : (s.step x).Sided := by
  cases hx : x.side with
  | start =>
    rw [step_start hx]
    refine ⟨fun y hy => ?_, h.pairs⟩
    rcases List.mem_append.mp hy with hy | hy
    · exact h.pending y hy
    · rw [List.mem_singleton.mp hy, hx]
  | finish =>
    cases htake : takeFirst (·.repetition == x.repetition) s.pending with
    | none =>
      simp only [PairingState.step, hx, htake]
      exact ⟨h.pending, h.pairs⟩
    | some taken =>
      obtain ⟨y, others⟩ := taken
      obtain ⟨front, back, hsplit, rfl, hy, -⟩ := takeFirst_eq_some_iff.mp htake
      have hpending : ∀ z ∈ front ++ y :: back, z.side = .start := hsplit ▸ h.pending
      simp only [PairingState.step, hx, htake]
      refine ⟨fun z hz => hpending z ?_, fun p hp => ?_⟩
      · rcases List.mem_append.mp hz with hz | hz
        · exact List.mem_append_left _ hz
        · exact List.mem_append_right _ (List.mem_cons_of_mem _ hz)
      · rcases List.mem_cons.mp hp with rfl | hp
        · exact ⟨hpending y (by simp), hx, beq_iff_eq.mp hy⟩
        · exact h.pairs p hp

theorem foldl_sided : ∀ (records : List Record) {s : PairingState}, s.Sided →
    (records.foldl step s).Sided
  | [], _, h => h
  | x :: records, _, h => foldl_sided records (h.step x)

end PairingState

namespace Pairing

variable {records : List Record}

theorem sided_of_mem_pairs {p : RepetitionPair} (hp : p ∈ (ofRecords records).pairs) :
    p.Sided := by
  have hempty : PairingState.empty.Sided := by constructor <;> simp [PairingState.empty]
  have hall := PairingState.foldl_sided records hempty
  exact hall.pairs p ((perm_pairs records).subset hp)

/-- The sides of pairs, one pair after the other, take turns. -/
theorem takeTurns_of_sided {ps : List RepetitionPair} (h : ∀ p ∈ ps, p.Sided) :
    TakeTurns ((ps.flatMap fun p => [p.start, p.finish]).map (·.side)) := by
  induction ps with
  | nil => exact .nil
  | cons p ps ih =>
    have hp := h p List.mem_cons_self
    have hsides : ((p :: ps).flatMap fun p => [p.start, p.finish]).map (·.side) =
        .start :: .finish :: (ps.flatMap fun p => [p.start, p.finish]).map (·.side) := by
      simp [hp.start_side, hp.finish_side]
    rw [hsides]
    exact .span (ih fun q hq => h q (List.mem_cons_of_mem _ hq))

/-! ### Complete lists -/

/-- In a complete list, each repetition has an even number of records. -/
theorem even_length_of_complete (hdropped : (ofRecords records).droppedEnds = 0)
    (hopen : (ofRecords records).unmatchedStarts = 0) (r : UInt32) :
    2 * ((records.filter fun x => x.repetition = r).length / 2) =
      (records.filter fun x => x.repetition = r).length := by
  have hshows := PairingState.shows_of_empty r records
  have hsize := PairingState.size_foldl (records.filter fun x => x.repetition = r) .empty
  have hempty : PairingState.empty.size = 0 := rfl
  have hpending : (records.foldl PairingState.step .empty).pending = [] :=
    List.length_eq_zero_iff.mp hopen
  have hle := hshows.droppedEnds_le
  have hzero : (records.foldl PairingState.step .empty).droppedEnds = 0 := hdropped
  rw [PairingState.size, hempty, hshows.pending, hpending] at hsize
  simp only [List.filter_nil, List.length_nil] at hsize
  omega

/-- Lists that every function maps to the same values are the same. -/
theorem eq_of_forall_map_eq {α : Type*} :
    ∀ {as bs : List α}, (∀ value : α → Float, as.map value = bs.map value) → as = bs
  | [], [], _ => rfl
  | [], _ :: _, h => nomatch h fun _ => 0
  | _ :: _, [], h => nomatch h fun _ => 0
  | a :: as, b :: bs, h => by
    classical
    have hhead : b = a := by
      by_contra hne
      have hone : (if a = a then 1 else 0 : Float) = if b = a then 1 else 0 :=
        (List.cons.inj (h fun x => if x = a then 1 else 0)).1
      rw [if_pos rfl, if_neg hne] at hone
      exact absurd hone (by decide)
    have htail : as = bs := eq_of_forall_map_eq fun value => (List.cons.inj (h value)).2
    rw [hhead, htail]

theorem filter_flatMap_rows (value : Record → Float) (r : UInt32) (ps : List RepetitionPair) :
    (ps.flatMap (RepetitionPair.rows value)).filter (·.1 == r) =
      (ps.filter fun p => p.repetition = r).flatMap (RepetitionPair.rows value) := by
  induction ps with
  | nil => rfl
  | cons p ps ih =>
    rw [List.flatMap_cons, List.filter_append, ih]
    by_cases hp : p.repetition = r <;> simp [RepetitionPair.rows, hp]

/-- If pairs and couples agree for all values, the pairs of a repetition are its
records, two at a time. -/
theorem flatMap_filter_pairs (hdropped : (ofRecords records).droppedEnds = 0)
    (hopen : (ofRecords records).unmatchedStarts = 0)
    (h : ∀ value : Record → Float, (ofRecords records).pairs.flatMap (RepetitionPair.rows value) =
      coupleRows (records.map fun x => (x.repetition, value x))) (r : UInt32) :
    (((ofRecords records).pairs.filter fun p => p.repetition = r).flatMap
      fun p => [p.start, p.finish]) = records.filter fun x => x.repetition = r := by
  refine eq_of_forall_map_eq fun value => ?_
  set rows := records.map fun x => (x.repetition, value x) with hrows
  have hown : rows.filter (·.1 == r) =
      (records.filter fun x => x.repetition = r).map fun x => (x.repetition, value x) := by
    rw [hrows, List.filter_map]
    exact congrArg _ (List.filter_congr fun x _ => beq_eq_decide x.repetition r)
  have hall : 2 * ((rows.filter (·.1 == r)).length / 2) = (rows.filter (·.1 == r)).length := by
    rw [hown, List.length_map]
    exact even_length_of_complete hdropped hopen r
  calc ((((ofRecords records).pairs.filter fun p => p.repetition = r).flatMap
          fun p => [p.start, p.finish]).map value)
      = ((((ofRecords records).pairs.filter fun p => p.repetition = r).flatMap
          (RepetitionPair.rows value)).map (·.2)) := by
        rw [List.map_flatMap, List.map_flatMap]
        rfl
    _ = ((coupleRows rows).filter (·.1 == r)).map (·.2) := by
        rw [← filter_flatMap_rows, h value]
    _ = (rows.filter (·.1 == r)).map (·.2) := by
        rw [filter_coupleRows, hall, List.take_length]
    _ = (records.filter fun x => x.repetition = r).map value := by
        rw [hown, List.map_map]
        rfl

/-- **Pairs and couples agree exactly where repetitions do not overlap
themselves.** Let the records of a list stand on ascending lines, and let no end
be dropped and no start stay open. The pairs, written as two rows each, are the
coupled rows of the records, whatever values the records have, if and only if
the records of each repetition alternate. -/
theorem flatMap_rows_eq_coupleRows_iff
    (hlines : records.Pairwise fun x y => x.line < y.line)
    (hdropped : (ofRecords records).droppedEnds = 0)
    (hopen : (ofRecords records).unmatchedStarts = 0) :
    (∀ value : Record → Float, (ofRecords records).pairs.flatMap (RepetitionPair.rows value) =
        coupleRows (records.map fun x => (x.repetition, value x))) ↔
      Alternates Record.mark records := by
  constructor
  · intro h r
    have hpairs := flatMap_filter_pairs hdropped hopen h r
    have hsided : ∀ p ∈ (ofRecords records).pairs.filter (fun p => p.repetition = r), p.Sided :=
      fun p hp => sided_of_mem_pairs (List.mem_of_mem_filter hp)
    have hturns := takeTurns_of_sided hsided
    rwa [hpairs] at hturns
  · intro h value
    obtain ⟨hpairs, -, -⟩ := ofRecords_of_alternates h hlines
    have hcouples := coupleRows_of_alternates value h
    calc (ofRecords records).pairs.flatMap (RepetitionPair.rows value)
        = (spans Record.mark records).flatMap fun p =>
            RepetitionPair.rows value (.ofSpan p) := by
          rw [hpairs, List.flatMap_map]
      _ = (spans Record.mark records).flatMap fun p =>
            [((Record.mark p.1).2, value p.1), ((Record.mark p.2).2, value p.2)] := by
          refine List.flatMap_congr fun p hp => ?_
          rw [(mark_of_mem_spans hp).2]
          have hrepetition : (RepetitionPair.ofSpan p).repetition = p.1.repetition :=
            congrArg Prod.snd (mark_of_mem_spans hp).2
          rw [RepetitionPair.rows, hrepetition]
          rfl
      _ = coupleRows (records.map fun x => (x.repetition, value x)) := hcouples.symm

/-- Repetitions that overlap each other and recur, but do not overlap themselves. -/
theorem flatMap_rows_eq_coupleRows_of_recurring :
    let records : List Record :=
      [⟨.start, 1, 10, 0⟩, ⟨.start, 2, 20, 3⟩, ⟨.finish, 1, 30, 4⟩, ⟨.start, 1, 15, 5⟩,
        ⟨.finish, 2, 40, 8⟩, ⟨.finish, 1, 35, 9⟩]
    records.Pairwise (fun x y => x.line < y.line) ∧ (ofRecords records).droppedEnds = 0 ∧
      (ofRecords records).unmatchedStarts = 0 ∧ Alternates Record.mark records ∧
      (ofRecords records).pairs.flatMap (RepetitionPair.rows (·.value)) =
        coupleRows (records.map fun x => (x.repetition, x.value)) := by
  intro records
  have hlines : records.Pairwise fun x y => x.line < y.line := by decide
  have hdropped : (ofRecords records).droppedEnds = 0 := rfl
  have hopen : (ofRecords records).unmatchedStarts = 0 := rfl
  have hturns : Alternates Record.mark records := by decide
  have hagree := (flatMap_rows_eq_coupleRows_iff hlines hdropped hopen).mpr hturns
  exact ⟨hlines, hdropped, hopen, hturns, hagree (·.value)⟩

/-- Pairs and couples do not agree on all complete lists: where a repetition
starts twice and then ends twice, coupling joins the two starts. -/
theorem not_flatMap_rows_eq_coupleRows :
    ¬∀ records : List Record, records.Pairwise (fun x y => x.line < y.line) →
      (ofRecords records).droppedEnds = 0 → (ofRecords records).unmatchedStarts = 0 →
      (ofRecords records).pairs.flatMap (RepetitionPair.rows (·.value)) =
        coupleRows (records.map fun x => (x.repetition, x.value)) := by
  intro h
  let records : List Record :=
    [⟨.start, 1, 10, 0⟩, ⟨.start, 1, 20, 1⟩, ⟨.finish, 1, 30, 2⟩, ⟨.finish, 1, 40, 3⟩]
  have hagree := h records (by decide) rfl rfl
  have harrived : (ofRecords records).pairs =
      (records.foldl PairingState.step .empty).pairs.reverse :=
    List.mergeSort_of_pairwise (by decide)
  have hpairs : (ofRecords records).pairs.flatMap (RepetitionPair.rows (·.value)) =
      [(1, 10), (1, 30), (1, 20), (1, 40)] := by
    rw [harrived]
    rfl
  have hcouples : coupleRows (records.map fun x => (x.repetition, x.value)) =
      [(1, 10), (1, 20), (1, 30), (1, 40)] := by
    rw [coupleRows_eq_coupleGreedily]
    decide +kernel
  rw [hpairs, hcouples] at hagree
  exact absurd hagree (by decide)

end Pairing
end BenchLog
