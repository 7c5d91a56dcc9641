/-
# Pairing is first in, first out

Equal records may recur, so a matching speaks of places in the list of records.
It is first in, first out (`IsFifo`) if an end is matched exactly when more
starts of its repetition stand before it than ends that found one, and if the
matched ends of a repetition take its starts in turn. There is one such matching
for each list of records (`IsFifo.unique`), and `Pairing.ofRecords` computes it.

Along the fold, the open starts of the list of records are the starts that the
matching so far has not taken, in order (`Follows`): one record more changes both
sides alike (`Follows.start`, `Follows.matched`, `Follows.stray`).

Key definitions: `Pairing.IsFifo`, `Pairing.strayEnds`, `Pairing.openStarts`,
`Pairing.Follows`.
Key theorems: `Pairing.IsFifo.unique`, `Pairing.exists_follows`,
`Pairing.ofRecords_isFifo`.
-/
import Mathlib.Data.List.Forall2
import Mathlib.Data.List.Induction
import Mathlib.Data.List.Nodup
import Mathlib.Data.Prod.Lex
import BenchLog.Pairing

namespace BenchLog

/-- The lines of a pair, the one of its start first. -/
def RepetitionPair.lineKey (p : RepetitionPair) : ℕ ×ₗ ℕ :=
  toLex (p.start.line, p.finish.line)

namespace Pairing

/-! ### Places in a list of records -/

/-- Whether the record at a place is the given side of the repetition. -/
def marks (records : List Record) (side : Side) (r : UInt32) (i : ℕ) : Bool :=
  records[i]?.any fun x => x.side = side ∧ x.repetition = r

/-- The places of the given side of a repetition, in order. -/
def places (records : List Record) (side : Side) (r : UInt32) : List ℕ :=
  (List.range records.length).filter (marks records side r)

/-- The places of the given side of all repetitions, in order. -/
def sidePlaces (records : List Record) (side : Side) : List ℕ :=
  (List.range records.length).filter fun i => records[i]?.any fun x => x.side = side

/-- The places of the given side that are not listed. -/
def placesBut (records : List Record) (side : Side) (listed : List ℕ) : List ℕ :=
  (sidePlaces records side).filter fun i => !listed.contains i

theorem marks_iff {records : List Record} {side : Side} {r : UInt32} {i : ℕ} :
    marks records side r i = true ↔
      ∃ x, records[i]? = some x ∧ x.side = side ∧ x.repetition = r := by
  simp [marks, Option.any_eq_true]

theorem lt_of_marks {records : List Record} {side : Side} {r : UInt32} {i : ℕ}
    (h : marks records side r i = true) : i < records.length := by
  obtain ⟨x, hx, -⟩ := marks_iff.mp h
  exact (List.getElem?_eq_some_iff.mp hx).1

theorem marks_inj {records : List Record} {side side' : Side} {r r' : UInt32} {i : ℕ}
    (h : marks records side r i = true) (h' : marks records side' r' i = true) :
    side = side' ∧ r = r' := by
  obtain ⟨x, hx, rfl, rfl⟩ := marks_iff.mp h
  obtain ⟨y, hy, rfl, rfl⟩ := marks_iff.mp h'
  rw [hx, Option.some.injEq] at hy
  exact hy ▸ ⟨rfl, rfl⟩

theorem marks_append {records more : List Record} {side : Side} {r : UInt32} {i : ℕ}
    (h : i < records.length) : marks (records ++ more) side r i = marks records side r i := by
  simp only [marks, List.getElem?_append_left h]

theorem marks_length (records : List Record) (x : Record) (side : Side) (r : UInt32) :
    marks (records ++ [x]) side r records.length = decide (x.side = side ∧ x.repetition = r) := by
  simp [marks]

theorem places_append (records : List Record) (x : Record) (side : Side) (r : UInt32) :
    places (records ++ [x]) side r =
      places records side r ++
        if x.side = side ∧ x.repetition = r then [records.length] else [] := by
  have hold : (List.range records.length).filter (marks (records ++ [x]) side r) =
      places records side r :=
    List.filter_congr fun i hi => marks_append (List.mem_range.mp hi)
  rw [places, List.length_append, List.length_singleton, List.range_succ, List.filter_append, hold]
  congr 1
  by_cases h : x.side = side ∧ x.repetition = r <;> simp [marks_length, h]

theorem mem_places {records : List Record} {side : Side} {r : UInt32} {i : ℕ} :
    i ∈ places records side r ↔ marks records side r i = true := by
  simp only [places, List.mem_filter, List.mem_range, and_iff_right_iff_imp]
  exact lt_of_marks

theorem nodup_places (records : List Record) (side : Side) (r : UInt32) :
    (places records side r).Nodup :=
  List.nodup_range.filter _

theorem mem_sidePlaces {records : List Record} {side : Side} {i : ℕ} :
    i ∈ sidePlaces records side ↔ ∃ x, records[i]? = some x ∧ x.side = side := by
  simp only [sidePlaces, List.mem_filter, List.mem_range, Option.any_eq_true, decide_eq_true_eq,
    and_iff_right_iff_imp]
  rintro ⟨x, hx, -⟩
  exact (List.getElem?_eq_some_iff.mp hx).1

theorem nodup_sidePlaces (records : List Record) (side : Side) :
    (sidePlaces records side).Nodup :=
  List.nodup_range.filter _

theorem mem_placesBut {records : List Record} {side : Side} {listed : List ℕ} {i : ℕ} :
    i ∈ placesBut records side listed ↔
      (∃ x, records[i]? = some x ∧ x.side = side) ∧ i ∉ listed := by
  simp [placesBut, mem_sidePlaces]

/-- Of the places that are not listed, those of one repetition. -/
theorem filter_placesBut (records : List Record) (side : Side) (listed : List ℕ) (r : UInt32) :
    (placesBut records side listed).filter (marks records side r) =
      (places records side r).filter fun i => !listed.contains i := by
  rw [placesBut, sidePlaces, places, List.filter_filter, List.filter_filter, List.filter_filter]
  refine List.filter_congr fun i _ => ?_
  by_cases h : marks records side r i = true
  · obtain ⟨x, hx, hs, -⟩ := marks_iff.mp h
    simp [h, hx, hs]
  · simp [h]

theorem sidePlaces_append (records : List Record) (x : Record) (side : Side) :
    sidePlaces (records ++ [x]) side =
      sidePlaces records side ++ if x.side = side then [records.length] else [] := by
  have hold : (List.range records.length).filter
      (fun i => (records ++ [x])[i]?.any fun y => y.side = side) = sidePlaces records side :=
    List.filter_congr fun i hi => by rw [List.getElem?_append_left (List.mem_range.mp hi)]
  rw [sidePlaces, List.length_append, List.length_singleton, List.range_succ, List.filter_append,
    hold]
  congr 1
  by_cases h : x.side = side <;> simp [h]

/-- One record more, of the side in question: its place is new. -/
theorem placesBut_append_same {records : List Record} {x : Record} {listed : List ℕ}
    (h : ∀ i ∈ listed, i < records.length) :
    placesBut (records ++ [x]) x.side listed =
      placesBut records x.side listed ++ [records.length] := by
  have hn : records.length ∉ listed := fun hm => Nat.lt_irrefl _ (h _ hm)
  rw [placesBut, sidePlaces_append, if_pos rfl, List.filter_append]
  simp [placesBut, hn]

/-- One record more, of the other side: nothing changes. -/
theorem placesBut_append_other {records : List Record} {x : Record} {side : Side}
    (listed : List ℕ) (h : x.side ≠ side) :
    placesBut (records ++ [x]) side listed = placesBut records side listed := by
  rw [placesBut, sidePlaces_append, if_neg h, List.append_nil, placesBut]

/-- One listed place more. -/
theorem placesBut_listed_append (records : List Record) (side : Side) (listed : List ℕ) (i : ℕ) :
    placesBut records side (listed ++ [i]) = (placesBut records side listed).filter (· ≠ i) := by
  rw [placesBut, placesBut, List.filter_filter]
  refine List.filter_congr fun j _ => ?_
  by_cases h : j = i <;> simp [h]

/-! ### Matchings -/

/-- The places of ends that a matching leaves out. -/
def strayEnds (records : List Record) (matching : List (ℕ × ℕ)) : List ℕ :=
  placesBut records .finish (matching.map (·.2))

/-- The places of starts that a matching leaves out. -/
def openStarts (records : List Record) (matching : List (ℕ × ℕ)) : List ℕ :=
  placesBut records .start (matching.map (·.1))

/-- The members of a matching whose ends belong to a repetition. -/
def ofRepetition (records : List Record) (r : UInt32) (matching : List (ℕ × ℕ)) :
    List (ℕ × ℕ) :=
  matching.filter fun p => marks records .finish r p.2

/-- A matching of the places of starts and ends, in the order of the ends, that
is first in, first out. -/
structure IsFifo (records : List Record) (matching : List (ℕ × ℕ)) : Prop where
  ends_ascend : (matching.map (·.2)).Pairwise (· < ·)
  sides : ∀ p ∈ matching, ∃ r,
    marks records .start r p.1 = true ∧ marks records .finish r p.2 = true
  /-- An end is matched if and only if more starts of its repetition stand
  before it than matched ends do. -/
  matched_iff : ∀ r e, marks records .finish r e = true →
    (e ∈ matching.map (·.2) ↔
      (ofRepetition records r matching).countP (fun p => decide (p.2 < e)) <
        (places records .start r).countP (· < e))
  /-- The `m`-th matched end of a repetition is paired with its `m`-th start. -/
  in_turn : ∀ (r : UInt32) (m : ℕ) (p : ℕ × ℕ), (ofRepetition records r matching)[m]? = some p →
    (places records .start r)[m]? = some p.1

/-- The pair of records that stands at two places. -/
def PairAt (records : List Record) (p : ℕ × ℕ) (q : RepetitionPair) : Prop :=
  records[p.1]? = some q.start ∧ records[p.2]? = some q.finish

/-- A record keeps its place when more records come. -/
theorem getElem?_append_of_eq_some {records : List Record} {i : ℕ} {x : Record}
    (h : records[i]? = some x) (more : List Record) : (records ++ more)[i]? = some x := by
  rw [List.getElem?_append_left (List.getElem?_eq_some_iff.mp h).1, h]

namespace IsFifo

variable {records : List Record} {matching : List (ℕ × ℕ)}

theorem fst_lt (h : IsFifo records matching) {p : ℕ × ℕ} (hp : p ∈ matching) :
    p.1 < records.length := by
  obtain ⟨r, hs, -⟩ := h.sides p hp
  exact lt_of_marks hs

theorem snd_lt (h : IsFifo records matching) {p : ℕ × ℕ} (hp : p ∈ matching) :
    p.2 < records.length := by
  obtain ⟨r, -, he⟩ := h.sides p hp
  exact lt_of_marks he

theorem nil : IsFifo [] [] := by
  refine ⟨List.Pairwise.nil, by simp, fun r e he => ?_, by simp [ofRepetition]⟩
  exact absurd (lt_of_marks he) (Nat.not_lt_zero e)

/-- More records do not change which members belong to a repetition. -/
theorem ofRepetition_append (h : IsFifo records matching) (more : List Record) (r : UInt32) :
    ofRepetition (records ++ more) r matching = ofRepetition records r matching :=
  List.filter_congr fun _ hp => marks_append (h.snd_lt hp)

/-- The starts taken are the first ones of their repetition. -/
theorem map_fst_ofRepetition (h : IsFifo records matching) (r : UInt32) :
    (ofRepetition records r matching).map (·.1) =
      (places records .start r).take (ofRepetition records r matching).length := by
  refine List.ext_getElem? fun m => ?_
  rw [List.getElem?_map, List.getElem?_take]
  split
  · rename_i hm
    obtain ⟨p, hp⟩ : ∃ p, (ofRepetition records r matching)[m]? = some p :=
      ⟨_, List.getElem?_eq_getElem hm⟩
    rw [hp, h.in_turn r m p hp, Option.map_some]
  · rename_i hm
    rw [List.getElem?_eq_none (Nat.le_of_not_lt hm), Option.map_none]

theorem mem_map_fst_iff (h : IsFifo records matching) {r : UInt32} {i : ℕ}
    (hi : marks records .start r i = true) :
    i ∈ matching.map (·.1) ↔
      i ∈ (places records .start r).take (ofRepetition records r matching).length := by
  rw [← h.map_fst_ofRepetition r]
  simp only [List.mem_map, ofRepetition, List.mem_filter]
  constructor
  · rintro ⟨p, hp, rfl⟩
    obtain ⟨r', hs, he⟩ := h.sides p hp
    obtain ⟨-, rfl⟩ := marks_inj hi hs
    exact ⟨p, ⟨hp, he⟩, rfl⟩
  · rintro ⟨p, ⟨hp, -⟩, rfl⟩
    exact ⟨p, hp, rfl⟩

/-- The open starts of a repetition are what remains of its starts when the
matched ends have taken theirs. -/
theorem filter_openStarts (h : IsFifo records matching) (r : UInt32) :
    (openStarts records matching).filter (marks records .start r) =
      (places records .start r).drop (ofRepetition records r matching).length := by
  set l := places records .start r with hl
  set m := (ofRepetition records r matching).length with hm
  have hmem : ∀ i ∈ l, (i ∈ matching.map (·.1) ↔ i ∈ l.take m) := fun i hi =>
    h.mem_map_fst_iff (mem_places.mp hi)
  have hdisj := List.disjoint_take_drop (nodup_places records .start r) (le_refl m)
  rw [openStarts, filter_placesBut, ← hl]
  conv_lhs => rw [← List.take_append_drop m l, List.filter_append]
  have h1 : (l.take m).filter (fun i => !(matching.map (·.1)).contains i) = [] := by
    refine List.filter_eq_nil_iff.mpr fun i hi => ?_
    simpa using (hmem i (List.mem_of_mem_take hi)).mpr hi
  have h2 : (l.drop m).filter (fun i => !(matching.map (·.1)).contains i) = l.drop m := by
    refine List.filter_eq_self.mpr fun i hi => ?_
    have hnot : i ∉ matching.map (·.1) := fun hc =>
      hdisj ((hmem i (List.mem_of_mem_drop hi)).mp hc) hi
    simpa using hnot
  rw [h1, h2, List.nil_append]

/-! ### One record more -/

theorem countP_lt_length {l : List ℕ} {n : ℕ} (h : ∀ i ∈ l, i < n) :
    l.countP (· < n) = l.length :=
  List.countP_eq_length.mpr fun i hi => by simpa using h i hi

/-- Up to the place of a new record, the starts are counted as before. -/
theorem countP_places_append (records : List Record) (x : Record) (r : UInt32) {e : ℕ}
    (he : e ≤ records.length) :
    (places (records ++ [x]) .start r).countP (· < e) =
      (places records .start r).countP (· < e) := by
  rw [places_append, List.countP_append]
  split <;> simp [he]

/-- An end that comes when all starts of its repetition are taken, or a start,
leaves a matching as it is. -/
theorem append (h : IsFifo records matching) (x : Record)
    (hx : x.side = .finish → (places records .start x.repetition).length ≤
      (ofRepetition records x.repetition matching).length) :
    IsFifo (records ++ [x]) matching := by
  refine ⟨h.ends_ascend, fun p hp => ?_, fun r e he => ?_, fun r m p hp => ?_⟩
  · obtain ⟨r, hs, hf⟩ := h.sides p hp
    exact ⟨r, by rwa [marks_append (h.fst_lt hp)], by rwa [marks_append (h.snd_lt hp)]⟩
  · have hle : e ≤ records.length := by
      have := lt_of_marks he
      simp only [List.length_append, List.length_singleton] at this
      omega
    rw [h.ofRepetition_append, countP_places_append records x r hle]
    rcases Nat.lt_or_eq_of_le hle with hlt | rfl
    · exact h.matched_iff r e (by rwa [marks_append hlt] at he)
    · -- The new record is the end in question, and nothing is left for it.
      rw [marks_length, decide_eq_true_eq] at he
      obtain ⟨hs, rfl⟩ := he
      have hnot : records.length ∉ matching.map (·.2) := by
        intro hm
        obtain ⟨p, hp, hpe⟩ := List.mem_map.mp hm
        exact Nat.lt_irrefl _ (hpe ▸ h.snd_lt hp)
      have h1 : (ofRepetition records x.repetition matching).countP (fun p => decide (p.2 < records.length)) =
          (ofRepetition records x.repetition matching).length :=
        List.countP_eq_length.mpr fun p hp => by
          simpa using h.snd_lt (List.mem_of_mem_filter hp)
      rw [h1, countP_lt_length fun i hi => lt_of_marks (mem_places.mp hi)]
      have := hx hs
      exact iff_of_false hnot (by omega)
  · rw [h.ofRepetition_append] at hp
    rw [places_append, List.getElem?_append_left]
    · exact h.in_turn r m p hp
    · exact (List.getElem?_eq_some_iff.mp (h.in_turn r m p hp)).1

/-- An end that comes when a start of its repetition is left takes the first one. -/
theorem append_matched (h : IsFifo records matching) {x : Record} (hx : x.side = .finish) {i : ℕ}
    (hi : (places records .start x.repetition)[
      (ofRepetition records x.repetition matching).length]? = some i) :
    IsFifo (records ++ [x]) (matching ++ [(i, records.length)]) := by
  have hold : ∀ r, ofRepetition (records ++ [x]) r (matching ++ [(i, records.length)]) =
      ofRepetition records r matching ++
        if x.repetition = r then [(i, records.length)] else [] := by
    intro r
    rw [ofRepetition, List.filter_append]
    congr 1
    · exact h.ofRepetition_append [x] r
    · by_cases hr : x.repetition = r <;> simp [marks_length, hx, hr]
  have hcount : ∀ r e, e ≤ records.length →
      (ofRepetition (records ++ [x]) r (matching ++ [(i, records.length)])).countP
        (fun p => decide (p.2 < e)) =
      (ofRepetition records r matching).countP (fun p => decide (p.2 < e)) := by
    intro r e he
    rw [hold, List.countP_append]
    split <;> simp [he]
  refine ⟨?_, fun p hp => ?_, fun r e he => ?_, fun r m p hp => ?_⟩
  · rw [List.map_append, List.pairwise_append]
    refine ⟨h.ends_ascend, by simp, fun e he f hf => ?_⟩
    obtain ⟨p, hp, rfl⟩ := List.mem_map.mp he
    simp only [List.map_cons, List.map_nil, List.mem_singleton] at hf
    exact hf ▸ h.snd_lt hp
  · rcases List.mem_append.mp hp with hp | hp
    · obtain ⟨r, hs, hf⟩ := h.sides p hp
      exact ⟨r, by rwa [marks_append (h.fst_lt hp)], by rwa [marks_append (h.snd_lt hp)]⟩
    · rw [List.mem_singleton.mp hp]
      have hm := mem_places.mp (List.mem_of_getElem? hi)
      exact ⟨x.repetition, by rwa [marks_append (lt_of_marks hm)], by simp [marks_length, hx]⟩
  · have hle : e ≤ records.length := by
      have := lt_of_marks he
      simp only [List.length_append, List.length_singleton] at this
      omega
    rw [hcount r e hle, countP_places_append records x r hle]
    rcases Nat.lt_or_eq_of_le hle with hlt | rfl
    · rw [← h.matched_iff r e (by rwa [marks_append hlt] at he)]
      simp [Nat.ne_of_lt hlt]
    · rw [marks_length, decide_eq_true_eq] at he
      obtain ⟨-, rfl⟩ := he
      have h1 : (ofRepetition records x.repetition matching).countP
          (fun p => decide (p.2 < records.length)) =
          (ofRepetition records x.repetition matching).length :=
        List.countP_eq_length.mpr fun p hp => by
          simpa using h.snd_lt (List.mem_of_mem_filter hp)
      rw [h1, countP_lt_length fun j hj => lt_of_marks (mem_places.mp hj)]
      exact iff_of_true (by simp) (List.getElem?_eq_some_iff.mp hi).1
  · have hstart : places (records ++ [x]) .start r = places records .start r := by
      simp [places_append, hx]
    rw [hstart]
    rw [hold] at hp
    by_cases hlt : m < (ofRepetition records r matching).length
    · rw [List.getElem?_append_left hlt] at hp
      exact h.in_turn r m p hp
    · rw [List.getElem?_append_right (Nat.le_of_not_lt hlt)] at hp
      split at hp
      · rename_i hr
        subst hr
        rw [List.getElem?_singleton] at hp
        split at hp
        · have hm : m = (ofRepetition records x.repetition matching).length := by omega
          rw [hm, hi, ← Option.some.inj hp]
        · simp at hp
      · simp at hp

end IsFifo

/-! ### The fold follows the matching -/

theorem exists_mem_of_forall₂ {R : α → β → Prop} {as : List α} {bs : List β}
    (h : List.Forall₂ R as bs) {a : α} (ha : a ∈ as) : ∃ b ∈ bs, R a b := by
  induction h with
  | nil => cases ha
  | cons hab _ ih =>
    rcases List.mem_cons.mp ha with rfl | ha
    · exact ⟨_, List.mem_cons_self, hab⟩
    · obtain ⟨b, hb, hr⟩ := ih ha
      exact ⟨b, List.mem_cons_of_mem _ hb, hr⟩

/-- The state of pairing after some records, told by the places in their list:
the open starts wait, the members of the matching are paired, and the stray ends
are counted. -/
structure Follows (records : List Record) (s : PairingState) (matching : List (ℕ × ℕ)) :
    Prop where
  fifo : IsFifo records matching
  starts_nodup : (matching.map (·.1)).Nodup
  pending : List.Forall₂ (fun i x => records[i]? = some x) (openStarts records matching) s.pending
  pairs : List.Forall₂ (PairAt records) matching s.pairs.reverse
  droppedEnds : s.droppedEnds = (strayEnds records matching).length

namespace Follows

variable {records : List Record} {s : PairingState} {matching : List (ℕ × ℕ)}

theorem empty : Follows [] .empty [] :=
  ⟨.nil, List.nodup_nil, .nil, .nil, rfl⟩

theorem fst_lt (h : Follows records s matching) : ∀ i ∈ matching.map (·.1), i < records.length := by
  intro i hi
  obtain ⟨p, hp, rfl⟩ := List.mem_map.mp hi
  exact h.fifo.fst_lt hp

theorem snd_lt (h : Follows records s matching) : ∀ i ∈ matching.map (·.2), i < records.length := by
  intro i hi
  obtain ⟨p, hp, rfl⟩ := List.mem_map.mp hi
  exact h.fifo.snd_lt hp

/-- What waits still waits, and what is paired is still paired, after more records. -/
theorem pending_append (h : Follows records s matching) (more : List Record) :
    List.Forall₂ (fun i x => (records ++ more)[i]? = some x) (openStarts records matching)
      s.pending :=
  h.pending.imp fun _ _ hx => getElem?_append_of_eq_some hx more

theorem pairs_append (h : Follows records s matching) (more : List Record) :
    List.Forall₂ (PairAt (records ++ more)) matching s.pairs.reverse :=
  h.pairs.imp fun _ _ hq =>
    ⟨getElem?_append_of_eq_some hq.1 more, getElem?_append_of_eq_some hq.2 more⟩

/-- A start waits behind the others. -/
theorem start (h : Follows records s matching) {x : Record} (hx : x.side = .start) :
    Follows (records ++ [x]) (s.step x) matching := by
  rw [PairingState.step_start hx]
  refine ⟨h.fifo.append x (by simp [hx]), h.starts_nodup, ?_, h.pairs_append [x], ?_⟩
  · have hopen : openStarts (records ++ [x]) matching =
        openStarts records matching ++ [records.length] := by
      rw [openStarts, openStarts, ← hx, placesBut_append_same h.fst_lt]
    rw [hopen]
    exact List.rel_append (h.pending_append [x]) (.cons (by simp) .nil)
  · rw [strayEnds, placesBut_append_other _ (by simp [hx]), h.droppedEnds]
    rfl

/-- An end takes the first waiting start of its repetition. -/
theorem matched (h : Follows records s matching) {x start : Record} {rest : List Record}
    (hx : x.side = .finish)
    (ht : takeFirst (·.repetition == x.repetition) s.pending = some (start, rest)) :
    ∃ i, Follows (records ++ [x]) { s with pending := rest, pairs := ⟨start, x⟩ :: s.pairs }
      (matching ++ [(i, records.length)]) := by
  obtain ⟨front, back, hp, rfl, hs, hfront⟩ := takeFirst_eq_some_iff.mp ht
  -- The waiting starts split as their places do.
  have hpend := h.pending
  rw [hp] at hpend
  obtain ⟨before, i, after, hopen, hf, hi, hb⟩ : ∃ before i after,
      openStarts records matching = before ++ i :: after ∧
      List.Forall₂ (fun i x => records[i]? = some x) before front ∧ records[i]? = some start ∧
      List.Forall₂ (fun i x => records[i]? = some x) after back := by
    have h1 := List.forall₂_take_append _ _ _ hpend
    obtain ⟨i, after, hi, hb, he⟩ := List.forall₂_cons_right_iff.mp
      (List.forall₂_drop_append _ _ _ hpend)
    exact ⟨_, i, after, by rw [← he, List.take_append_drop], h1, hi, hb⟩
  have hmem : i ∈ openStarts records matching := by simp [hopen]
  obtain ⟨⟨y, hy, hside⟩, hnot⟩ := mem_placesBut.mp hmem
  obtain rfl : start = y := by rw [hi, Option.some.injEq] at hy; exact hy
  have hrep : start.repetition = x.repetition := by simpa using hs
  -- The place of the start is the next one that the repetition has.
  have hnext : (places records .start x.repetition)[
      (ofRepetition records x.repetition matching).length]? = some i := by
    rw [← List.head?_drop, ← h.fifo.filter_openStarts, hopen, List.filter_append]
    have hnone : before.filter (marks records .start x.repetition) = [] := by
      refine List.filter_eq_nil_iff.mpr fun j hj hm => ?_
      obtain ⟨z, hz, -, hzr⟩ := marks_iff.mp hm
      obtain ⟨w, hw, hjw⟩ := exists_mem_of_forall₂ hf hj
      obtain rfl : z = w := by rwa [hz, Option.some.injEq] at hjw
      simpa [hzr] using hfront z hw
    have hhead : marks records .start x.repetition i = true :=
      marks_iff.mpr ⟨start, hi, hside, hrep⟩
    rw [hnone, List.nil_append, List.filter_cons_of_pos hhead, List.head?_cons]
  have hnodup : (openStarts records matching).Nodup := (nodup_sidePlaces records .start).filter _
  refine ⟨i, h.fifo.append_matched hx hnext, ?_, ?_, ?_, ?_⟩
  · rw [List.map_append, List.nodup_append]
    refine ⟨h.starts_nodup, by simp, fun a ha b hb => ?_⟩
    obtain rfl : b = i := by simpa using hb
    rintro rfl
    exact hnot ha
  · have hleft : openStarts (records ++ [x]) (matching ++ [(i, records.length)]) =
        before ++ after := by
      rw [openStarts, placesBut_append_other _ (by simp [hx]), List.map_append, List.map_singleton,
        placesBut_listed_append]
      change (openStarts records matching).filter (· ≠ i) = _
      rw [hopen] at hnodup ⊢
      obtain ⟨-, hn, hd⟩ := List.nodup_append.mp hnodup
      have h1 : before.filter (· ≠ i) = before :=
        List.filter_eq_self.mpr fun j hj => by simpa using hd j hj i List.mem_cons_self
      have h2 : after.filter (· ≠ i) = after :=
        List.filter_eq_self.mpr fun j hj => by
          have : j ≠ i := fun he => (List.nodup_cons.mp hn).1 (he ▸ hj)
          simpa using this
      rw [List.filter_append, h1, List.filter_cons_of_neg (by simp), h2]
    rw [hleft]
    exact List.rel_append (hf.imp fun _ _ hz => getElem?_append_of_eq_some hz [x])
      (hb.imp fun _ _ hz => getElem?_append_of_eq_some hz [x])
  · rw [List.reverse_cons]
    exact List.rel_append (h.pairs_append [x])
      (.cons ⟨getElem?_append_of_eq_some hi [x], by simp⟩ .nil)
  · -- The new end is the place that the matching lists in addition.
    have hold : (strayEnds records matching).filter (· ≠ records.length) =
        strayEnds records matching :=
      List.filter_eq_self.mpr fun j hj => by
        obtain ⟨⟨z, hz, -⟩, -⟩ := mem_placesBut.mp hj
        have := (List.getElem?_eq_some_iff.mp hz).1
        simpa using Nat.ne_of_lt this
    have hstray : strayEnds (records ++ [x]) (matching ++ [(i, records.length)]) =
        strayEnds records matching := by
      rw [strayEnds, List.map_append, List.map_singleton, placesBut_listed_append, ← hx,
        placesBut_append_same h.snd_lt, List.filter_append, hx]
      change (strayEnds records matching).filter (· ≠ records.length) ++ _ = _
      rw [hold, List.filter_cons_of_neg (by simp), List.filter_nil, List.append_nil]
    rw [hstray]
    exact h.droppedEnds

/-- An end of a repetition without waiting starts is counted. -/
theorem stray (h : Follows records s matching) {x : Record} (hx : x.side = .finish)
    (ht : takeFirst (·.repetition == x.repetition) s.pending = none) :
    Follows (records ++ [x]) { s with droppedEnds := s.droppedEnds + 1 } matching := by
  have hnone : (openStarts records matching).filter (marks records .start x.repetition) = [] := by
    refine List.filter_eq_nil_iff.mpr fun i hi hm => ?_
    obtain ⟨z, hz, -, hzr⟩ := marks_iff.mp hm
    obtain ⟨w, hw, hiw⟩ := exists_mem_of_forall₂ h.pending hi
    obtain rfl : z = w := by rwa [hz, Option.some.injEq] at hiw
    simpa [hzr] using takeFirst_eq_none_iff.mp ht z hw
  rw [h.fifo.filter_openStarts, List.drop_eq_nil_iff] at hnone
  refine ⟨h.fifo.append x fun _ => hnone, h.starts_nodup, ?_, h.pairs_append [x], ?_⟩
  · rw [openStarts, placesBut_append_other _ (by simp [hx])]
    exact h.pending_append [x]
  · rw [strayEnds, ← hx, placesBut_append_same h.snd_lt, hx, List.length_append,
      List.length_singleton]
    exact congrArg (· + 1) h.droppedEnds

end Follows

/-- After any records, the state of pairing follows a matching. -/
theorem exists_follows (records : List Record) :
    ∃ matching, Follows records (records.foldl PairingState.step .empty) matching := by
  induction records using List.reverseRecOn with
  | nil => exact ⟨[], .empty⟩
  | append_singleton records x ih =>
    obtain ⟨matching, h⟩ := ih
    rw [List.foldl_concat]
    cases hx : x.side with
    | start => exact ⟨matching, h.start hx⟩
    | finish =>
      cases ht : takeFirst (·.repetition == x.repetition)
          (records.foldl PairingState.step .empty).pending with
      | some taken =>
        obtain ⟨i, hi⟩ := h.matched hx ht
        exact ⟨_, by simpa only [PairingState.step, hx, ht] using hi⟩
      | none => exact ⟨matching, by simpa only [PairingState.step, hx, ht] using h.stray hx ht⟩

/-! ### One matching only -/

/-- In a list in the order of its second components, the members in front of one
are those with a smaller one. -/
theorem getElem?_countP_lt {l : List (ℕ × ℕ)} (h : (l.map (·.2)).Pairwise (· < ·)) {p : ℕ × ℕ}
    (hp : p ∈ l) : l[l.countP fun q => decide (q.2 < p.2)]? = some p := by
  induction l with
  | nil => cases hp
  | cons q l ih =>
    rw [List.map_cons, List.pairwise_cons] at h
    rcases List.mem_cons.mp hp with rfl | hp
    · have hnone : l.countP (fun q => decide (q.2 < p.2)) = 0 := by
        refine List.countP_eq_zero.mpr fun q hq => ?_
        simpa using Nat.le_of_lt (h.1 q.2 (List.mem_map_of_mem hq))
      simp [hnone]
    · have hlt : q.2 < p.2 := h.1 p.2 (List.mem_map_of_mem hp)
      simpa [hlt] using ih h.2 hp

namespace IsFifo

variable {records : List Record} {matching other : List (ℕ × ℕ)}

/-- How many matched ends of a repetition stand before a place is told by which
places are those of matched ends. -/
theorem countP_ofRepetition_congr (h : IsFifo records matching) (h' : IsFifo records other)
    (r : UInt32) {e : ℕ}
    (hsame : ∀ f < e, f ∈ matching.map (·.2) ↔ f ∈ other.map (·.2)) :
    (ofRepetition records r matching).countP (fun p => decide (p.2 < e)) =
      (ofRepetition records r other).countP (fun p => decide (p.2 < e)) := by
  have key : ∀ l : List (ℕ × ℕ), (ofRepetition records r l).countP (fun p => decide (p.2 < e)) =
      ((l.map (·.2)).filter fun f => decide (f < e) && marks records .finish r f).length := by
    intro l
    rw [List.countP_eq_length_filter, ofRepetition, List.filter_filter, List.filter_map,
      List.length_map]
    rfl
  have hperm : ((matching.map (·.2)).filter fun f => decide (f < e) && marks records .finish r f).Perm
      ((other.map (·.2)).filter fun f => decide (f < e) && marks records .finish r f) := by
    refine (List.perm_ext_iff_of_nodup ?_ ?_).mpr fun f => ?_
    · exact (h.ends_ascend.imp Nat.ne_of_lt).filter _
    · exact (h'.ends_ascend.imp Nat.ne_of_lt).filter _
    · simp only [List.mem_filter, Bool.and_eq_true, decide_eq_true_eq]
      exact and_congr_left fun hf => hsame f hf.1
  rw [key, key, hperm.length_eq]

/-- Two matchings that are first in, first out match the same ends. -/
theorem mem_ends_iff (h : IsFifo records matching) (h' : IsFifo records other) (e : ℕ) :
    e ∈ matching.map (·.2) ↔ e ∈ other.map (·.2) := by
  induction e using Nat.strongRecOn with
  | ind e ih =>
    by_cases he : ∃ r, marks records .finish r e = true
    · obtain ⟨r, hr⟩ := he
      rw [h.matched_iff r e hr, h'.matched_iff r e hr, h.countP_ofRepetition_congr h' r ih]
    · have hnone : ∀ {l : List (ℕ × ℕ)}, IsFifo records l → e ∉ l.map (·.2) := by
        intro l hl hm
        obtain ⟨p, hp, rfl⟩ := List.mem_map.mp hm
        obtain ⟨r, -, hf⟩ := hl.sides p hp
        exact he ⟨r, hf⟩
      exact iff_of_false (hnone h) (hnone h')

theorem mem_of_mem (h : IsFifo records matching) (h' : IsFifo records other) {p : ℕ × ℕ}
    (hp : p ∈ matching) : p ∈ other := by
  obtain ⟨q, hq, hqp⟩ := List.mem_map.mp ((h.mem_ends_iff h' p.2).mp (List.mem_map_of_mem hp))
  obtain ⟨r, -, hf⟩ := h.sides p hp
  -- Both take the start whose turn it is.
  have turn : ∀ {l : List (ℕ × ℕ)} {x : ℕ × ℕ}, IsFifo records l → x ∈ l → x.2 = p.2 →
      (places records .start r)[
        (ofRepetition records r l).countP fun y => decide (y.2 < p.2)]? = some x.1 := by
    intro l x hl hx hxp
    have hm : x ∈ ofRepetition records r l := List.mem_filter.mpr ⟨hx, hxp ▸ hf⟩
    have hasc : ((ofRepetition records r l).map (·.2)).Pairwise (· < ·) :=
      hl.ends_ascend.sublist (List.filter_sublist.map _)
    exact hxp ▸ hl.in_turn r _ x (getElem?_countP_lt hasc hm)
  have h1 := turn h hp rfl
  rw [h.countP_ofRepetition_congr h' r fun f _ => h.mem_ends_iff h' f, turn h' hq hqp,
    Option.some.injEq] at h1
  rwa [← Prod.ext h1 hqp]

/-- There is only one matching that is first in, first out. -/
theorem unique (h : IsFifo records matching) (h' : IsFifo records other) : matching = other := by
  have hnd : ∀ {l : List (ℕ × ℕ)}, IsFifo records l → l.Nodup := fun hl =>
    List.Nodup.of_map _ (hl.ends_ascend.imp Nat.ne_of_lt)
  have hasc : ∀ {l : List (ℕ × ℕ)}, IsFifo records l → l.Pairwise fun p q => p.2 < q.2 :=
    fun hl => List.pairwise_map.mp hl.ends_ascend
  have hperm : matching.Perm other := (List.perm_ext_iff_of_nodup (hnd h) (hnd h')).mpr fun _ =>
    ⟨h.mem_of_mem h', h'.mem_of_mem h⟩
  exact hperm.eq_of_pairwise (fun _ _ _ _ hab hba => absurd hab (Nat.lt_asymm hba)) (hasc h)
    (hasc h')

end IsFifo

/-! ### The result of pairing -/

theorem precedes_iff (p q : RepetitionPair) : p.precedes q = true ↔ p.lineKey ≤ q.lineKey := by
  simp [RepetitionPair.precedes, RepetitionPair.lineKey, Prod.Lex.toLex_le_toLex]

theorem precedes_trans (p q r : RepetitionPair) (hpq : p.precedes q = true)
    (hqr : q.precedes r = true) : p.precedes r = true := by
  rw [precedes_iff] at *
  exact le_trans hpq hqr

theorem precedes_total (p q : RepetitionPair) : (p.precedes q || q.precedes p) = true := by
  rw [Bool.or_eq_true, precedes_iff, precedes_iff]
  exact le_total _ _

/-- The pairs are sorted by their lines. -/
theorem pairwise_pairs (records : List Record) :
    (ofRecords records).pairs.Pairwise fun p q => p.lineKey ≤ q.lineKey := by
  have h := List.pairwise_mergeSort precedes_trans precedes_total
    (records.foldl PairingState.step .empty).pairs.reverse
  exact h.imp fun {a b} hab => (precedes_iff a b).mp hab

/-- Among pairs of the same lines, sorting keeps the order. -/
theorem filter_pairs (records : List Record) (k : ℕ ×ₗ ℕ) :
    (ofRecords records).pairs.filter (fun p => decide (p.lineKey = k)) =
      (records.foldl PairingState.step .empty).pairs.reverse.filter
        (fun p => decide (p.lineKey = k)) := by
  set arrived := (records.foldl PairingState.step .empty).pairs.reverse with ha
  have hperm : (ofRecords records).pairs.Perm arrived := List.mergeSort_perm _ _
  have hsub : (arrived.filter fun p => decide (p.lineKey = k)).Sublist (ofRecords records).pairs := by
    refine List.sublist_mergeSort precedes_trans precedes_total ?_ List.filter_sublist
    refine List.pairwise_of_forall_mem_list fun a ha b hb => ?_
    simp only [List.mem_filter, decide_eq_true_eq] at ha hb
    rw [precedes_iff, ha.2, hb.2]
  have hsub' := hsub.filter fun p => decide (p.lineKey = k)
  rw [List.filter_filter] at hsub'
  simp only [Bool.and_self] at hsub'
  exact (hsub'.eq_of_length (hperm.filter _).length_eq.symm).symm

/-- The listed places of a side and the others are all places of the side. -/
theorem perm_placesBut {records : List Record} {side : Side} {listed : List ℕ}
    (hnd : listed.Nodup) (h : ∀ i ∈ listed, i ∈ sidePlaces records side) :
    (listed ++ placesBut records side listed).Perm (sidePlaces records side) := by
  refine (List.perm_ext_iff_of_nodup ?_ (nodup_sidePlaces records side)).mpr fun i => ?_
  · refine List.nodup_append.mpr
      ⟨hnd, (nodup_sidePlaces records side).filter _, fun i hi j hj => ?_⟩
    rintro rfl
    exact (mem_placesBut.mp hj).2 hi
  · simp only [placesBut, List.mem_append, List.mem_filter]
    by_cases hi : i ∈ listed
    · simpa [hi] using h i hi
    · simp [hi]

/-- Each place is that of a start or that of an end. -/
theorem perm_sidePlaces (records : List Record) :
    (sidePlaces records .start ++ sidePlaces records .finish).Perm
      (List.range records.length) := by
  have hends : sidePlaces records .finish = (List.range records.length).filter fun i =>
      !records[i]?.any fun x => x.side = .start := by
    refine List.filter_congr fun i hi => ?_
    obtain ⟨x, hx⟩ : ∃ x, records[i]? = some x :=
      ⟨_, List.getElem?_eq_getElem (List.mem_range.mp hi)⟩
    cases hs : x.side <;> simp [hx, hs]
  rw [hends]
  exact List.filter_append_perm _ _

/-- Every record stands in exactly one place: in a pair, among the stray ends or
among the open starts. -/
theorem Follows.perm_range {records : List Record} {s : PairingState} {matching : List (ℕ × ℕ)}
    (h : Follows records s matching) :
    (matching.map (·.1) ++ matching.map (·.2) ++ strayEnds records matching ++
      openStarts records matching).Perm (List.range records.length) := by
  have hstarts : (matching.map (·.1) ++ openStarts records matching).Perm
      (sidePlaces records .start) := by
    refine perm_placesBut h.starts_nodup fun i hi => ?_
    obtain ⟨p, hp, rfl⟩ := List.mem_map.mp hi
    obtain ⟨r, hm, -⟩ := h.fifo.sides p hp
    obtain ⟨x, hx, hs, -⟩ := marks_iff.mp hm
    exact mem_sidePlaces.mpr ⟨x, hx, hs⟩
  have hends : (matching.map (·.2) ++ strayEnds records matching).Perm
      (sidePlaces records .finish) := by
    refine perm_placesBut (h.fifo.ends_ascend.imp Nat.ne_of_lt) fun i hi => ?_
    obtain ⟨p, hp, rfl⟩ := List.mem_map.mp hi
    obtain ⟨r, -, hm⟩ := h.fifo.sides p hp
    obtain ⟨x, hx, hs, -⟩ := marks_iff.mp hm
    exact mem_sidePlaces.mpr ⟨x, hx, hs⟩
  refine .trans ?_ ((hstarts.append hends).trans (perm_sidePlaces records))
  rw [List.append_assoc, List.append_assoc, List.append_assoc]
  refine .append_left _ ?_
  rw [← List.append_assoc]
  exact List.perm_append_comm

/-- **Pairing is first in, first out.** There is exactly one matching of the
places of starts and ends that is first in, first out for each repetition. The
pairs are the pairs of records at these places, sorted by their lines, those of
the same lines in the order of their ends; the ends and the starts that the
matching leaves out are counted, and each record is in one of the three. -/
theorem ofRecords_isFifo (records : List Record) :
    ∃ (matching : List (ℕ × ℕ)) (arrived : List RepetitionPair),
      (IsFifo records matching ∧ ∀ other, IsFifo records other → other = matching) ∧
      List.Forall₂ (PairAt records) matching arrived ∧
      (ofRecords records).pairs.Perm arrived ∧
      ((ofRecords records).pairs.Pairwise fun p q => p.lineKey ≤ q.lineKey) ∧
      (∀ k, (ofRecords records).pairs.filter (fun p => decide (p.lineKey = k)) =
        arrived.filter fun p => decide (p.lineKey = k)) ∧
      (ofRecords records).droppedEnds = (strayEnds records matching).length ∧
      (ofRecords records).unmatchedStarts = (openStarts records matching).length ∧
      (matching.map (·.1) ++ matching.map (·.2) ++ strayEnds records matching ++
        openStarts records matching).Perm (List.range records.length) ∧
      2 * (ofRecords records).pairs.length + (ofRecords records).droppedEnds +
        (ofRecords records).unmatchedStarts = records.length := by
  obtain ⟨matching, h⟩ := exists_follows records
  have hperm : (ofRecords records).pairs.Perm
      (records.foldl PairingState.step .empty).pairs.reverse := List.mergeSort_perm _ _
  have hopen : (ofRecords records).unmatchedStarts = (openStarts records matching).length :=
    h.pending.length_eq.symm
  refine ⟨matching, _, ⟨h.fifo, fun other ho => ho.unique h.fifo⟩, h.pairs, hperm,
    pairwise_pairs records, filter_pairs records, h.droppedEnds, hopen, h.perm_range, ?_⟩
  have hlength := h.perm_range.length_eq
  simp only [List.length_append, List.length_map, List.length_range] at hlength
  have hdropped : (ofRecords records).droppedEnds = (strayEnds records matching).length :=
    h.droppedEnds
  rw [hperm.length_eq, ← h.pairs.length_eq, hopen, hdropped]
  omega

end Pairing
end BenchLog
