/-
# Pairing loses no pair

Of the ends of a repetition in a front part of the records, at most as many can be
matched as starts stand there too; so however starts are matched with later ends,
the most by which ends exceed starts in a front part stay without a start. Pairing
drops no more than that: with each record, the open starts of a repetition are its
starts less its ends and more what was dropped of it, and an end is dropped only
when this is nothing (`Accounts`). Told from behind, what stays open is the most by
which starts exceed ends in a back part.

Key definitions: `Pairing.IsMatching`, `Pairing.frontSurpluses`,
`Pairing.backSurpluses`, `Pairing.Accounts`.
Key theorems: `Pairing.exists_accounts`, `Pairing.IsFifo.isMatching`,
`Pairing.IsMatching.length_add_le`, `Pairing.isGreatest_length_pairs`.
-/
import Mathlib.Algebra.BigOperators.Group.Finset.Piecewise
import Mathlib.Algebra.Order.BigOperators.Group.Finset
import Mathlib.Data.FinEnum
import BenchLog.Proofs.Interleaving

namespace BenchLog

/-- The number of open starts of a repetition. -/
def PairingState.openCount (s : PairingState) (r : UInt32) : ℕ :=
  s.pending.countP fun x => x.repetition = r

namespace Pairing

/-! ### Counting by repetition -/

/-- The number of records of a side of a repetition. -/
def sideCount (records : List Record) (side : Side) (r : UInt32) : ℕ :=
  records.countP fun x => x.side = side ∧ x.repetition = r

theorem sideCount_append (front back : List Record) (side : Side) (r : UInt32) :
    sideCount (front ++ back) side r = sideCount front side r + sideCount back side r :=
  List.countP_append

theorem sideCount_concat (records : List Record) (x : Record) (side : Side) (r : UInt32) :
    sideCount (records ++ [x]) side r =
      sideCount records side r + if x.side = side ∧ x.repetition = r then 1 else 0 := by
  simp [sideCount, List.countP_append, List.countP_cons]

/-- The places of a side of a repetition are as many as its records. -/
theorem length_places (records : List Record) (side : Side) (r : UInt32) :
    (places records side r).length = sideCount records side r := by
  induction records using List.reverseRecOn with
  | nil => rfl
  | append_singleton records x ih =>
    rw [places_append, sideCount_concat, List.length_append, ih]
    by_cases hx : x.side = side ∧ x.repetition = r <;> simp [hx]

/-- Counted by a key, the members of a list are all its members. -/
theorem sum_countP_key (key : α → UInt32) (l : List α) :
    ∑ r, l.countP (fun a => key a = r) = l.length := by
  induction l with
  | nil => simp
  | cons a l ih => simp [List.countP_cons, Finset.sum_add_distrib, ih]

theorem sum_openCount (s : PairingState) : ∑ r, s.openCount r = s.pending.length :=
  sum_countP_key Record.repetition s.pending

theorem sum_sideCount (records : List Record) :
    ∑ r, sideCount records .start r + ∑ r, sideCount records .finish r = records.length := by
  rw [← sum_countP_key Record.repetition records, ← Finset.sum_add_distrib]
  refine Finset.sum_congr rfl fun r _ => ?_
  induction records with
  | nil => rfl
  | cons x records ih =>
    rw [List.countP_cons, ← ih, sideCount, sideCount, List.countP_cons, List.countP_cons]
    by_cases hr : x.repetition = r
    · cases hx : x.side <;> simp [hr, sideCount] <;> omega
    · simp [hr, sideCount]

/-! ### What must stay unmatched -/

/-- By how much ends of a repetition exceed its starts in front parts of the records. -/
def frontSurpluses (records : List Record) (r : UInt32) : Set ℤ :=
  {d | ∃ front, front <+: records ∧
    (sideCount front .finish r : ℤ) - sideCount front .start r = d}

/-- By how much starts of a repetition exceed its ends in back parts of the records. -/
def backSurpluses (records : List Record) (r : UInt32) : Set ℤ :=
  {d | ∃ back, back <:+ records ∧
    (sideCount back .start r : ℤ) - sideCount back .finish r = d}

section OneMore

variable {records : List Record} {x : Record} {r : UInt32} {n : ℕ}

/-- The greatest surplus stays the greatest if one record more does not exceed it. -/
theorem isGreatest_concat (h : IsGreatest (frontSurpluses records r) n)
    (hle : sideCount (records ++ [x]) .finish r ≤ sideCount (records ++ [x]) .start r + n) :
    IsGreatest (frontSurpluses (records ++ [x]) r) n := by
  obtain ⟨⟨front, hfront, hd⟩, hupper⟩ := h
  refine ⟨⟨front, hfront.trans (List.prefix_append _ _), hd⟩, ?_⟩
  rintro d ⟨front', hfront', rfl⟩
  rcases List.prefix_concat_iff.mp hfront' with rfl | hfront'
  · omega
  · exact hupper ⟨front', hfront', rfl⟩

/-- One end more may exceed it by one. -/
theorem isGreatest_concat_succ (h : IsGreatest (frontSurpluses records r) n)
    (heq : sideCount (records ++ [x]) .finish r = sideCount (records ++ [x]) .start r + (n + 1)) :
    IsGreatest (frontSurpluses (records ++ [x]) r) (n + 1 : ℕ) := by
  refine ⟨⟨_, List.prefix_refl _, by omega⟩, ?_⟩
  rintro d ⟨front, hfront, rfl⟩
  rcases List.prefix_concat_iff.mp hfront with rfl | hfront
  · omega
  · have := h.2 ⟨front, hfront, rfl⟩
    omega

end OneMore

/-! ### What pairing drops -/

/-- The state of pairing after some records, repetition by repetition: what it
has dropped is the greatest surplus of ends, and its open starts are the starts less
the ends and more what was dropped. -/
structure Accounts (records : List Record) (s : PairingState) (dropped : UInt32 → ℕ) : Prop where
  isGreatest : ∀ r, IsGreatest (frontSurpluses records r) (dropped r)
  openCount : ∀ r, s.openCount r + sideCount records .finish r =
    sideCount records .start r + dropped r
  droppedEnds : s.droppedEnds = ∑ r, dropped r

namespace Accounts

variable {records : List Record} {s : PairingState} {dropped : UInt32 → ℕ} {x : Record}

theorem empty : Accounts [] .empty fun _ => 0 := by
  refine ⟨fun r => ⟨⟨[], List.prefix_refl _, rfl⟩, ?_⟩, fun r => rfl, by simp [PairingState.empty]⟩
  rintro d ⟨front, hfront, rfl⟩
  rw [List.prefix_nil.mp hfront]
  exact le_rfl

/-- If nothing is dropped, the number of open starts is all there is to see. -/
theorem concat (h : Accounts records s dropped) {t : PairingState}
    (hopen : ∀ r, t.openCount r + sideCount (records ++ [x]) .finish r =
      sideCount (records ++ [x]) .start r + dropped r)
    (hdropped : t.droppedEnds = s.droppedEnds) : Accounts (records ++ [x]) t dropped := by
  refine ⟨fun r => isGreatest_concat (h.isGreatest r) ?_, hopen, hdropped.trans h.droppedEnds⟩
  have := hopen r
  omega

/-- A start is one open start more. -/
theorem start (h : Accounts records s dropped) (hx : x.side = .start) :
    Accounts (records ++ [x]) (s.step x) dropped := by
  rw [PairingState.step_start hx]
  refine h.concat (fun r => ?_) rfl
  have hr := h.openCount r
  simp only [PairingState.openCount, sideCount_concat, hx, List.countP_append, List.countP_cons,
    List.countP_nil] at hr ⊢
  by_cases hxr : x.repetition = r <;> simp [hxr] <;> omega

/-- An end that finds a start is one open start less. -/
theorem matched (h : Accounts records s dropped) (hx : x.side = .finish) {start : Record}
    {rest : List Record}
    (ht : takeFirst (·.repetition == x.repetition) s.pending = some (start, rest)) :
    Accounts (records ++ [x]) { s with pending := rest, pairs := ⟨start, x⟩ :: s.pairs }
      dropped := by
  obtain ⟨front, back, hpending, rfl, hstart, -⟩ := takeFirst_eq_some_iff.mp ht
  have hrepetition : start.repetition = x.repetition := by simpa using hstart
  refine h.concat (fun r => ?_) rfl
  have hr := h.openCount r
  simp only [PairingState.openCount, sideCount_concat, hx, hpending, List.countP_append,
    List.countP_cons, hrepetition] at hr ⊢
  by_cases hxr : x.repetition = r <;> simp [hxr] at hr ⊢ <;> omega

/-- An end that finds none is dropped, and is one that had to be. -/
theorem stray (h : Accounts records s dropped) (hx : x.side = .finish)
    (ht : takeFirst (·.repetition == x.repetition) s.pending = none) :
    Accounts (records ++ [x]) { s with droppedEnds := s.droppedEnds + 1 }
      fun r => dropped r + if x.repetition = r then 1 else 0 := by
  have hnone : s.openCount x.repetition = 0 :=
    List.countP_eq_zero.mpr fun y hy => by simpa using takeFirst_eq_none_iff.mp ht y hy
  have hopen : ∀ r, s.openCount r + sideCount (records ++ [x]) .finish r =
      sideCount (records ++ [x]) .start r + (dropped r + if x.repetition = r then 1 else 0) := by
    intro r
    have hr := h.openCount r
    simp only [sideCount_concat, hx, reduceCtorEq, false_and, if_false, true_and]
    omega
  refine ⟨fun r => ?_, hopen, by simp [h.droppedEnds, Finset.sum_add_distrib]⟩
  have hr := hopen r
  by_cases hxr : x.repetition = r
  · subst hxr
    rw [if_pos rfl] at hr ⊢
    exact isGreatest_concat_succ (h.isGreatest _) (by omega)
  · rw [if_neg hxr] at hr ⊢
    exact isGreatest_concat (h.isGreatest r) (by omega)

/-- What stays open is the greatest surplus of starts in a back part: a front part
has as many ends too many as the records have starts too few in what follows it. -/
theorem isGreatest_openCount (h : Accounts records s dropped) (r : UInt32) :
    IsGreatest (backSurpluses records r) (s.openCount r) := by
  have hopen := h.openCount r
  obtain ⟨⟨front, ⟨back, rfl⟩, hd⟩, hupper⟩ := h.isGreatest r
  simp only [sideCount_append] at hopen
  refine ⟨⟨back, List.suffix_append _ _, by omega⟩, ?_⟩
  rintro d ⟨back', ⟨front', hsplit⟩, rfl⟩
  have hle := hupper ⟨front', ⟨back', hsplit⟩, rfl⟩
  have hside : ∀ side, sideCount front' side r + sideCount back' side r =
      sideCount front side r + sideCount back side r := fun side => by
    rw [← sideCount_append, hsplit, sideCount_append]
  have hstart := hside .start
  have hfinish := hside .finish
  omega

end Accounts

/-- After any records, the state of pairing keeps such accounts. -/
theorem exists_accounts (records : List Record) :
    ∃ dropped, Accounts records (records.foldl PairingState.step .empty) dropped := by
  induction records using List.reverseRecOn with
  | nil => exact ⟨_, .empty⟩
  | append_singleton records x ih =>
    obtain ⟨dropped, h⟩ := ih
    rw [List.foldl_concat]
    cases hx : x.side with
    | start => exact ⟨dropped, h.start hx⟩
    | finish =>
      cases ht : takeFirst (·.repetition == x.repetition)
          (records.foldl PairingState.step .empty).pending with
      | some taken =>
        exact ⟨dropped, by simpa only [PairingState.step, hx, ht] using h.matched hx ht⟩
      | none => exact ⟨_, by simpa only [PairingState.step, hx, ht] using h.stray hx ht⟩

/-! ### Matchings in any order -/

/-- A matching of places of starts with later places of ends of the same
repetitions. -/
structure IsMatching (records : List Record) (matching : List (ℕ × ℕ)) : Prop where
  starts_nodup : (matching.map (·.1)).Nodup
  ends_nodup : (matching.map (·.2)).Nodup
  fst_lt_snd : ∀ p ∈ matching, p.1 < p.2
  sides : ∀ p ∈ matching, ∃ r,
    marks records .start r p.1 = true ∧ marks records .finish r p.2 = true

/-- In an ascending list, what stands in front of more than the smaller members is
smaller itself. -/
theorem lt_of_lt_countP {l : List ℕ} (h : l.Pairwise (· < ·)) {m e i : ℕ} (hi : l[m]? = some i)
    (hm : m < l.countP (· < e)) : i < e := by
  by_contra hle
  have hdrop : (l.drop m).countP (· < e) = 0 := by
    refine List.countP_eq_zero.mpr fun j hj => ?_
    obtain ⟨hlt, rfl⟩ := List.getElem?_eq_some_iff.mp hi
    rw [List.drop_eq_getElem_cons hlt] at hj
    have hasc := h.sublist (List.drop_sublist m l)
    rw [List.drop_eq_getElem_cons hlt, List.pairwise_cons] at hasc
    rcases List.mem_cons.mp hj with rfl | hj
    · simpa using hle
    · have := hasc.1 j hj
      simp only [decide_eq_true_eq]
      omega
  have htake : (l.take m).countP (· < e) ≤ m :=
    List.countP_le_length.trans (List.length_take_le m l)
  rw [← List.take_append_drop m l, List.countP_append, hdrop] at hm
  omega

theorem pairwise_places (records : List Record) (side : Side) (r : UInt32) :
    (places records side r).Pairwise (· < ·) :=
  List.pairwise_lt_range.filter _

/-- The matching that is first in, first out is one of them. -/
theorem IsFifo.isMatching {records : List Record} {matching : List (ℕ × ℕ)}
    (h : IsFifo records matching) (hnodup : (matching.map (·.1)).Nodup) :
    IsMatching records matching := by
  refine ⟨hnodup, h.ends_ascend.imp Nat.ne_of_lt, fun p hp => ?_, h.sides⟩
  obtain ⟨r, -, hf⟩ := h.sides p hp
  have hasc : ((ofRepetition records r matching).map (·.2)).Pairwise (· < ·) :=
    h.ends_ascend.sublist (List.filter_sublist.map _)
  have hturn := h.in_turn r _ p (getElem?_countP_lt hasc (List.mem_filter.mpr ⟨hp, hf⟩))
  exact lt_of_lt_countP (pairwise_places records .start r) hturn
    ((h.matched_iff r p.2 hf).mp (List.mem_map_of_mem hp))

namespace IsMatching

variable {records : List Record} {matching : List (ℕ × ℕ)}

/-- Of each repetition, the ends that exceed the starts in a front part stay unmatched. -/
theorem length_ofRepetition_add_le (h : IsMatching records matching) {front : List Record}
    (hfront : front <+: records) (r : UInt32) :
    (ofRepetition records r matching).length + sideCount front .finish r ≤
      sideCount records .finish r + sideCount front .start r := by
  obtain ⟨back, rfl⟩ := hfront
  set ms := ofRepetition (front ++ back) r matching with hms
  have hsub : ms.Sublist matching := List.filter_sublist
  have hfinish : ∀ p ∈ ms, marks (front ++ back) .finish r p.2 = true := fun p hp =>
    (List.mem_filter.mp hp).2
  have hstart : ∀ p ∈ ms, marks (front ++ back) .start r p.1 = true := fun p hp => by
    obtain ⟨r', hs, hf⟩ := h.sides p (hsub.subset hp)
    obtain ⟨-, rfl⟩ := marks_inj hf (hfinish p hp)
    exact hs
  set inside := ms.filter fun p => decide (p.2 < front.length) with hinside
  set outside := ms.filter fun p => !decide (p.2 < front.length) with houtside
  have hsplit : ms.length = inside.length + outside.length := List.length_eq_length_filter_add _
  -- The ends in the front part have their starts there.
  have hle : inside.length ≤ sideCount front .start r := by
    rw [← length_places, ← List.length_map (·.1)]
    refine (List.subperm_of_subset ?_ fun i hi => ?_).length_le
    · exact h.starts_nodup.sublist ((List.filter_sublist.trans hsub).map _)
    · obtain ⟨p, hp, rfl⟩ := List.mem_map.mp hi
      obtain ⟨hp, hlt⟩ := List.mem_filter.mp hp
      have hlt' : p.1 < front.length :=
        (h.fst_lt_snd p (hsub.subset hp)).trans (of_decide_eq_true hlt)
      exact mem_places.mpr ((marks_append hlt').symm.trans (hstart p hp))
  -- The others stand behind all ends of the front part.
  have hle' : outside.length + sideCount front .finish r ≤ sideCount (front ++ back) .finish r := by
    rw [← length_places, ← length_places, ← List.length_map (·.2), ← List.length_append]
    refine (List.subperm_of_subset ?_ fun i hi => ?_).length_le
    · refine List.nodup_append.mpr ⟨?_, nodup_places front .finish r, fun i hi j hj => ?_⟩
      · exact h.ends_nodup.sublist ((List.filter_sublist.trans hsub).map _)
      · obtain ⟨p, hp, rfl⟩ := List.mem_map.mp hi
        have hge := (List.mem_filter.mp hp).2
        have hlt := lt_of_marks (mem_places.mp hj)
        simp only [Bool.not_eq_true', decide_eq_false_iff_not] at hge
        omega
    · rcases List.mem_append.mp hi with hi | hi
      · obtain ⟨p, hp, rfl⟩ := List.mem_map.mp hi
        exact mem_places.mpr (hfinish p (List.mem_filter.mp hp).1)
      · have hm := mem_places.mp hi
        exact mem_places.mpr ((marks_append (lt_of_marks hm)).trans hm)
  omega

/-- Each member of a matching belongs to one repetition. -/
theorem sum_length_ofRepetition (h : IsMatching records matching) :
    ∑ r, (ofRepetition records r matching).length = matching.length := by
  rw [← sum_countP_key (fun p => records[p.2]?.elim 0 (·.repetition)) matching]
  refine Finset.sum_congr rfl fun r _ => ?_
  rw [ofRepetition, ← List.countP_eq_length_filter]
  refine List.countP_congr fun p hp => ?_
  obtain ⟨r', -, hf⟩ := h.sides p hp
  obtain ⟨x, hx, hside, rfl⟩ := marks_iff.mp hf
  simp [marks, hx, hside]

/-- No matching has more members than there are ends that pairing does not drop. -/
theorem length_add_le (h : IsMatching records matching) {s : PairingState}
    {dropped : UInt32 → ℕ} (ha : Accounts records s dropped) :
    matching.length + s.droppedEnds ≤ ∑ r, sideCount records .finish r := by
  rw [← h.sum_length_ofRepetition, ha.droppedEnds, ← Finset.sum_add_distrib]
  refine Finset.sum_le_sum fun r _ => ?_
  obtain ⟨⟨front, hfront, hd⟩, -⟩ := ha.isGreatest r
  have hle := h.length_ofRepetition_add_le hfront r
  omega

end IsMatching

/-- The ends that are not dropped are those of the pairs. -/
theorem length_pairs_add_droppedEnds (records : List Record) :
    (ofRecords records).pairs.length + (ofRecords records).droppedEnds =
      ∑ r, sideCount records .finish r := by
  obtain ⟨dropped, h⟩ := exists_accounts records
  have hopen : (ofRecords records).unmatchedStarts + ∑ r, sideCount records .finish r =
      ∑ r, sideCount records .start r + (ofRecords records).droppedEnds := by
    show (records.foldl PairingState.step .empty).pending.length + _ =
      _ + (records.foldl PairingState.step .empty).droppedEnds
    rw [← sum_openCount, h.droppedEnds, ← Finset.sum_add_distrib, ← Finset.sum_add_distrib]
    exact Finset.sum_congr rfl fun r _ => h.openCount r
  have hlength := length_ofRecords records
  have hsum := sum_sideCount records
  omega

/-- **Pairing loses no pair.** There are as many pairs as the largest matching of starts with
later ends of their repetitions has members. The dropped ends are, for all repetitions
together, the greatest surpluses of ends over starts in the front parts of the records, and
the open starts are the greatest surpluses of starts over ends in their back parts; the
empty part counts among both. -/
theorem isGreatest_length_pairs (records : List Record) :
    IsGreatest {n | ∃ matching, IsMatching records matching ∧ matching.length = n}
        (ofRecords records).pairs.length ∧
      (∃ dropped : UInt32 → ℕ, (∀ r, IsGreatest (frontSurpluses records r) (dropped r)) ∧
        (ofRecords records).droppedEnds = ∑ r, dropped r) ∧
      ∃ left : UInt32 → ℕ, (∀ r, IsGreatest (backSurpluses records r) (left r)) ∧
        (ofRecords records).unmatchedStarts = ∑ r, left r := by
  obtain ⟨dropped, ha⟩ := exists_accounts records
  obtain ⟨matching, hm⟩ := exists_follows records
  refine ⟨⟨⟨matching, hm.fifo.isMatching hm.starts_nodup, ?_⟩, ?_⟩, ⟨dropped, ha.isGreatest,
    ha.droppedEnds⟩, ⟨_, ha.isGreatest_openCount, (sum_openCount _).symm⟩⟩
  · rw [hm.pairs.length_eq, List.length_reverse, (perm_pairs records).length_eq]
  · rintro n ⟨other, ho, rfl⟩
    have hle : other.length + (ofRecords records).droppedEnds ≤
        ∑ r, sideCount records .finish r := ho.length_add_le ha
    have heq := length_pairs_add_droppedEnds records
    omega

end Pairing
end BenchLog
