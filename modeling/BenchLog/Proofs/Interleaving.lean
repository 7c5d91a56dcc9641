/-
# Pairing does not see how repetitions interleave

A record meets only the records of its own repetition: what pairing has come to
after some records, restricted to one repetition, is what it comes to on the
records of that repetition alone (`Shows`, `foldl_shows`). So two lists that
agree on each repetition give the same pairs in some order, and the same number
of open starts. As no record gets lost (`size_foldl`), the dropped ends are as
many, too. Sorting does the rest: a sorted list is given by its members of each
key (`eq_of_filter_key`).

Key definitions: `PairingState.Shows`, `PairingState.size`.
Key theorems: `PairingState.foldl_shows`, `PairingState.size_foldl`,
`eq_of_filter_key`, `Pairing.ofRecords_of_interleaved`.
-/
import Mathlib.Data.List.Perm.Basic
import BenchLog.Proofs.FifoPairing
import BenchLog.Proofs.GreedyCoupling

namespace BenchLog

/-! ### Lists by the keys of their members -/

section Keys

variable {α κ : Type*} {key : α → κ} {as bs : List α}

/-- Two lists whose members of each key are the same in some order are the same
in some order. -/
theorem perm_of_filter_key [DecidableEq κ]
    (h : ∀ k, (as.filter fun a => key a = k).Perm (bs.filter fun b => key b = k)) :
    as.Perm bs := by
  classical
  refine List.perm_iff_count.mpr fun a => ?_
  have hown : ∀ l : List α, l.count a = (l.filter fun b => key b = key a).count a := fun l =>
    (List.count_filter (by simp)).symm
  rw [hown as, hown bs, (h (key a)).count_eq]

/-- A sorted list is given by its members of each key, in their order. -/
theorem eq_of_filter_key [LinearOrder κ] :
    ∀ {as bs : List α}, as.Pairwise (fun a b => key a ≤ key b) →
      bs.Pairwise (fun a b => key a ≤ key b) →
      (∀ k, as.filter (fun a => decide (key a = k)) = bs.filter fun b => decide (key b = k)) →
      as = bs
  | [], [], _, _, _ => rfl
  | [], b :: bs, _, _, h => by simpa using h (key b)
  | a :: as, [], _, _, h => by simpa using h (key a)
  | a :: as, b :: bs, ha, hb, h => by
    have hmem : ∀ k, (∃ x ∈ a :: as, key x = k) ↔ ∃ x ∈ b :: bs, key x = k := by
      intro k
      have hk := congrArg (· ≠ []) (h k)
      simpa only [ne_eq, List.filter_eq_nil_iff, decide_eq_true_eq, not_forall, not_not,
        exists_prop, eq_iff_iff] using hk
    -- The two first members have the least key.
    have hle : ∀ {c : α} {cs : List α}, (c :: cs).Pairwise (fun x y => key x ≤ key y) →
        ∀ x ∈ c :: cs, key c ≤ key x := by
      intro c cs hc x hx
      rcases List.mem_cons.mp hx with rfl | hx
      · exact le_rfl
      · exact (List.pairwise_cons.mp hc).1 x hx
    have hkey : key a = key b := by
      obtain ⟨x, hx, hxa⟩ := (hmem (key a)).mp ⟨a, List.mem_cons_self, rfl⟩
      obtain ⟨y, hy, hyb⟩ := (hmem (key b)).mpr ⟨b, List.mem_cons_self, rfl⟩
      exact le_antisymm (hyb ▸ hle ha y hy) (hxa ▸ hle hb x hx)
    have hown := h (key a)
    rw [List.filter_cons_of_pos (by simp), List.filter_cons_of_pos (by simp [hkey]),
      List.cons.injEq] at hown
    obtain ⟨rfl, -⟩ := hown
    have hrest : as = bs :=
      eq_of_filter_key ha.of_cons hb.of_cons fun k => by
        have hk := h k
        by_cases hak : key a = k
        · rwa [List.filter_cons_of_pos (by simpa using hak),
            List.filter_cons_of_pos (by simpa using hak), List.cons.injEq, and_iff_right rfl] at hk
        · rwa [List.filter_cons_of_neg (by simpa using hak),
            List.filter_cons_of_neg (by simpa using hak)] at hk
    rw [hrest]

end Keys

/-! ### One repetition -/

/-- Taking the first of a kind out of the part of a queue that all of the kind
are in. -/
theorem takeFirst_filter {p q : α → Bool} (h : ∀ a, p a = true → q a = true) (as : List α) :
    takeFirst p (as.filter q) = (takeFirst p as).map fun t => (t.1, t.2.filter q) := by
  induction as with
  | nil => rfl
  | cons a as ih =>
    by_cases hp : p a = true
    · simp [takeFirst, hp, h a hp]
    · by_cases hq : q a = true
      · simp [takeFirst, hp, hq, ih, Function.comp_def]
      · simp [takeFirst, hp, hq, ih, Function.comp_def]

namespace PairingState

/-- The second state is what the first one has come to for one repetition. -/
structure Shows (r : UInt32) (s t : PairingState) : Prop where
  pending : t.pending = s.pending.filter fun x => x.repetition = r
  pairs : t.pairs = s.pairs.filter fun p => p.repetition = r
  droppedEnds_le : t.droppedEnds ≤ s.droppedEnds

namespace Shows

variable {r : UInt32} {s t : PairingState} {x : Record}

/-- A record of the repetition does the same to both. -/
theorem step_same (h : Shows r s t) (hx : x.repetition = r) : Shows r (s.step x) (t.step x) := by
  cases hside : x.side with
  | start =>
    rw [step_start hside, step_start hside]
    exact ⟨by simp [h.pending, hx], h.pairs, h.droppedEnds_le⟩
  | finish =>
    have htake : takeFirst (·.repetition == x.repetition) t.pending =
        (takeFirst (·.repetition == x.repetition) s.pending).map fun f =>
          (f.1, f.2.filter fun y => y.repetition = r) := by
      rw [h.pending]
      exact takeFirst_filter (by simp [hx]) _
    cases hs : takeFirst (·.repetition == x.repetition) s.pending with
    | none =>
      rw [hs] at htake
      simp only [step, hside, hs, htake, Option.map_none]
      exact ⟨h.pending, h.pairs, Nat.succ_le_succ h.droppedEnds_le⟩
    | some taken =>
      obtain ⟨y, others⟩ := taken
      rw [hs] at htake
      simp only [step, hside, hs, htake, Option.map_some]
      exact ⟨rfl, by simp [RepetitionPair.repetition, hx, h.pairs], h.droppedEnds_le⟩

/-- A record of another repetition changes nothing that can be seen. -/
theorem step_other (h : Shows r s t) (hx : x.repetition ≠ r) : Shows r (s.step x) t := by
  cases hside : x.side with
  | start =>
    rw [step_start hside]
    exact ⟨by simp [h.pending, hx], h.pairs, h.droppedEnds_le⟩
  | finish =>
    cases hs : takeFirst (·.repetition == x.repetition) s.pending with
    | none =>
      simp only [step, hside, hs]
      exact ⟨h.pending, h.pairs, Nat.le_succ_of_le h.droppedEnds_le⟩
    | some taken =>
      obtain ⟨y, others⟩ := taken
      obtain ⟨front, back, hsplit, rfl, hy, -⟩ := takeFirst_eq_some_iff.mp hs
      have hyr : y.repetition ≠ r := by
        rw [beq_iff_eq.mp hy]
        exact hx
      simp only [step, hside, hs]
      refine ⟨?_, by simp [RepetitionPair.repetition, hx, h.pairs], h.droppedEnds_le⟩
      rw [h.pending, hsplit, List.filter_append, List.filter_cons_of_neg (by simpa using hyr),
        List.filter_append]

end Shows

/-- Of one repetition, a run shows what a run on its records alone comes to. -/
theorem foldl_shows (r : UInt32) : ∀ (records : List Record) {s t : PairingState}, Shows r s t →
    Shows r (records.foldl step s) ((records.filter fun x => x.repetition = r).foldl step t)
  | [], _, _, h => h
  | x :: records, s, t, h => by
    by_cases hx : x.repetition = r
    · rw [List.filter_cons_of_pos (by simpa using hx)]
      exact foldl_shows r records (h.step_same hx)
    · rw [List.filter_cons_of_neg (by simpa using hx)]
      exact foldl_shows r records (h.step_other hx)

theorem shows_of_empty (r : UInt32) (records : List Record) :
    Shows r (records.foldl step .empty)
      ((records.filter fun x => x.repetition = r).foldl step .empty) :=
  foldl_shows r records ⟨rfl, rfl, le_rfl⟩

/-! ### No record gets lost -/

/-- The number of records that a state accounts for. -/
def size (s : PairingState) : ℕ :=
  2 * s.pairs.length + s.droppedEnds + s.pending.length

theorem size_step (s : PairingState) (x : Record) : (s.step x).size = s.size + 1 := by
  cases hside : x.side with
  | start =>
    simp only [step_start hside, size, List.length_append, List.length_singleton]
    omega
  | finish =>
    cases htake : takeFirst (·.repetition == x.repetition) s.pending with
    | none =>
      simp only [step, hside, htake, size]
      omega
    | some taken =>
      have hlength := length_of_takeFirst htake
      simp only [step, hside, htake, size, List.length_cons]
      omega

theorem size_foldl (records : List Record) (s : PairingState) :
    (records.foldl step s).size = s.size + records.length := by
  induction records generalizing s with
  | nil => rfl
  | cons x records ih =>
    rw [List.foldl_cons, ih, size_step, List.length_cons]
    omega

end PairingState

namespace Pairing

/-- Each record is in a pair, dropped or left over. -/
theorem length_ofRecords (records : List Record) :
    2 * (ofRecords records).pairs.length + (ofRecords records).droppedEnds +
      (ofRecords records).unmatchedStarts = records.length := by
  have hsize := PairingState.size_foldl records .empty
  have hempty : PairingState.empty.size = 0 := rfl
  rw [hempty, Nat.zero_add, PairingState.size] at hsize
  rw [(perm_pairs records).length_eq]
  exact hsize

/-- **Pairing does not depend on the interleaving.** Two lists that have the same
records of each repetition, in the same order, lead to as many dropped ends, as
many open starts and the same pairs in some order; and if no two of the pairs
have the same lines, the order is the same, too. -/
theorem ofRecords_of_interleaved {records others : List Record}
    (h : ∀ r, (records.filter fun x => x.repetition = r) =
      others.filter fun x => x.repetition = r) :
    (ofRecords records).droppedEnds = (ofRecords others).droppedEnds ∧
      (ofRecords records).unmatchedStarts = (ofRecords others).unmatchedStarts ∧
      (ofRecords records).pairs.Perm (ofRecords others).pairs ∧
      (((ofRecords records).pairs.map (·.lineKey)).Nodup →
        (ofRecords records).pairs = (ofRecords others).pairs) := by
  set s := records.foldl PairingState.step .empty with hs
  set t := others.foldl PairingState.step .empty with ht
  -- Both runs show the same of each repetition.
  have hpending : s.pending.Perm t.pending :=
    perm_of_filter_key fun r => by
      rw [← (PairingState.shows_of_empty r records).pending, h r,
        (PairingState.shows_of_empty r others).pending]
  have hpairs : s.pairs.Perm t.pairs :=
    perm_of_filter_key fun r => by
      rw [← (PairingState.shows_of_empty r records).pairs, h r,
        (PairingState.shows_of_empty r others).pairs]
  have hrecords : records.Perm others := perm_of_filter_key fun r => by rw [h r]
  have hperm : (ofRecords records).pairs.Perm (ofRecords others).pairs :=
    (perm_pairs records).trans (hpairs.trans (perm_pairs others).symm)
  have hopen : (ofRecords records).unmatchedStarts = (ofRecords others).unmatchedStarts :=
    hpending.length_eq
  refine ⟨?_, hopen, hperm, fun hnodup => ?_⟩
  · have hlength := length_ofRecords records
    have hlength' := length_ofRecords others
    rw [hperm.length_eq, hopen, hrecords.length_eq, ← hlength'] at hlength
    omega
  · refine eq_of_filter_key (pairwise_pairs records) (pairwise_pairs others) fun k => ?_
    -- At most one pair has the key, so there is one order only.
    have hk : ((ofRecords records).pairs.filter fun p => decide (p.lineKey = k)).length ≤ 1 :=
      calc ((ofRecords records).pairs.filter fun p => decide (p.lineKey = k)).length
          = ((ofRecords records).pairs.map (·.lineKey)).count k := by
            rw [List.count_eq_countP, List.countP_map, List.countP_eq_length_filter]
            exact congrArg _ (List.filter_congr fun p _ => (beq_eq_decide p.lineKey k).symm)
        _ ≤ 1 := List.nodup_iff_count_le_one.mp hnodup k
    have hsame := hperm.filter fun p => decide (p.lineKey = k)
    generalize (ofRecords records).pairs.filter (fun p => decide (p.lineKey = k)) = ps at hk hsame
    match ps, hk, hsame with
    | [], _, hsame => exact hsame.symm.eq_nil.symm
    | [p], _, hsame => exact (List.perm_singleton.mp hsame.symm).symm

/-- Two repetitions, nested in one list and one after the other in the second. -/
theorem ofRecords_of_nested_and_sequential :
    let start (r : UInt32) (line : ℕ) : Record := ⟨.start, r, 10, line⟩
    let finish (r : UInt32) (line : ℕ) : Record := ⟨.finish, r, 30, line⟩
    let nested := [start 1 0, start 2 1, finish 2 2, finish 1 3]
    let sequential := [start 1 0, finish 1 3, start 2 1, finish 2 2]
    (∀ r, (nested.filter fun x => x.repetition = r) =
        sequential.filter fun x => x.repetition = r) ∧
      ((ofRecords nested).pairs.map (·.lineKey)).Nodup ∧
      (ofRecords nested).pairs = (ofRecords sequential).pairs := by
  intro start finish nested sequential
  have hsame : ∀ r, (nested.filter fun x => x.repetition = r) =
      sequential.filter fun x => x.repetition = r := by
    intro r
    by_cases h1 : (1 : UInt32) = r
    · subst h1
      rfl
    · by_cases h2 : (2 : UInt32) = r
      · subst h2
        rfl
      · simp [nested, sequential, start, finish, h1, h2]
  have hnodup : ((ofRecords nested).pairs.map (·.lineKey)).Nodup := by
    refine ((perm_pairs nested).map (·.lineKey)).nodup_iff.mpr ?_
    decide
  obtain ⟨-, -, -, hpairs⟩ := ofRecords_of_interleaved hsame
  exact ⟨hsame, hnodup, hpairs hnodup⟩

end Pairing
end BenchLog
