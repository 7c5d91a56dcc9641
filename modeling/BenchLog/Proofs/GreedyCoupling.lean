/-
# Coupling rows is greedy

`coupleRows` never searches: it goes over the rows once, with a queue of free
rows for each repetition. What it gives out is what the obvious recursion gives
out, which takes the first row that remains, looks for the nearest later row of
its repetition, and goes on without the two (`coupleGreedily`). The invariant
is that the queue of a repetition holds the rows of it that are still to be
visited and still free, in order (`Queued`). The recursion in turn is the one
function that follows the greedy rule (`CoupledGreedily`), which says of each row
what becomes of it and knows no way to find its partner.

Key definitions: `coupleGreedily`, `CoupleState.free`, `CoupleState.Queued`,
`CoupledGreedily`.
Key theorems: `CoupleState.foldl_visit`, `coupleRows_eq_coupleGreedily`,
`coupleRows_eq_iff`.
-/
import Mathlib.Data.List.Nodup
import BenchLog.Queue
import BenchLog.Sequencing

namespace BenchLog

/-! ### The recursion -/

theorem length_of_takeFirst {p : α → Bool} {as rest : List α} {b : α}
    (h : takeFirst p as = some (b, rest)) : as.length = rest.length + 1 := by
  obtain ⟨front, back, rfl, rfl, -, -⟩ := takeFirst_eq_some_iff.mp h
  simp only [List.length_append, List.length_cons]
  omega

theorem takeFirst_map (f : α → β) (p : β → Bool) (as : List α) :
    takeFirst p (as.map f) =
      (takeFirst (fun a => p (f a)) as).map fun t => (f t.1, t.2.map f) := by
  induction as with
  | nil => rfl
  | cons a as ih =>
    by_cases h : p (f a) = true
    · simp [takeFirst, h]
    · simp [takeFirst, h, ih, Function.comp_def]

/-- Couples the first row with the nearest later one of its repetition, or drops
it, and goes on with the rows that remain. -/
def coupleGreedily : List (UInt32 × Float) → List (UInt32 × Float)
  | [] => []
  | row :: rows =>
    match _h : takeFirst (·.1 == row.1) rows with
    | some (partner, rest) => row :: partner :: coupleGreedily rest
    | none => coupleGreedily rows
termination_by rows => rows.length
decreasing_by
  · have := length_of_takeFirst _h
    simp only [List.length_cons]
    omega
  · simp

theorem coupleGreedily_of_partner {row partner : UInt32 × Float} {rows rest : List (UInt32 × Float)}
    (h : takeFirst (·.1 == row.1) rows = some (partner, rest)) :
    coupleGreedily (row :: rows) = row :: partner :: coupleGreedily rest := by
  rw [coupleGreedily]
  split
  · rename_i p r hp
    rw [h] at hp
    cases hp
    rfl
  · rename_i hn
    rw [h] at hn
    cases hn

theorem coupleGreedily_of_alone {row : UInt32 × Float} {rows : List (UInt32 × Float)}
    (h : takeFirst (·.1 == row.1) rows = none) :
    coupleGreedily (row :: rows) = coupleGreedily rows := by
  rw [coupleGreedily]
  split
  · rename_i p r hp
    rw [h] at hp
    cases hp
  · rfl

namespace CoupleState

/-! ### The queues -/

/-- Rows with their indices, as the visits take them. -/
abbrev IndexedRow := (UInt32 × Float) × ℕ

/-- The queue of a repetition for some rows. -/
def queueOf (id : UInt32) (rows : List IndexedRow) : List (ℕ × Float) :=
  (rows.filter (·.1.1 == id)).map fun row => (row.2, row.1.2)

/-- The rows still to be visited that are not consumed. -/
def free (s : CoupleState) (todo : List IndexedRow) : List IndexedRow :=
  todo.filter fun row => !s.consumed.getD row.2 false

/-- The queues hold the free rows that are still to be visited. -/
structure Queued (s : CoupleState) (todo : List IndexedRow) : Prop where
  indices_nodup : (todo.map (·.2)).Nodup
  index_lt : ∀ row ∈ todo, row.2 < s.consumed.size
  queues : ∀ id, s.queues.getD id [] = queueOf id (s.free todo)

theorem getD_fill (rows : List IndexedRow) (id : UInt32) :
    (rows.foldr (fun ((id, x), i) queues => queues.insert id ((i, x) :: queues.getD id []))
      (∅ : RowQueues)).getD id [] = queueOf id rows := by
  induction rows with
  | nil => simp [queueOf]
  | cons row rows ih =>
    obtain ⟨⟨key, x⟩, i⟩ := row
    rw [List.foldr_cons, Std.HashMap.getD_insert]
    by_cases h : key = id
    · subst h
      simp [queueOf, ih]
    · simp [queueOf, ih, h]

theorem free_initial (rows : List (UInt32 × Float)) :
    (initial rows).free rows.zipIdx = rows.zipIdx :=
  List.filter_eq_self.mpr fun row _ => by
    rw [initial, Array.getD_eq_getD_getElem?, Array.getElem?_replicate]
    split <;> rfl

theorem initial_queued (rows : List (UInt32 × Float)) : (initial rows).Queued rows.zipIdx := by
  refine ⟨?_, fun row hrow => ?_, fun id => ?_⟩
  · rw [List.zipIdx_map_snd]
    exact List.nodup_range'
  · have := List.snd_lt_of_mem_zipIdx hrow
    simpa [initial] using this
  · rw [free_initial]
    exact getD_fill rows.zipIdx id

/-! ### One visit -/

variable {s : CoupleState} {row : IndexedRow} {todo : List IndexedRow}

theorem free_cons (s : CoupleState) (row : IndexedRow) (todo : List IndexedRow) :
    s.free (row :: todo) =
      if s.consumed.getD row.2 false then s.free todo else row :: s.free todo := by
  by_cases h : s.consumed.getD row.2 false = true
  · rw [if_pos h, free, List.filter_cons_of_neg (by simp [h]), free]
  · rw [if_neg h, free, List.filter_cons_of_pos (by simpa using h), free]

theorem queueOf_cons_self (row : IndexedRow) (rows : List IndexedRow) :
    queueOf row.1.1 (row :: rows) = (row.2, row.1.2) :: queueOf row.1.1 rows := by
  simp [queueOf]

theorem queueOf_cons_of_ne {row : IndexedRow} {id : UInt32} (h : row.1.1 ≠ id)
    (rows : List IndexedRow) : queueOf id (row :: rows) = queueOf id rows := by
  simp [queueOf, h]

theorem queueOf_append (id : UInt32) (rows more : List IndexedRow) :
    queueOf id (rows ++ more) = queueOf id rows ++ queueOf id more := by
  simp [queueOf]

theorem queueOf_eq_nil {id : UInt32} {rows : List IndexedRow} :
    queueOf id rows = [] ↔ ∀ row ∈ rows, (row.1.1 == id) = false := by
  simp [queueOf]

/-- Consuming an index takes its row out of the free ones. -/
theorem free_consume (s : CoupleState) (todo : List IndexedRow) {i : ℕ}
    (hi : i < s.consumed.size) (queues : RowQueues) (output : List (UInt32 × Float)) :
    free ⟨queues, s.consumed.setIfInBounds i true, output⟩ todo =
      (s.free todo).filter fun row => row.2 ≠ i := by
  rw [free, free, List.filter_filter]
  refine List.filter_congr fun row _ => ?_
  by_cases h : row.2 = i
  · simp [h, Array.getD_eq_getD_getElem?, hi]
  · simp [h, Array.getD_eq_getD_getElem?, Array.getElem?_setIfInBounds_ne (Ne.symm h)]

theorem filter_ne_of_not_mem {rows : List IndexedRow} {i : ℕ} (h : i ∉ rows.map (·.2)) :
    (rows.filter fun row => row.2 ≠ i) = rows :=
  List.filter_eq_self.mpr fun row hrow => by
    have : row.2 ≠ i := fun he => h (he ▸ List.mem_map_of_mem hrow)
    simpa using this

/-- A row that is consumed already changes nothing. -/
theorem Queued.visit_consumed (h : s.Queued (row :: todo))
    (hc : s.consumed.getD row.2 false = true) : s.visit row = s ∧ s.Queued todo := by
  refine ⟨by simp [visit, hc], ?_, fun r hr => h.index_lt r (List.mem_cons_of_mem _ hr), ?_⟩
  · exact (List.nodup_cons.mp h.indices_nodup).2
  · intro id
    rw [h.queues id, free_cons, if_pos hc]

/-- A free row without a partner is dropped. -/
theorem Queued.visit_alone (h : s.Queued (row :: todo))
    (hc : s.consumed.getD row.2 false = false)
    (ht : takeFirst (·.1.1 == row.1.1) (s.free todo) = none) :
    (s.visit row).output = s.output ∧ (s.visit row).free todo = s.free todo ∧
      (s.visit row).Queued todo := by
  obtain ⟨hi, hnd⟩ := List.nodup_cons.mp h.indices_nodup
  have hlt := h.index_lt row List.mem_cons_self
  have hnil : queueOf row.1.1 (s.free todo) = [] :=
    queueOf_eq_nil.mpr (takeFirst_eq_none_iff.mp ht)
  have hqueue : s.queues.getD row.1.1 [] = [(row.2, row.1.2)] := by
    rw [h.queues, free_cons, if_neg (by simp [hc]), queueOf_cons_self, hnil]
  have hvisit : s.visit row =
      ⟨s.queues.insert row.1.1 [], s.consumed.setIfInBounds row.2 true, s.output⟩ := by
    simp [visit, hc, hqueue]
  have hfree : (s.visit row).free todo = s.free todo := by
    rw [hvisit, free_consume s todo hlt]
    exact filter_ne_of_not_mem fun hm => hi ((List.filter_sublist.map _).subset hm)
  refine ⟨by rw [hvisit], hfree, hnd, fun r hr => ?_, fun id => ?_⟩
  · simpa [hvisit] using h.index_lt r (List.mem_cons_of_mem _ hr)
  · rw [hfree, hvisit]
    simp only [Std.HashMap.getD_insert]
    by_cases hid : row.1.1 = id
    · subst hid
      simp [hnil]
    · rw [if_neg (by simpa using hid), h.queues, free_cons, if_neg (by simp [hc]),
        queueOf_cons_of_ne hid]

/-- A free row with a partner is given out with it. -/
theorem Queued.visit_partner (h : s.Queued (row :: todo))
    (hc : s.consumed.getD row.2 false = false) {partner : IndexedRow} {rest : List IndexedRow}
    (ht : takeFirst (·.1.1 == row.1.1) (s.free todo) = some (partner, rest)) :
    (s.visit row).output = partner.1 :: row.1 :: s.output ∧ (s.visit row).free todo = rest ∧
      (s.visit row).Queued todo := by
  obtain ⟨hi, hnd⟩ := List.nodup_cons.mp h.indices_nodup
  -- The partner is the first row of the repetition among the free ones.
  obtain ⟨front, back, hsplit, rfl, hp, hfront⟩ := takeFirst_eq_some_iff.mp ht
  have hid : partner.1.1 = row.1.1 := by simpa using hp
  have hlt := h.index_lt row List.mem_cons_self
  have hsub : (s.free todo).Sublist todo := List.filter_sublist
  have hmem : partner ∈ todo := hsub.subset (by simp [hsplit])
  have hlt' := h.index_lt partner (List.mem_cons_of_mem _ hmem)
  have hfrontQueue : queueOf row.1.1 front = [] := queueOf_eq_nil.mpr hfront
  have hqueue : s.queues.getD row.1.1 [] =
      (row.2, row.1.2) :: (partner.2, partner.1.2) :: queueOf row.1.1 back := by
    rw [h.queues, free_cons, if_neg (by simp [hc]), queueOf_cons_self, hsplit, queueOf_append,
      hfrontQueue, List.nil_append, ← hid, queueOf_cons_self]
  have hvisit : s.visit row = ⟨s.queues.insert row.1.1 (queueOf row.1.1 back),
      (s.consumed.setIfInBounds row.2 true).setIfInBounds partner.2 true,
      partner.1 :: row.1 :: s.output⟩ := by
    have hpartner : (row.1.1, partner.1.2) = partner.1 := Prod.ext hid.symm rfl
    simp [visit, hc, hqueue, hpartner]
  have hfree : (s.visit row).free todo = front ++ back := by
    have hne : ((front ++ partner :: back).map (·.2)).Nodup :=
      hsplit ▸ hnd.sublist (hsub.map _)
    rw [List.map_append, List.map_cons, List.nodup_append] at hne
    obtain ⟨-, hback, hdisj⟩ := hne
    have hrow : row.2 ∉ (s.free todo).map (·.2) := fun hm => hi ((hsub.map _).subset hm)
    rw [hvisit, free_consume ⟨s.queues, s.consumed.setIfInBounds row.2 true, s.output⟩ todo
      (by simpa using hlt'), free_consume s todo hlt,
      filter_ne_of_not_mem hrow,
      hsplit, List.filter_append, List.filter_cons_of_neg (by simp),
      filter_ne_of_not_mem fun hm => hdisj _ hm _ List.mem_cons_self rfl,
      filter_ne_of_not_mem (List.nodup_cons.mp hback).1]
  refine ⟨by rw [hvisit], hfree, hnd, fun r hr => ?_, fun id => ?_⟩
  · simpa [hvisit] using h.index_lt r (List.mem_cons_of_mem _ hr)
  · rw [hfree, hvisit]
    simp only [Std.HashMap.getD_insert]
    by_cases hk : row.1.1 = id
    · subst hk
      simp [queueOf_append, hfrontQueue]
    · rw [if_neg (by simpa using hk), h.queues, free_cons, if_neg (by simp [hc]),
        queueOf_cons_of_ne hk, hsplit, queueOf_append, queueOf_append,
        queueOf_cons_of_ne (hid ▸ hk)]

/-! ### All visits -/

/-- The visits give out the free rows as the recursion does. -/
theorem foldl_visit : ∀ (todo : List IndexedRow) (s : CoupleState), s.Queued todo →
    (todo.foldl visit s).output =
      (coupleGreedily ((s.free todo).map (·.1))).reverse ++ s.output
  | [], s, _ => by simp [free, coupleGreedily]
  | row :: todo, s, h => by
    rw [List.foldl_cons]
    cases hc : s.consumed.getD row.2 false with
    | true =>
      obtain ⟨hv, hq⟩ := h.visit_consumed hc
      rw [hv, foldl_visit todo s hq, free_cons, if_pos hc]
    | false =>
      rw [free_cons, if_neg (by simp [hc]), List.map_cons]
      have hmap := takeFirst_map (Prod.fst : IndexedRow → UInt32 × Float) (·.1 == row.1.1)
        (s.free todo)
      cases ht : takeFirst (·.1.1 == row.1.1) (s.free todo) with
      | none =>
        obtain ⟨ho, hf, hq⟩ := h.visit_alone hc ht
        rw [ht] at hmap
        rw [foldl_visit todo _ hq, ho, hf, coupleGreedily_of_alone hmap]
      | some taken =>
        obtain ⟨partner, rest⟩ := taken
        obtain ⟨ho, hf, hq⟩ := h.visit_partner hc ht
        rw [ht] at hmap
        rw [foldl_visit todo _ hq, ho, hf, coupleGreedily_of_partner hmap]
        simp

end CoupleState

theorem coupleRows_eq_coupleGreedily (rows : List (UInt32 × Float)) :
    coupleRows rows = coupleGreedily rows := by
  have hq := CoupleState.initial_queued rows
  rw [coupleRows, CoupleState.foldl_visit _ _ hq, CoupleState.free_initial, List.zipIdx_map_fst]
  simp [CoupleState.initial]

/-! ### The rule -/

/-- What the greedy rule gives out: the first row that remains goes out with the nearest later
one of its repetition, and the two are removed; a row that no other of its repetition follows
is dropped. -/
inductive CoupledGreedily : List (UInt32 × Float) → List (UInt32 × Float) → Prop
  | done : CoupledGreedily [] []
  | couple {row partner : UInt32 × Float} {front back output : List (UInt32 × Float)} :
      (∀ other ∈ front, other.1 ≠ row.1) → partner.1 = row.1 →
        CoupledGreedily (front ++ back) output →
          CoupledGreedily (row :: (front ++ partner :: back)) (row :: partner :: output)
  | drop {row : UInt32 × Float} {rows output : List (UInt32 × Float)} :
      (∀ other ∈ rows, other.1 ≠ row.1) → CoupledGreedily rows output →
        CoupledGreedily (row :: rows) output

theorem coupledGreedily_coupleGreedily (rows : List (UInt32 × Float)) :
    CoupledGreedily rows (coupleGreedily rows) := by
  fun_induction coupleGreedily rows with
  | case1 => exact .done
  | case2 row rows partner rest h ih =>
    obtain ⟨front, back, rfl, rfl, hpartner, hfront⟩ := takeFirst_eq_some_iff.mp h
    refine .couple (fun other hother => ?_) (beq_iff_eq.mp hpartner) ih
    exact beq_eq_false_iff_ne.mp (hfront other hother)
  | case3 row rows h ih =>
    refine .drop (fun other hother => ?_) ih
    exact beq_eq_false_iff_ne.mp (takeFirst_eq_none_iff.mp h other hother)

/-- The rule leaves no choice. -/
theorem CoupledGreedily.eq_coupleGreedily {rows output : List (UInt32 × Float)}
    (h : CoupledGreedily rows output) : coupleGreedily rows = output := by
  induction h with
  | done => rw [coupleGreedily]
  | @couple row partner front back output hfront hpartner _ ih =>
    have htake : takeFirst (·.1 == row.1) (front ++ partner :: back) =
        some (partner, front ++ back) :=
      takeFirst_eq_some_iff.mpr ⟨front, back, rfl, rfl, beq_iff_eq.mpr hpartner,
        fun other hother => beq_eq_false_iff_ne.mpr (hfront other hother)⟩
    rw [coupleGreedily_of_partner htake, ih]
  | @drop row rows output hrows _ ih =>
    have htake : takeFirst (·.1 == row.1) rows = none :=
      takeFirst_eq_none_iff.mpr fun other hother =>
        beq_eq_false_iff_ne.mpr (hrows other hother)
    rw [coupleGreedily_of_alone htake, ih]

/-- **One pass over the queues couples as the greedy rule does, and as nothing else does.** -/
theorem coupleRows_eq_iff {rows output : List (UInt32 × Float)} :
    coupleRows rows = output ↔ CoupledGreedily rows output := by
  rw [coupleRows_eq_coupleGreedily]
  constructor
  · rintro rfl
    exact coupledGreedily_coupleGreedily rows
  · exact CoupledGreedily.eq_coupleGreedily

end BenchLog
