/-
# Every row is consumed once

Coupling visits the rows in order, and a visit takes its row for the front of the queue without
looking. This is right because of what holds before every visit (`Swept`): the queue of a
repetition holds the indices of its rows from here on that are not consumed, in ascending order;
all rows behind are consumed; and the rows of a repetition are consumed in their order. So a row
that is not consumed stands at the front of its queue, and since no later row of its repetition
is consumed either, the next one in the queue is the nearest one of all (`Takes`). Over all
visits every index is consumed exactly once (`consumedBy_perm_range`).

Key definitions: `CoupleState.before`, `CoupleState.consumes`, `CoupleState.consumedBy`,
`CoupleState.Swept`, `CoupleState.Takes`.
Key theorems: `CoupleState.swept_before`, `CoupleState.Swept.takes`,
`CoupleState.consumedBy_perm_range`, `CoupleState.queues_before`.
-/
import Mathlib.Order.Nat
import BenchLog.Proofs.CouplePlaces

namespace BenchLog

namespace CoupleState

/-! ### Visits -/

/-- The state before the visit of an index. -/
def before (rows : List (UInt32 × Float)) (i : ℕ) : CoupleState :=
  (rows.zipIdx.take i).foldl visit (initial rows)

/-- The indices that a visit takes from its queue and consumes: none if the row is consumed
already, and else the two at the front, or the only one. -/
def consumes (s : CoupleState) (row : IndexedRow) : List ℕ :=
  if s.consumed.getD row.2 false then []
  else ((s.queues.getD row.1.1 []).take 2).map (·.1)

/-- The indices that visits consume one after the other. -/
def consumedBy : List IndexedRow → CoupleState → List ℕ
  | [], _ => []
  | row :: todo, s => s.consumes row ++ consumedBy todo (s.visit row)

variable {rows : List (UInt32 × Float)} {s : CoupleState} {row : IndexedRow}
  {todo : List IndexedRow} {i j k : ℕ} {id : UInt32} {x y : Float}

theorem coupleRows_eq_output_before (rows : List (UInt32 × Float)) :
    coupleRows rows = (before rows rows.length).output.reverse := by
  rw [before, List.take_of_length_le (List.length_zipIdx ..).le, coupleRows]

theorem before_succ (h : rows[i]? = some (id, x)) :
    before rows (i + 1) = (before rows i).visit ((id, x), i) := by
  have hrow : rows.zipIdx[i]? = some ((id, x), i) := by
    rw [List.getElem?_zipIdx, h, Nat.zero_add]
    rfl
  rw [before, List.take_add_one, hrow, List.foldl_append]
  rfl

theorem before_succ_of_length_le (h : rows.length ≤ i) : before rows (i + 1) = before rows i := by
  have hall : rows.zipIdx.length ≤ i := (List.length_zipIdx ..).le.trans h
  rw [before, before, List.take_of_length_le hall, List.take_of_length_le (hall.trans i.le_succ)]

theorem drop_zipIdx_eq_cons (h : rows[i]? = some (id, x)) :
    rows.zipIdx.drop i = ((id, x), i) :: rows.zipIdx.drop (i + 1) := by
  obtain ⟨hlt, hrow⟩ := List.getElem?_eq_some_iff.mp h
  rw [List.drop_eq_getElem_cons (by rwa [List.length_zipIdx]), List.getElem_zipIdx, hrow,
    Nat.zero_add]

theorem mem_drop_zipIdx : ((id, x), j) ∈ rows.zipIdx.drop i ↔ i ≤ j ∧ rows[j]? = some (id, x) := by
  have hdrop : rows.zipIdx.drop i = (rows.drop i).zipIdx i :=
    List.ext_getElem? fun k => by
      rw [List.getElem?_drop, List.getElem?_zipIdx, List.getElem?_zipIdx, List.getElem?_drop,
        Nat.zero_add]
  rw [hdrop, List.mk_mem_zipIdx_iff_le_and_getElem?_sub, List.getElem?_drop]
  exact and_congr_right fun hle => by rw [Nat.add_sub_of_le hle]

/-! ### What a visit consumes -/

theorem mem_queueOf {rows : List IndexedRow} : (j, x) ∈ queueOf id rows ↔ ((id, x), j) ∈ rows := by
  constructor
  · intro h
    obtain ⟨⟨⟨id', x'⟩, j'⟩, hkept, heq⟩ := List.mem_map.mp h
    cases heq
    obtain ⟨hrow, hid⟩ := List.mem_filter.mp hkept
    obtain rfl : id' = id := beq_iff_eq.mp hid
    exact hrow
  · intro h
    exact List.mem_map.mpr ⟨_, List.mem_filter.mpr ⟨h, beq_self_eq_true id⟩, rfl⟩

theorem mem_free : row ∈ s.free todo ↔ row ∈ todo ∧ s.consumed.getD row.2 false = false := by
  rw [free, List.mem_filter, Bool.not_eq_true']

theorem consumes_of_free (hfree : s.consumed.getD row.2 false = false) :
    s.consumes row = ((s.queues.getD row.1.1 []).take 2).map (·.1) := by
  rw [consumes, hfree]
  rfl

/-- A row that is not consumed stands at the front of its queue. -/
theorem Queued.getD_queues_self (h : s.Queued (row :: todo))
    (hfree : s.consumed.getD row.2 false = false) :
    s.queues.getD row.1.1 [] = (row.2, row.1.2) :: queueOf row.1.1 (s.free todo) := by
  rw [h.queues, free_cons, if_neg (by simp [hfree]), queueOf_cons_self]

theorem Queued.visit (h : s.Queued (row :: todo)) : (s.visit row).Queued todo := by
  cases hfree : s.consumed.getD row.2 false with
  | true =>
    obtain ⟨hsame, hqueued⟩ := h.visit_consumed hfree
    rwa [hsame]
  | false =>
    cases ht : takeFirst (·.1.1 == row.1.1) (s.free todo) with
    | none => exact (h.visit_alone hfree ht).2.2
    | some taken => exact (h.visit_partner hfree ht).2.2

theorem getD_setIfInBounds {flags : Array Bool} (hi : i < flags.size) :
    (flags.setIfInBounds i true).getD k false = true ↔ flags.getD k false = true ∨ k = i := by
  rw [Array.getD_eq_getD_getElem?, Array.getD_eq_getD_getElem?, Array.getElem?_setIfInBounds]
  by_cases h : i = k
  · simp [h, h ▸ hi]
  · simp [h, Ne.symm h]

theorem size_consumed_visit (s : CoupleState) (row : IndexedRow) :
    (s.visit row).consumed.size = s.consumed.size := by
  unfold visit
  split
  split
  · rfl
  · split <;> simp

/-- A free row that is alone in its queue is consumed and dropped. -/
theorem visit_of_alone (hfree : s.consumed.getD i false = false)
    (hqueue : s.queues.getD id [] = [(i, x)]) :
    s.visit ((id, x), i) =
      ⟨s.queues.insert id [], s.consumed.setIfInBounds i true, s.output⟩ := by
  simp [CoupleState.visit, hfree, hqueue]

/-- A free row is consumed and given out with the next one of its queue. -/
theorem visit_of_partner {rest : List (ℕ × Float)} (hfree : s.consumed.getD i false = false)
    (hqueue : s.queues.getD id [] = (i, x) :: (j, y) :: rest) :
    s.visit ((id, x), i) =
      ⟨s.queues.insert id rest, (s.consumed.setIfInBounds i true).setIfInBounds j true,
        (id, y) :: (id, x) :: s.output⟩ := by
  simp [CoupleState.visit, hfree, hqueue]

/-- After a visit those rows are consumed that were before, and those that the visit takes. -/
theorem Queued.consumed_visit (h : s.Queued (((id, x), i) :: todo)) (k : ℕ) :
    (s.visit ((id, x), i)).consumed.getD k false = true ↔
      s.consumed.getD k false = true ∨ k ∈ s.consumes ((id, x), i) := by
  cases hfree : s.consumed.getD i false with
  | true =>
    rw [(h.visit_consumed hfree).1, consumes, if_pos hfree]
    simp
  | false =>
    have hlt : i < s.consumed.size := h.index_lt _ List.mem_cons_self
    have hself := h.getD_queues_self hfree
    have hconsumes : s.consumes ((id, x), i) = ((s.queues.getD id []).take 2).map (·.1) :=
      consumes_of_free hfree
    cases hqueue : queueOf id (s.free todo) with
    | nil =>
      rw [hqueue] at hself
      rw [visit_of_alone hfree hself, getD_setIfInBounds hlt, hconsumes, hself]
      simp
    | cons partner rest =>
      rw [hqueue] at hself
      have hmem : (partner.1, partner.2) ∈ queueOf id (s.free todo) := by simp [hqueue]
      have hlt' : partner.1 < (s.consumed.setIfInBounds i true).size := by
        rw [Array.size_setIfInBounds]
        exact h.index_lt _ (List.mem_cons_of_mem _ (mem_free.mp (mem_queueOf.mp hmem)).1)
      rw [visit_of_partner hfree hself, getD_setIfInBounds hlt', getD_setIfInBounds hlt,
        hconsumes, hself]
      simp [or_assoc]

/-! ### What holds before every visit -/

/-- What holds before the visit of an index. -/
structure Swept (rows : List (UInt32 × Float)) (i : ℕ) (s : CoupleState) : Prop where
  size_eq : s.consumed.size = rows.length
  queued : s.Queued (rows.zipIdx.drop i)
  behind : ∀ {j}, j < i → j < rows.length → s.consumed.getD j false = true
  /-- The rows of a repetition are consumed in their order. -/
  in_order : ∀ {j k id x y}, j < k → rows[j]? = some (id, x) → rows[k]? = some (id, y) →
    s.consumed.getD k false = true → s.consumed.getD j false = true

/-- The queue of a repetition holds its rows from here on that are not consumed. -/
theorem Swept.mem_queue_iff (h : Swept rows i s) : (j, x) ∈ s.queues.getD id [] ↔
    i ≤ j ∧ rows[j]? = some (id, x) ∧ s.consumed.getD j false = false := by
  rw [h.queued.queues, mem_queueOf, mem_free, mem_drop_zipIdx, and_assoc]

theorem Swept.queue_ascending (h : Swept rows i s) (id : UInt32) :
    (s.queues.getD id []).Pairwise (·.1 < ·.1) := by
  have hsub : ((s.free (rows.zipIdx.drop i)).filter (·.1.1 == id)).Sublist rows.zipIdx :=
    List.filter_sublist.trans (List.filter_sublist.trans (List.drop_sublist ..))
  rw [h.queued.queues, queueOf, List.pairwise_map]
  exact (pairwise_zipIdx rows).sublist hsub

theorem exists_mem_queue_of_mem_consumes (h : k ∈ s.consumes ((id, x), i)) :
    ∃ y, (k, y) ∈ s.queues.getD id [] := by
  unfold consumes at h
  split at h
  · cases h
  · obtain ⟨⟨k, y⟩, hmem, rfl⟩ := List.mem_map.mp h
    exact ⟨y, List.mem_of_mem_take hmem⟩

/-- What a visit takes stands in front of all else in the queue. -/
theorem Swept.mem_consumes_of_lt (h : Swept rows i s) (hk : k ∈ s.consumes ((id, x), i))
    (hjk : j < k) (hj : (j, y) ∈ s.queues.getD id []) : j ∈ s.consumes ((id, x), i) := by
  unfold consumes at hk ⊢
  split at hk
  · cases hk
  · rename_i hfree
    rw [if_neg hfree]
    obtain ⟨front, hfront, rfl⟩ := List.mem_map.mp hk
    have hascending := h.queue_ascending id
    rw [← List.take_append_drop 2 (s.queues.getD id []), List.pairwise_append] at hascending
    rw [← List.take_append_drop 2 (s.queues.getD id []), List.mem_append] at hj
    rcases hj with hj | hj
    · exact List.mem_map.mpr ⟨_, hj, rfl⟩
    · exact absurd (hascending.2.2 _ hfront _ hj) (Nat.lt_asymm hjk)

theorem swept_initial (rows : List (UInt32 × Float)) : Swept rows 0 (initial rows) where
  size_eq := Array.size_replicate
  queued := initial_queued rows
  behind := nofun
  in_order := by
    intro j k id x y _ _ hk hconsumed
    have hmem : ((id, y), k) ∈ (initial rows).free rows.zipIdx := by
      rw [free_initial]
      exact List.mk_mem_zipIdx_iff_getElem?.mpr hk
    rw [(mem_free.mp hmem).2] at hconsumed
    cases hconsumed

/-- One visit keeps what holds before it. -/
theorem Swept.visit (h : Swept rows i s) (hrow : rows[i]? = some (id, x)) :
    Swept rows (i + 1) (s.visit ((id, x), i)) := by
  have hqueued : s.Queued (((id, x), i) :: rows.zipIdx.drop (i + 1)) :=
    drop_zipIdx_eq_cons hrow ▸ h.queued
  have hconsumed := hqueued.consumed_visit
  refine ⟨(size_consumed_visit ..).trans h.size_eq, hqueued.visit, ?_, ?_⟩
  · intro j hj hlt
    rw [hconsumed]
    rcases Nat.lt_succ_iff_lt_or_eq.mp hj with hj | rfl
    · exact .inl (h.behind hj hlt)
    · cases hfree : s.consumed.getD j false with
      | true => exact .inl rfl
      | false =>
        refine .inr ?_
        rw [consumes_of_free hfree, hqueued.getD_queues_self hfree]
        exact List.mem_cons_self
  · intro j k id' y z hjk hj hk hkc
    rw [hconsumed] at hkc ⊢
    rcases hkc with hkc | hkc
    · exact .inl (h.in_order hjk hj hk hkc)
    · obtain ⟨w, hw⟩ := exists_mem_queue_of_mem_consumes hkc
      obtain ⟨-, hk', -⟩ := h.mem_queue_iff.mp hw
      cases hk'.symm.trans hk
      cases hjc : s.consumed.getD j false with
      | true => exact .inl rfl
      | false =>
        rcases Nat.lt_or_ge j i with hji | hij
        · exact .inl ((h.behind hji (List.getElem?_eq_some_iff.mp hj).1).symm.trans hjc).symm
        · exact .inr (h.mem_consumes_of_lt hkc hjk (h.mem_queue_iff.mpr ⟨hij, hj, hjc⟩))

theorem swept_before (rows : List (UInt32 × Float)) (i : ℕ) : Swept rows i (before rows i) := by
  induction i with
  | zero => exact swept_initial rows
  | succ i ih =>
    cases hrow : rows[i]? with
    | some row =>
      rw [before_succ hrow]
      exact ih.visit hrow
    | none =>
      have hall : rows.length ≤ i := List.getElem?_eq_none_iff.mp hrow
      have hnil : ∀ {k}, i ≤ k → rows.zipIdx.drop k = [] := fun hk =>
        List.drop_eq_nil_of_le ((List.length_zipIdx ..).le.trans (hall.trans hk))
      rw [before_succ_of_length_le hall]
      refine ⟨ih.size_eq, ?_, fun hj hlt => ih.behind (by omega) hlt, ih.in_order⟩
      rw [hnil i.le_succ, ← hnil le_rfl]
      exact ih.queued

/-! ### What a visit of a free row takes -/

/-- What the visit of a row does that is not consumed: the row stands at the front of its queue,
and it is dropped if no row of its repetition follows, and else given out with the nearest one. -/
inductive Takes (rows : List (UInt32 × Float)) (i : ℕ) (id : UInt32) (x : Float)
    (s s' : CoupleState) : Prop
  | alone : s.queues[id]? = some [(i, x)] → (∀ k y, i < k → rows[k]? ≠ some (id, y)) →
      s.consumes ((id, x), i) = [i] →
      s' = ⟨s.queues.insert id [], s.consumed.setIfInBounds i true, s.output⟩ →
        Takes rows i id x s s'
  | partner {j : ℕ} {y : Float} {rest : List (ℕ × Float)} :
      s.queues[id]? = some ((i, x) :: (j, y) :: rest) → i < j → rows[j]? = some (id, y) →
      (∀ k z, i < k → rows[k]? = some (id, z) → j ≤ k) → s.consumed[j]? = some false →
      s.consumes ((id, x), i) = [i, j] →
      s' = ⟨s.queues.insert id rest, (s.consumed.setIfInBounds i true).setIfInBounds j true,
        (id, y) :: (id, x) :: s.output⟩ →
        Takes rows i id x s s'

theorem getElem?_consumed_iff :
    s.consumed[j]? = some false ↔ j < s.consumed.size ∧ s.consumed.getD j false = false := by
  rw [Array.getD_eq_getD_getElem?]
  constructor
  · intro h
    exact ⟨(Array.getElem?_eq_some_iff.mp h).1, by rw [h]; rfl⟩
  · rintro ⟨hlt, h⟩
    rw [Array.getElem?_eq_getElem hlt, Option.getD_some] at h
    rw [Array.getElem?_eq_getElem hlt, h]

/-- A queue that is not empty is there. -/
theorem getElem?_queues {front : ℕ × Float} {rest : List (ℕ × Float)}
    (h : s.queues.getD id [] = front :: rest) : s.queues[id]? = some (front :: rest) := by
  rw [Std.HashMap.getD_eq_getD_getElem?] at h
  cases hqueue : s.queues[id]? with
  | none =>
    rw [hqueue] at h
    cases h
  | some queue =>
    rw [hqueue] at h
    exact congrArg some h

theorem Swept.takes (h : Swept rows i s) (hrow : rows[i]? = some (id, x))
    (hfree : s.consumed[i]? = some false) : Takes rows i id x s (s.visit ((id, x), i)) := by
  obtain ⟨-, hfree⟩ := getElem?_consumed_iff.mp hfree
  have hqueued : s.Queued (((id, x), i) :: rows.zipIdx.drop (i + 1)) :=
    drop_zipIdx_eq_cons hrow ▸ h.queued
  have hself := hqueued.getD_queues_self hfree
  have hascending := h.queue_ascending id
  -- No later row of the repetition is consumed, so the queue has all of them.
  have hlater : ∀ {k z}, i < k → rows[k]? = some (id, z) → (k, z) ∈ s.queues.getD id [] := by
    intro k z hik hk
    refine h.mem_queue_iff.mpr ⟨hik.le, hk, ?_⟩
    by_contra hconsumed
    have := h.in_order hik hrow hk (by simpa using hconsumed)
    rw [hfree] at this
    cases this
  have hconsumes : s.consumes ((id, x), i) = ((s.queues.getD id []).take 2).map (·.1) :=
    consumes_of_free hfree
  cases hqueue : queueOf id (s.free (rows.zipIdx.drop (i + 1))) with
  | nil =>
    have hself : s.queues.getD id [] = [(i, x)] := hself.trans (by rw [hqueue])
    refine .alone (getElem?_queues hself) (fun k y hik hk => ?_) (by rw [hconsumes, hself]; rfl)
      (visit_of_alone hfree hself)
    have hmem := hlater hik hk
    rw [hself, List.mem_singleton] at hmem
    cases hmem
    exact hik.false
  | cons partner rest =>
    obtain ⟨j, y⟩ := partner
    have hself : s.queues.getD id [] = (i, x) :: (j, y) :: rest := hself.trans (by rw [hqueue])
    have hmem : (j, y) ∈ s.queues.getD id [] := by simp [hself]
    obtain ⟨-, hj, hjfree⟩ := h.mem_queue_iff.mp hmem
    have hlt : j < s.consumed.size := h.size_eq ▸ (List.getElem?_eq_some_iff.mp hj).1
    rw [hself, List.pairwise_cons, List.pairwise_cons] at hascending
    obtain ⟨hfront, hsecond, -⟩ := hascending
    refine .partner (getElem?_queues hself) (hfront _ List.mem_cons_self) hj (fun k z hik hk => ?_)
      (getElem?_consumed_iff.mpr ⟨hlt, hjfree⟩) (by rw [hconsumes, hself]; rfl)
      (visit_of_partner hfree hself)
    have hmem := hlater hik hk
    rw [hself, List.mem_cons, List.mem_cons] at hmem
    rcases hmem with hki | hkj | hrest
    · cases hki
      exact absurd hik (lt_irrefl _)
    · cases hkj
      exact le_rfl
    · exact (hsecond _ hrest).le

/-! ### All visits -/

/-- The visits consume the free rows, each of them once. -/
theorem consumedBy_perm : ∀ (todo : List IndexedRow) (s : CoupleState), s.Queued todo →
    (consumedBy todo s).Perm ((s.free todo).map (·.2))
  | [], s, _ => .refl _
  | row :: todo, s, h => by
    have ih := consumedBy_perm todo (s.visit row) h.visit
    rw [consumedBy]
    cases hfree : s.consumed.getD row.2 false with
    | true =>
      rw [(h.visit_consumed hfree).1] at ih ⊢
      rw [consumes, if_pos hfree, free_cons, if_pos hfree]
      exact ih
    | false =>
      rw [consumes_of_free hfree, h.getD_queues_self hfree, free_cons, if_neg (by simp [hfree])]
      cases ht : takeFirst (·.1.1 == row.1.1) (s.free todo) with
      | none =>
        have hnil := queueOf_eq_nil.mpr (takeFirst_eq_none_iff.mp ht)
        rw [hnil]
        rw [(h.visit_alone hfree ht).2.1] at ih
        exact ih.cons _
      | some taken =>
        obtain ⟨partner, rest⟩ := taken
        rw [(h.visit_partner hfree ht).2.1] at ih
        obtain ⟨front, back, hsplit, rfl, hpartner, hfront⟩ := takeFirst_eq_some_iff.mp ht
        have hid : partner.1.1 = row.1.1 := beq_iff_eq.mp hpartner
        have hqueue : queueOf row.1.1 (s.free todo) =
            (partner.2, partner.1.2) :: queueOf row.1.1 back := by
          rw [hsplit, queueOf_append, queueOf_eq_nil.mpr hfront, List.nil_append, ← hid,
            queueOf_cons_self]
        rw [hqueue, hsplit, List.map_cons, List.map_append, List.map_cons]
        rw [List.map_append] at ih
        exact ((ih.cons _).trans List.perm_middle.symm).cons _

/-- Every index is consumed exactly once. -/
theorem consumedBy_perm_range (rows : List (UInt32 × Float)) :
    (consumedBy rows.zipIdx (initial rows)).Perm (List.range rows.length) := by
  have hindices : (rows.zipIdx.map (·.2)) = List.range rows.length := by
    rw [List.zipIdx_map_snd, List.range_eq_range']
  have hperm := consumedBy_perm _ _ (initial_queued rows)
  rwa [free_initial, hindices] at hperm

/-- **Before every visit the queue of a repetition holds exactly its rows from here on that are
not consumed, in ascending order.** So a row that is visited free stands at the front of its
queue and is never passed over; it goes out with the nearest later row of its repetition, if
there is one; and all visits together consume every index exactly once. -/
theorem queues_before (rows : List (UInt32 × Float)) :
    coupleRows rows = (before rows rows.length).output.reverse ∧
    (∀ i id, (((before rows i).queues.getD id []).map (·.1)).Pairwise (· < ·) ∧
      ∀ j x, (j, x) ∈ (before rows i).queues.getD id [] ↔
        i ≤ j ∧ rows[j]? = some (id, x) ∧ (before rows i).consumed[j]? = some false) ∧
    (∀ i id x, rows[i]? = some (id, x) → (before rows i).consumed[i]? = some false →
      Takes rows i id x (before rows i) (before rows (i + 1))) ∧
    (consumedBy rows.zipIdx (initial rows)).Perm (List.range rows.length) := by
  refine ⟨coupleRows_eq_output_before rows, fun i id => ⟨?_, fun j x => ?_⟩,
    fun i id x hrow hfree => ?_, consumedBy_perm_range rows⟩
  · exact List.pairwise_map.mpr ((swept_before rows i).queue_ascending id)
  · have hswept := swept_before rows i
    rw [hswept.mem_queue_iff, getElem?_consumed_iff, hswept.size_eq]
    refine and_congr_right fun _ => and_congr_right fun hrow => ?_
    exact (and_iff_right (List.getElem?_eq_some_iff.mp hrow).1).symm
  · rw [before_succ hrow]
    exact (swept_before rows i).takes hrow hfree

/-- Rows of two repetitions in turns; the last row has no partner. -/
def turnRows : List (UInt32 × Float) := [(1, 1), (2, 5), (1, 2), (2, 6), (1, 3)]

theorem queues_before_of_turnRows :
    (before turnRows 4).consumed[4]? = some false ∧
      Takes turnRows 4 1 3 (before turnRows 4) (before turnRows 5) ∧
      Takes turnRows 1 2 5 (before turnRows 1) (before turnRows 2) ∧
      (consumedBy turnRows.zipIdx (initial turnRows)).Perm [0, 1, 2, 3, 4] := by
  have hfirst : (before turnRows 1).consumed[1]? = some false := by
    simp [before, initial, fill, turnRows, visit, Std.HashMap.getD_insert]
  have hlast : (before turnRows 4).consumed[4]? = some false := by
    simp [before, initial, fill, turnRows, visit, Std.HashMap.getD_insert]
  obtain ⟨-, -, htakes, honce⟩ := queues_before turnRows
  exact ⟨hlast, htakes 4 1 3 rfl hlast, htakes 1 2 5 rfl hfirst, honce⟩

end CoupleState
end BenchLog
