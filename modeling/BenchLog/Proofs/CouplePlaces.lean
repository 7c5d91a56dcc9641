/-
# Couples and their places

The rows that coupling gives out are two rows of one repetition each, the earlier one first, and
the couples come in the order of the places of their first rows. Which rows they are is settled
for each repetition apart: the rows of a repetition go out in their order, and if they are odd in
number, the last one is dropped. So the places of the couples are those of the first rows of each
repetition (`Couples.rowsOf_eq`), and coupling what was coupled changes nothing.

Key definitions: `CoupleState.Couple`, `CoupleState.Couples`.
Key theorems: `CoupledGreedily.exists_couples`, `filter_coupleRows`,
`coupledGreedily_of_adjacent`, `coupleRows_places`.
-/
import BenchLog.Proofs.GreedyCoupling

namespace BenchLog

namespace CoupleState

/-! ### Couples of placed rows -/

/-- Two rows with their places. -/
abbrev Couple := IndexedRow × IndexedRow

/-- The rows of couples, partners next to each other. -/
def coupledRows (couples : List Couple) : List IndexedRow :=
  couples.flatMap fun c => [c.1, c.2]

/-- The rows of one repetition. -/
def rowsOf (r : UInt32) (rows : List IndexedRow) : List IndexedRow :=
  rows.filter (·.1.1 == r)

/-- The couples of some rows. -/
structure Couples (rows : List IndexedRow) (couples : List Couple) : Prop where
  mem : ∀ c ∈ couples, c.1 ∈ rows ∧ c.2 ∈ rows
  same : ∀ c ∈ couples, c.2.1.1 = c.1.1.1
  ordered : ∀ c ∈ couples, c.1.2 < c.2.2
  ascending : couples.Pairwise fun c d => c.1.2 < d.1.2
  /-- The rows of a repetition but for a last one without a partner, in their order. -/
  rowsOf_eq : ∀ r, rowsOf r (coupledRows couples) =
    (rowsOf r rows).take (2 * ((rowsOf r rows).length / 2))

variable {row partner : IndexedRow} {rows front back : List IndexedRow} {couples : List Couple}

theorem Couples.nil : Couples [] [] where
  mem := nofun
  same := nofun
  ordered := nofun
  ascending := .nil
  rowsOf_eq _ := by simp [rowsOf, coupledRows]

theorem rowsOf_of_forall_ne (h : ∀ other ∈ rows, other.1.1 ≠ row.1.1) :
    rowsOf row.1.1 rows = [] :=
  List.filter_eq_nil_iff.mpr fun other hother => by simpa using h other hother

/-- A row and the nearest later one of its repetition are a couple. -/
theorem Couples.couple (h : Couples (front ++ back) couples)
    (hplaces : (row :: (front ++ partner :: back)).Pairwise (·.2 < ·.2))
    (hfront : ∀ other ∈ front, other.1.1 ≠ row.1.1) (hpartner : partner.1.1 = row.1.1) :
    Couples (row :: (front ++ partner :: back)) ((row, partner) :: couples) := by
  obtain ⟨hrow, -⟩ := List.pairwise_cons.mp hplaces
  have hsub : ∀ other ∈ front ++ back, other ∈ front ++ partner :: back := by
    intro other hother
    rcases List.mem_append.mp hother with hm | hm
    · exact List.mem_append_left _ hm
    · exact List.mem_append_right _ (List.mem_cons_of_mem _ hm)
  have hmem : partner ∈ front ++ partner :: back := by simp
  refine ⟨?_, ?_, ?_, ?_, fun r => ?_⟩
  · intro c hc
    rcases List.mem_cons.mp hc with rfl | hc
    · exact ⟨List.mem_cons_self, List.mem_cons_of_mem _ hmem⟩
    · obtain ⟨h1, h2⟩ := h.mem c hc
      exact ⟨List.mem_cons_of_mem _ (hsub _ h1), List.mem_cons_of_mem _ (hsub _ h2)⟩
  · exact List.forall_mem_cons.mpr ⟨hpartner, h.same⟩
  · exact List.forall_mem_cons.mpr ⟨hrow partner hmem, h.ordered⟩
  · refine List.pairwise_cons.mpr ⟨fun c hc => ?_, h.ascending⟩
    exact hrow _ (hsub _ (h.mem c hc).1)
  · have ih := h.rowsOf_eq r
    unfold rowsOf at ih ⊢
    by_cases hr : row.1.1 = r
    · -- In front of the partner there is no row of the repetition.
      have hnone : front.filter (·.1.1 == r) = [] := by
        rw [← hr]
        exact rowsOf_of_forall_ne hfront
      have hlength : 2 * (((back.filter (·.1.1 == r)).length + 2) / 2) =
          2 * ((back.filter (·.1.1 == r)).length / 2) + 2 := by omega
      rw [List.filter_append, hnone, List.nil_append] at ih
      simp [coupledRows, hr, hpartner, hnone, hlength, ← ih]
    · simpa [coupledRows, hr, hpartner] using ih

/-- A row that no other of its repetition follows is in no couple. -/
theorem Couples.drop (h : Couples rows couples) (hrows : ∀ other ∈ rows, other.1.1 ≠ row.1.1) :
    Couples (row :: rows) couples := by
  refine ⟨fun c hc => ?_, h.same, h.ordered, h.ascending, fun r => ?_⟩
  · obtain ⟨h1, h2⟩ := h.mem c hc
    exact ⟨List.mem_cons_of_mem _ h1, List.mem_cons_of_mem _ h2⟩
  · have ih := h.rowsOf_eq r
    unfold rowsOf at ih ⊢
    by_cases hr : row.1.1 = r
    · have hnone : rows.filter (·.1.1 == r) = [] := by
        rw [← hr]
        exact rowsOf_of_forall_ne hrows
      rw [ih, hnone]
      simp [hr, hnone]
    · simpa [hr] using ih

end CoupleState

open CoupleState

/-- What the greedy rule gives out are the couples of its rows, wherever these stand. -/
theorem CoupledGreedily.exists_couples {rows output : List (UInt32 × Float)}
    (h : CoupledGreedily rows output) : ∀ {todo : List IndexedRow}, todo.map (·.1) = rows →
      todo.Pairwise (·.2 < ·.2) →
        ∃ couples, (coupledRows couples).map (·.1) = output ∧ Couples todo couples := by
  induction h with
  | done =>
    intro todo htodo _
    rw [List.map_eq_nil_iff.mp htodo]
    exact ⟨[], rfl, .nil⟩
  | @couple row partner front back output hfront hpartner _ ih =>
    intro todo htodo hplaces
    obtain ⟨row, others, rfl, rfl, hothers⟩ := List.map_eq_cons_iff.mp htodo
    obtain ⟨front, rest, rfl, rfl, hrest⟩ := List.map_eq_append_iff.mp hothers
    obtain ⟨partner, back, rfl, rfl, rfl⟩ := List.map_eq_cons_iff.mp hrest
    have hsub : (front ++ back).Sublist (row :: (front ++ partner :: back)) :=
      ((List.sublist_cons_self partner back).append_left front).cons row
    obtain ⟨couples, houtput, hcouples⟩ := ih (List.map_append ..) (hplaces.sublist hsub)
    refine ⟨(row, partner) :: couples, ?_, hcouples.couple hplaces ?_ hpartner⟩
    · rw [← houtput]
      rfl
    · exact fun other hother => hfront other.1 (List.mem_map_of_mem hother)
  | @drop row rows output hrows _ ih =>
    intro todo htodo hplaces
    obtain ⟨row, others, rfl, rfl, rfl⟩ := List.map_eq_cons_iff.mp htodo
    obtain ⟨couples, houtput, hcouples⟩ := ih rfl (List.pairwise_cons.mp hplaces).2
    exact ⟨couples, houtput, hcouples.drop fun other hother =>
      hrows other.1 (List.mem_map_of_mem hother)⟩

/-- The rows of a list stand at ascending places. -/
theorem pairwise_zipIdx (rows : List (UInt32 × Float)) :
    rows.zipIdx.Pairwise (·.2 < ·.2) := by
  have hplaces : (rows.zipIdx.map (·.2)).Pairwise (· < ·) := by
    rw [List.zipIdx_map_snd]
    exact List.pairwise_lt_range'
  exact List.pairwise_map.mp hplaces

theorem exists_couples (rows : List (UInt32 × Float)) :
    ∃ couples, (coupledRows couples).map (·.1) = coupleRows rows ∧ Couples rows.zipIdx couples :=
  (coupleRows_eq_iff.mp rfl).exists_couples (List.zipIdx_map_fst 0 rows) (pairwise_zipIdx rows)

/-! ### One repetition -/

theorem map_rowsOf (r : UInt32) (rows : List IndexedRow) :
    (rowsOf r rows).map (·.1) = (rows.map (·.1)).filter (·.1 == r) := by
  rw [List.filter_map]
  rfl

/-- Of each repetition, coupling gives out the rows it was given, in their order; if they are
odd in number, the last one is dropped. -/
theorem filter_coupleRows (r : UInt32) (rows : List (UInt32 × Float)) :
    (coupleRows rows).filter (·.1 == r) =
      (rows.filter (·.1 == r)).take (2 * ((rows.filter (·.1 == r)).length / 2)) := by
  obtain ⟨couples, houtput, hcouples⟩ := exists_couples rows
  have hrows : (rowsOf r rows.zipIdx).map (·.1) = rows.filter (·.1 == r) := by
    rw [map_rowsOf, List.zipIdx_map_fst]
  calc (coupleRows rows).filter (·.1 == r)
      = (rowsOf r (coupledRows couples)).map (·.1) := by rw [map_rowsOf, houtput]
    _ = ((rowsOf r rows.zipIdx).map (·.1)).take (2 * ((rowsOf r rows.zipIdx).length / 2)) := by
        rw [hcouples.rowsOf_eq, List.map_take]
    _ = (rows.filter (·.1 == r)).take (2 * ((rows.filter (·.1 == r)).length / 2)) := by
        rw [← hrows, List.length_map]

/-! ### Coupling again -/

/-- Rows that stand next to their partners are coupled as they stand. -/
theorem coupledGreedily_of_adjacent {couples : List Couple}
    (h : ∀ c ∈ couples, c.2.1.1 = c.1.1.1) :
    CoupledGreedily ((coupledRows couples).map (·.1)) ((coupledRows couples).map (·.1)) := by
  induction couples with
  | nil => exact .done
  | cons c couples ih =>
    obtain ⟨hc, hcouples⟩ := List.forall_mem_cons.mp h
    have hfront : ∀ other ∈ ([] : List (UInt32 × Float)), other.1 ≠ c.1.1.1 := nofun
    exact .couple hfront hc (ih hcouples)

/-- **Coupling gives out couples of one repetition in the order of their first rows, of each
repetition as many of its rows as there is an even number of, and coupling again changes
nothing.** At most one row of a repetition is dropped, and it is the last one. -/
theorem coupleRows_places (rows : List (UInt32 × Float)) :
    (∃ couples, coupleRows rows = (coupledRows couples).map (·.1) ∧
        Couples rows.zipIdx couples) ∧
      (∀ r, (coupleRows rows).filter (·.1 == r) =
          (rows.filter (·.1 == r)).take (2 * ((rows.filter (·.1 == r)).length / 2)) ∧
        ∃ dropped, dropped.length ≤ 1 ∧
          rows.filter (·.1 == r) = (coupleRows rows).filter (·.1 == r) ++ dropped) ∧
      coupleRows (coupleRows rows) = coupleRows rows := by
  obtain ⟨couples, houtput, hcouples⟩ := exists_couples rows
  refine ⟨⟨couples, houtput.symm, hcouples⟩, fun r => ?_, ?_⟩
  · have hfilter := filter_coupleRows r rows
    refine ⟨hfilter, (rows.filter (·.1 == r)).drop (2 * ((rows.filter (·.1 == r)).length / 2)),
      ?_, ?_⟩
    · rw [List.length_drop]
      omega
    · rw [hfilter, List.take_append_drop]
  · rw [← houtput]
    exact coupleRows_eq_iff.mpr (coupledGreedily_of_adjacent hcouples.same)

end BenchLog
