/-
# Repetitions whose sides alternate

In a complete log the events of a repetition alternate: it starts, it ends, and
if its number recurs it starts again (`Alternates`). The events of different
repetitions interleave in any way. A start and the next end of its repetition
are a span (`spans`).

Both ways of putting events together find the spans of such a list. Along the
pairing, the open starts in front of what is still to be read are such a list
again, and its spans are the pairs to come. The coupling of rows, which does
not see the sides, meets the end of a span whenever it looks for a partner.

Key definitions: `TakeTurns`, `Alternates`, `spanOf`, `spans`, `Record.mark`.
Key theorems: `Alternates.erase`, `spans_erase_finish`, `map_fst_spans`,
`Pairing.ofRecords_of_alternates`, `coupleRows_of_alternates`.
-/
import Mathlib.Data.List.Basic
import BenchLog.Proofs.FifoPairing
import BenchLog.Proofs.GreedyCoupling

namespace BenchLog

/-! ### Turns -/

/-- A start, an end, a start, an end, and so on up to an end. -/
inductive TakeTurns : List Side → Prop
  | nil : TakeTurns []
  | span {sides : List Side} : TakeTurns sides → TakeTurns (.start :: .finish :: sides)

/-- Whether sides take turns. -/
def takeTurns : List Side → Bool
  | [] => true
  | .start :: .finish :: sides => takeTurns sides
  | _ => false

theorem takeTurns_iff (sides : List Side) : takeTurns sides = true ↔ TakeTurns sides := by
  constructor
  · intro h
    fun_induction takeTurns sides with
    | case1 => exact .nil
    | case2 sides ih => exact .span (ih h)
    | case3 => cases h
  · intro h
    induction h with
    | nil => rfl
    | span _ ih => exact ih

instance : DecidablePred TakeTurns := fun sides => decidable_of_iff _ (takeTurns_iff sides)

theorem TakeTurns.finish_of_start {sides more : List Side}
    (h : TakeTurns (sides ++ .start :: more)) : ∃ rest, more = .finish :: rest := by
  generalize hw : sides ++ .start :: more = whole at h
  induction h generalizing sides with
  | nil => simp at hw
  | @span whole _ ih =>
    match sides, hw with
    | [], hw => exact ⟨whole, by simpa using hw⟩
    | [_], hw => simp at hw
    | _ :: _ :: sides, hw =>
      simp only [List.cons_append, List.cons.injEq] at hw
      exact ih hw.2.2

theorem TakeTurns.not_singleton {side : Side} : ¬TakeTurns [side] :=
  fun h => nomatch h

/-- Starts alone in front of an end are one start. -/
theorem TakeTurns.single_start {sides more : List Side} (h : TakeTurns (sides ++ .finish :: more))
    (hs : ∀ s ∈ sides, s = .start) : sides = [.start] ∧ TakeTurns more := by
  match sides, hs, h with
  | [], _, h => cases h
  | [s], hs, h =>
    obtain rfl := hs s List.mem_cons_self
    cases h with
    | span h => exact ⟨rfl, h⟩
  | s :: t :: sides, hs, h =>
    obtain rfl := hs s List.mem_cons_self
    obtain rfl := hs t (by simp)
    cases h

/-! ### Events -/

section Events

variable {E : Type*} (mark : E → Side × UInt32)

/-- The events of a repetition. -/
def ofNumber (r : UInt32) (events : List E) : List E :=
  events.filter fun e => (mark e).2 = r

/-- The events of each repetition alternate; `mark` tells what an event is. -/
def Alternates (events : List E) : Prop :=
  ∀ r, TakeTurns ((ofNumber mark r events).map fun e => (mark e).1)

/-- The span that a start opens in front of some events, if it ends. -/
def spanOf (e : E) (events : List E) : List (E × E) :=
  if (mark e).1 = .start then
    ((events.find? fun f => mark f = (.finish, (mark e).2)).map (e, ·)).toList
  else
    []

/-- The spans of a list of events, in the order of their starts. -/
def spans : List E → List (E × E)
  | [] => []
  | e :: events => spanOf mark e events ++ spans events

variable {mark} {e f : E} {events front back : List E}

/-! ### Spans -/

theorem spanOf_start (h : (mark e).1 = .start) :
    spanOf mark e events =
      ((events.find? fun f => mark f = (.finish, (mark e).2)).map (e, ·)).toList :=
  if_pos h

theorem spanOf_finish (h : (mark e).1 = .finish) : spanOf mark e events = [] :=
  if_neg (by simp [h])

/-- The next end of the repetition closes a span. -/
theorem spanOf_closed (he : (mark e).1 = .start) (hf : mark f = (.finish, (mark e).2))
    (hfront : ∀ x ∈ front, (mark x).2 ≠ (mark e).2) :
    spanOf mark e (front ++ f :: back) = [(e, f)] := by
  have hnone : front.find? (fun x => mark x = (.finish, (mark e).2)) = none :=
    List.find?_eq_none.mpr fun x hx => by
      have := hfront x hx
      simp only [decide_eq_true_eq]
      exact fun hm => this (by rw [hm])
  rw [spanOf_start he, List.find?_append, hnone, Option.none_or,
    List.find?_cons_of_pos (by simpa using hf)]
  rfl

/-- An event that does not close the span may be left out. -/
theorem spanOf_erase (h : (mark e).1 = .start → mark f ≠ (.finish, (mark e).2)) :
    spanOf mark e (front ++ f :: back) = spanOf mark e (front ++ back) := by
  unfold spanOf
  split
  · rename_i he
    rw [List.find?_append, List.find?_append, List.find?_cons_of_neg (by simpa using h he)]
  · rfl

/-- An end may be left out if no start in front of it is of its repetition. -/
theorem spans_erase_finish (hf : (mark f).1 = .finish)
    (hfront : ∀ x ∈ front, (mark x).1 = .start → (mark x).2 ≠ (mark f).2) :
    spans mark (front ++ f :: back) = spans mark (front ++ back) := by
  induction front with
  | nil => rw [List.nil_append, spans, spanOf_finish hf, List.nil_append, List.nil_append]
  | cons x front ih =>
    have hx : spanOf mark x (front ++ f :: back) = spanOf mark x (front ++ back) :=
      spanOf_erase fun hs hm => hfront x List.mem_cons_self hs (by rw [hm])
    rw [List.cons_append, spans, hx, ih fun y hy => hfront y (List.mem_cons_of_mem _ hy)]
    rfl

/-- Leaving out a start takes its own span away. -/
theorem spans_erase_start (he : (mark e).1 = .start) :
    (spans mark (front ++ e :: back)).Perm (spanOf mark e back ++ spans mark (front ++ back)) := by
  induction front with
  | nil => exact .refl _
  | cons x front ih =>
    have hx : spanOf mark x (front ++ e :: back) = spanOf mark x (front ++ back) :=
      spanOf_erase fun _ hm => by simp [hm] at he
    rw [List.cons_append, List.cons_append, spans, spans, hx]
    refine (ih.append_left _).trans ?_
    rw [← List.append_assoc, ← List.append_assoc]
    exact List.perm_append_comm.append_right _

theorem spanOf_map {D : Type*} (g : D → E) (d : D) (ds : List D) :
    spanOf mark (g d) (ds.map g) =
      (spanOf (fun d => mark (g d)) d ds).map (Prod.map g g) := by
  unfold spanOf
  split
  · have hcomp : (fun f => decide (mark f = (.finish, (mark (g d)).2))) ∘ g =
        fun f => decide (mark (g f) = (.finish, (mark (g d)).2)) := rfl
    rw [List.find?_map, hcomp]
    cases ds.find? fun f => decide (mark (g f) = (.finish, (mark (g d)).2)) with
    | none => rfl
    | some x => rfl
  · rfl

theorem spans_map {D : Type*} (g : D → E) (ds : List D) :
    spans mark (ds.map g) = (spans (fun d => mark (g d)) ds).map (Prod.map g g) := by
  induction ds with
  | nil => rfl
  | cons d ds ih => rw [List.map_cons, spans, ih, spanOf_map, spans, List.map_append]

/-- A span is a start and an end of one repetition. -/
theorem mark_of_mem_spans {p : E × E} (h : p ∈ spans mark events) :
    (mark p.1).1 = .start ∧ mark p.2 = (.finish, (mark p.1).2) := by
  induction events with
  | nil => cases h
  | cons e events ih =>
    rcases List.mem_append.mp h with h | h
    · unfold spanOf at h
      split at h
      · rename_i he
        simp only [Option.mem_toList, Option.map_eq_some_iff] at h
        obtain ⟨x, hx, rfl⟩ := h
        exact ⟨he, by simpa using List.find?_some hx⟩
      · cases h
    · exact ih h

/-! ### Alternating events -/

@[simp] theorem ofNumber_append (r : UInt32) (events more : List E) :
    ofNumber mark r (events ++ more) = ofNumber mark r events ++ ofNumber mark r more :=
  List.filter_append _ _

theorem ofNumber_cons_self (e : E) (events : List E) :
    ofNumber mark (mark e).2 (e :: events) = e :: ofNumber mark (mark e).2 events :=
  List.filter_cons_of_pos (by simp)

theorem ofNumber_cons_of_ne {r : UInt32} (h : (mark e).2 ≠ r) (events : List E) :
    ofNumber mark r (e :: events) = ofNumber mark r events :=
  List.filter_cons_of_neg (by simpa using h)

theorem ofNumber_eq_nil {r : UInt32} (h : ∀ e ∈ events, (mark e).2 ≠ r) :
    ofNumber mark r events = [] :=
  List.filter_eq_nil_iff.mpr fun e he => by simpa using h e he

theorem alternates_map {D : Type*} {g : D → E} {ds : List D} :
    Alternates mark (ds.map g) ↔ Alternates (fun d => mark (g d)) ds := by
  simp only [Alternates, ofNumber, List.filter_map, List.map_map, Function.comp_def]

/-- Only the repetitions that occur matter. -/
theorem alternates_iff_forall_mem : Alternates mark events ↔
    ∀ e ∈ events, TakeTurns ((ofNumber mark (mark e).2 events).map fun e => (mark e).1) := by
  refine ⟨fun h e _ => h _, fun h r => ?_⟩
  by_cases hr : ∃ e ∈ events, (mark e).2 = r
  · obtain ⟨e, he, rfl⟩ := hr
    exact h e he
  · rw [ofNumber_eq_nil fun e he her => hr ⟨e, he, her⟩]
    exact .nil

instance : Decidable (Alternates mark events) := decidable_of_iff' _ alternates_iff_forall_mem

/-- A start is closed later on. -/
theorem Alternates.exists_finish (h : Alternates mark (front ++ e :: back))
    (he : (mark e).1 = .start) : ∃ f ∈ back, mark f = (.finish, (mark e).2) := by
  have hr := h (mark e).2
  rw [ofNumber_append, ofNumber_cons_self, List.map_append, List.map_cons, he] at hr
  obtain ⟨rest, hrest⟩ := hr.finish_of_start
  obtain ⟨f, fs, hfs, hf, -⟩ := List.map_eq_cons_iff.mp hrest
  have hm : f ∈ ofNumber mark (mark e).2 back := by simp [hfs]
  obtain ⟨hback, hnum⟩ := List.mem_filter.mp hm
  exact ⟨f, hback, Prod.ext hf (by simpa using hnum)⟩

/-- **Each start opens a span**, and the spans are in the order of the starts. -/
theorem map_fst_spans (h : Alternates mark events) :
    (spans mark events).map (·.1) = events.filter fun e => (mark e).1 = .start := by
  -- What the induction needs of the events holds of any end of them.
  have key : ∀ more : List E, (∃ front, events = front ++ more) →
      (spans mark more).map (·.1) = more.filter fun e => (mark e).1 = .start := by
    intro more
    induction more with
    | nil => simp [spans]
    | cons e more ih =>
      rintro ⟨front, rfl⟩
      have hih := ih ⟨front ++ [e], by simp⟩
      rw [spans, List.map_append, hih]
      cases he : (mark e).1 with
      | finish => rw [spanOf_finish he, List.filter_cons_of_neg (by simp [he])]; rfl
      | start =>
        obtain ⟨f, hf, hm⟩ := h.exists_finish he
        have hsome : (more.find? fun f => mark f = (.finish, (mark e).2)).isSome = true :=
          List.find?_isSome.mpr ⟨f, hf, by simpa using hm⟩
        obtain ⟨x, hx⟩ := Option.isSome_iff_exists.mp hsome
        rw [spanOf_start he, hx, List.filter_cons_of_pos (by simp [he])]
        rfl
  exact key events ⟨[], rfl⟩

/-- The first two events of a repetition are a span, and what remains without
them alternates. -/
theorem Alternates.erase {middle : List E}
    (h : Alternates mark (front ++ e :: (middle ++ f :: back)))
    (hfront : ∀ x ∈ front, (mark x).2 ≠ (mark e).2)
    (hmiddle : ∀ x ∈ middle, (mark x).2 ≠ (mark e).2) (hf : (mark f).2 = (mark e).2) :
    (mark e).1 = .start ∧ mark f = (.finish, (mark e).2) ∧
      Alternates mark (front ++ (middle ++ back)) := by
  have hown := h (mark e).2
  rw [ofNumber_append, ofNumber_eq_nil hfront, List.nil_append, ofNumber_cons_self, ofNumber_append,
    ofNumber_eq_nil hmiddle, List.nil_append, ← hf, ofNumber_cons_self, List.map_cons,
    List.map_cons] at hown
  generalize hes : (mark e).1 = se at hown ⊢
  generalize hfs : (mark f).1 = sf at hown
  cases hown with
  | span hback =>
    refine ⟨rfl, Prod.ext hfs hf, fun r => ?_⟩
    by_cases hr : (mark f).2 = r
    · subst hr
      rw [hf] at hback ⊢
      rwa [ofNumber_append, ofNumber_append, ofNumber_eq_nil hfront, ofNumber_eq_nil hmiddle]
    · have hother := h r
      rwa [ofNumber_append, ofNumber_cons_of_ne (hf ▸ hr), ofNumber_append, ofNumber_cons_of_ne hr,
        ← ofNumber_append, ← ofNumber_append] at hother

/-- An alternating list is empty, or its first event and the next one of its
repetition are a span and the others alternate. -/
theorem Alternates.cases_first (h : Alternates mark events) :
    events = [] ∨ ∃ e middle f back, events = e :: (middle ++ f :: back) ∧
      (∀ x ∈ middle, (mark x).2 ≠ (mark e).2) ∧ mark f = (.finish, (mark e).2) ∧
      Alternates mark (middle ++ back) ∧
      spans mark events = (e, f) :: spans mark (middle ++ back) := by
  match events, h with
  | [], _ => exact .inl rfl
  | e :: events, h =>
    refine .inr ?_
    cases ht : takeFirst (fun f => (mark f).2 == (mark e).2) events with
    | none =>
      have hrest : ofNumber mark (mark e).2 events = [] := ofNumber_eq_nil fun f hf => by
        simpa using takeFirst_eq_none_iff.mp ht f hf
      have hown := h (mark e).2
      rw [ofNumber_cons_self, hrest] at hown
      exact absurd hown TakeTurns.not_singleton
    | some taken =>
      obtain ⟨f, rest⟩ := taken
      obtain ⟨middle, back, rfl, rfl, hf, hmiddle⟩ := takeFirst_eq_some_iff.mp ht
      replace hf : (mark f).2 = (mark e).2 := by simpa using hf
      replace hmiddle : ∀ x ∈ middle, (mark x).2 ≠ (mark e).2 := fun x hx => by
        simpa using hmiddle x hx
      rw [← List.nil_append (e :: (middle ++ f :: back))] at h
      obtain ⟨hs, hm, halt⟩ := h.erase (by simp) hmiddle hf
      refine ⟨e, middle, f, back, rfl, hmiddle, hm, halt, ?_⟩
      rw [spans, spanOf_closed hs hm hmiddle,
        spans_erase_finish (by rw [hm]) fun x hx _ => hf ▸ hmiddle x hx]
      rfl

/-- Induction over an alternating list, one span at a time. -/
theorem Alternates.induction {motive : List E → Prop} (nil : motive [])
    (span : ∀ e middle f back, (∀ x ∈ middle, (mark x).2 ≠ (mark e).2) →
      mark f = (.finish, (mark e).2) →
      spans mark (e :: (middle ++ f :: back)) = (e, f) :: spans mark (middle ++ back) →
      motive (middle ++ back) → motive (e :: (middle ++ f :: back)))
    (h : Alternates mark events) : motive events := by
  induction hn : events.length using Nat.strong_induction_on generalizing events with
  | _ n ih =>
    rcases h.cases_first with rfl | ⟨e, middle, f, back, rfl, hmiddle, hm, halt, hspans⟩
    · exact nil
    · have hlt : (middle ++ back).length < n := by
        simp only [← hn, List.length_cons, List.length_append]
        omega
      exact span e middle f back hmiddle hm hspans (ih _ hlt halt rfl)

/-- Each event is one side of one span. -/
theorem perm_spans (h : Alternates mark events) :
    ((spans mark events).flatMap fun p => [p.1, p.2]).Perm events := by
  refine h.induction (motive := fun events =>
    ((spans mark events).flatMap fun p => [p.1, p.2]).Perm events) .nil
    fun e middle f back _ _ hspans ih => ?_
  rw [hspans, List.flatMap_cons]
  exact ((ih.cons f).trans List.perm_middle.symm).cons e

end Events

/-! ### Pairing -/

/-- What a record marks. -/
def Record.mark (x : Record) : Side × UInt32 := (x.side, x.repetition)

/-- The pair of a span. -/
def RepetitionPair.ofSpan (p : Record × Record) : RepetitionPair := ⟨p.1, p.2⟩

namespace PairingState

/-- An end finds the only open start of its repetition, and the span of the two
goes. -/
theorem takeFirst_of_alternates {pending rest : List Record} {x : Record}
    (hx : x.side = .finish) (hpending : ∀ y ∈ pending, y.side = .start)
    (h : Alternates Record.mark (pending ++ x :: rest)) :
    ∃ y others, takeFirst (·.repetition == x.repetition) pending = some (y, others) ∧
      (∀ z ∈ others, z.side = .start) ∧ Alternates Record.mark (others ++ rest) ∧
      (spans Record.mark (pending ++ x :: rest)).Perm
        ((y, x) :: spans Record.mark (others ++ rest)) := by
  have hown := h x.mark.2
  rw [ofNumber_append, ofNumber_cons_self, List.map_append, List.map_cons,
    show x.mark.1 = .finish from hx] at hown
  have hsides : ∀ side ∈ (ofNumber Record.mark x.mark.2 pending).map (·.mark.1),
      side = .start := by
    intro side hside
    obtain ⟨y, hy, rfl⟩ := List.mem_map.mp hside
    exact hpending y (List.mem_filter.mp hy).1
  obtain ⟨hsingle, -⟩ := hown.single_start hsides
  cases htake : takeFirst (·.repetition == x.repetition) pending with
  | none =>
    have hnone := takeFirst_eq_none_iff.mp htake
    rw [ofNumber_eq_nil fun y hy => by simpa [Record.mark] using hnone y hy] at hsingle
    cases hsingle
  | some taken =>
    obtain ⟨y, others⟩ := taken
    obtain ⟨front, back, rfl, rfl, hy, hfront⟩ := takeFirst_eq_some_iff.mp htake
    have hyx : y.mark.2 = x.mark.2 := by simpa [Record.mark] using hy
    have hfront' : ∀ z ∈ front, z.mark.2 ≠ x.mark.2 := fun z hz => by
      simpa [Record.mark] using hfront z hz
    -- The open start is the only one of its repetition.
    have hback : ∀ z ∈ back, z.mark.2 ≠ x.mark.2 := by
      rw [ofNumber_append, ofNumber_eq_nil hfront', List.nil_append, ← hyx, ofNumber_cons_self,
        List.map_cons, List.cons.injEq, List.map_eq_nil_iff] at hsingle
      intro z hz hzx
      have := List.filter_eq_nil_iff.mp hsingle.2 z hz
      simp [hyx, hzx] at this
    rw [List.append_assoc, List.cons_append] at h
    obtain ⟨hs, hf, halt⟩ := h.erase (hyx ▸ hfront') (hyx ▸ hback) hyx.symm
    refine ⟨y, front ++ back, rfl, fun z hz => hpending z ?_, ?_, ?_⟩
    · exact List.append_sublist_append_left front |>.mpr (List.sublist_cons_self y back)
        |>.subset hz
    · rwa [List.append_assoc]
    · rw [List.append_assoc, List.cons_append, List.append_assoc]
      refine (spans_erase_start hs).trans ?_
      rw [spanOf_closed hs hf (hyx ▸ hback), ← List.append_assoc, spans_erase_finish hx,
        List.append_assoc]
      · rfl
      · intro z hz _
        rcases List.mem_append.mp hz with hz | hz
        · exact hfront' z hz
        · exact hback z hz

theorem foldl_step_of_alternates : ∀ (records : List Record) (s : PairingState),
    (∀ x ∈ s.pending, x.side = .start) → Alternates Record.mark (s.pending ++ records) →
    (records.foldl step s).pending = [] ∧ (records.foldl step s).droppedEnds = s.droppedEnds ∧
      (records.foldl step s).pairs.Perm
        ((spans Record.mark (s.pending ++ records)).map RepetitionPair.ofSpan ++ s.pairs)
  | [], s, hs, h => by
    have hnil : s.pending = [] := by
      by_contra hne
      obtain ⟨x, xs, hx⟩ := List.exists_cons_of_ne_nil hne
      rw [List.append_nil, hx, ← List.nil_append (x :: xs)] at h
      obtain ⟨f, hf, hm⟩ := h.exists_finish (hs x (by simp [hx]))
      have hstart := hs f (by simp [hx, hf])
      simp [Record.mark, hstart] at hm
    simp [hnil, spans]
  | x :: records, s, hs, h => by
    rw [List.foldl_cons]
    cases hx : x.side with
    | start =>
      rw [step_start hx]
      have hs' : ∀ y ∈ s.pending ++ [x], y.side = .start := by
        simpa [or_imp, forall_and, hx] using hs
      have ih := foldl_step_of_alternates records { s with pending := s.pending ++ [x] } hs'
        (by simpa using h)
      simpa using ih
    | finish =>
      obtain ⟨y, pending, htake, hs', halt, hperm⟩ := takeFirst_of_alternates hx hs h
      have hstep : s.step x = { s with pending, pairs := ⟨y, x⟩ :: s.pairs } := by
        simp [step, hx, htake]
      obtain ⟨hpend, hdrop, hpairs⟩ :=
        foldl_step_of_alternates records { s with pending, pairs := ⟨y, x⟩ :: s.pairs } hs' halt
      rw [hstep]
      refine ⟨hpend, hdrop, hpairs.trans ?_⟩
      refine List.perm_middle.trans ?_
      exact (hperm.map RepetitionPair.ofSpan).symm.append_right s.pairs

end PairingState

/-- Pairing a complete list of records gives its spans and leaves nothing out. -/
theorem Pairing.ofRecords_of_alternates {records : List Record}
    (h : Alternates Record.mark records) (hlines : records.Pairwise fun x y => x.line < y.line) :
    (ofRecords records).pairs = (spans Record.mark records).map RepetitionPair.ofSpan ∧
      (ofRecords records).droppedEnds = 0 ∧ (ofRecords records).unmatchedStarts = 0 := by
  obtain ⟨hpend, hdrop, hperm⟩ :=
    PairingState.foldl_step_of_alternates records .empty (by simp [PairingState.empty]) h
  refine ⟨?_, hdrop, List.length_eq_zero_iff.mpr hpend⟩
  have hsame : (ofRecords records).pairs.Perm
      ((spans Record.mark records).map RepetitionPair.ofSpan) := by
    simpa [PairingState.empty] using (perm_pairs records).trans hperm
  have hstarts : ((spans Record.mark records).map RepetitionPair.ofSpan).Pairwise
      fun p q => p.start.line < q.start.line := by
    have := hlines.sublist (map_fst_spans h ▸ List.filter_sublist)
    rwa [List.pairwise_map] at this ⊢
  have hnodup : (((spans Record.mark records).map RepetitionPair.ofSpan).map
      (·.start.line)).Nodup :=
    (List.pairwise_map.mpr hstarts).imp Nat.ne_of_lt
  -- No two spans start on one line, so there is one order only.
  refine hsame.eq_of_pairwise (fun p q hp hq hpq hqp => ?_) (pairwise_pairs records)
    (hstarts.imp fun hlt => Prod.Lex.toLex_le_toLex.mpr (.inl hlt))
  have hkey : p.lineKey = q.lineKey := le_antisymm hpq hqp
  exact List.inj_on_of_nodup_map hnodup (hsame.subset hp) hq (congrArg (fun k => (ofLex k).1) hkey)

/-! ### Coupling -/

/-- Coupling the rows of a complete list of events gives its spans, one row for
each side. -/
theorem coupleGreedily_of_alternates {E : Type*} {mark : E → Side × UInt32} (value : E → Float)
    {events : List E} (h : Alternates mark events) :
    coupleGreedily (events.map fun e => ((mark e).2, value e)) =
      (spans mark events).flatMap fun p =>
        [((mark p.1).2, value p.1), ((mark p.2).2, value p.2)] := by
  refine h.induction (motive := fun events =>
    coupleGreedily (events.map fun e => ((mark e).2, value e)) =
      (spans mark events).flatMap fun p =>
        [((mark p.1).2, value p.1), ((mark p.2).2, value p.2)])
    (by simp [coupleGreedily, spans]) fun e middle f back hmiddle hm hspans ih => ?_
  have htake : takeFirst (fun x => (mark x).2 == (mark e).2) (middle ++ f :: back) =
      some (f, middle ++ back) :=
    takeFirst_eq_some_iff.mpr
      ⟨middle, back, rfl, rfl, by simp [hm], fun x hx => by simpa using hmiddle x hx⟩
  have hrows := takeFirst_map (fun e => ((mark e).2, value e)) (·.1 == (mark e).2)
    (middle ++ f :: back)
  rw [htake] at hrows
  rw [List.map_cons, coupleGreedily_of_partner hrows, ih, hspans]
  rfl

/-- The coupled rows of a complete list of events are those of its spans. -/
theorem coupleRows_of_alternates {E : Type*} {mark : E → Side × UInt32} (value : E → Float)
    {events : List E} (h : Alternates mark events) :
    coupleRows (events.map fun e => ((mark e).2, value e)) =
      (spans mark events).flatMap fun p =>
        [((mark p.1).2, value p.1), ((mark p.2).2, value p.2)] := by
  rw [coupleRows_eq_coupleGreedily, coupleGreedily_of_alternates value h]

end BenchLog
