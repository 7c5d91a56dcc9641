/-
# Taking the first of a kind out of a queue

Key definitions: `takeFirst`.
Key theorems: `takeFirst_eq_some_iff`, `takeFirst_eq_none_iff`.
-/
namespace BenchLog

/-- The first element of a kind, and the queue without it. -/
def takeFirst (p : α → Bool) : List α → Option (α × List α)
  | [] => none
  | a :: as =>
    if p a then some (a, as)
    else (takeFirst p as).map fun (b, bs) => (b, a :: bs)

theorem takeFirst_eq_none_iff {p : α → Bool} {as : List α} :
    takeFirst p as = none ↔ ∀ a ∈ as, p a = false := by
  induction as with
  | nil => simp [takeFirst]
  | cons a as ih => by_cases h : p a = true <;> simp_all [takeFirst]

/-- What is taken is of the kind, nothing in front of it is, and the rest stays
as it was. -/
theorem takeFirst_eq_some_iff {p : α → Bool} {as rest : List α} {b : α} :
    takeFirst p as = some (b, rest) ↔
      ∃ front back, as = front ++ b :: back ∧ rest = front ++ back ∧ p b = true ∧
        ∀ a ∈ front, p a = false := by
  induction as generalizing rest with
  | nil => simp [takeFirst]
  | cons a as ih =>
    by_cases h : p a = true
    · simp only [takeFirst, h, if_true, Option.some.injEq, Prod.mk.injEq]
      constructor
      · rintro ⟨rfl, rfl⟩
        exact ⟨[], as, rfl, rfl, h, by simp⟩
      · rintro ⟨front, back, hs, hr, hb, hf⟩
        cases front with
        | nil => simp_all
        | cons c front =>
          simp only [List.cons_append, List.cons.injEq] at hs
          have := hf c List.mem_cons_self
          simp_all
    · have ha : p a = false := by simpa using h
      simp only [takeFirst, ha, Bool.false_eq_true, if_false, Option.map_eq_some_iff, Prod.exists,
        Prod.mk.injEq]
      constructor
      · rintro ⟨c, cs, hc, rfl, rfl⟩
        obtain ⟨front, back, rfl, rfl, hb, hf⟩ := ih.1 hc
        exact ⟨a :: front, back, rfl, rfl, hb, by simp_all⟩
      · rintro ⟨front, back, hs, hr, hb, hf⟩
        cases front with
        | nil =>
          simp only [List.nil_append, List.cons.injEq] at hs
          simp_all
        | cons c front =>
          simp only [List.cons_append, List.cons.injEq] at hs
          obtain ⟨rfl, rfl⟩ := hs
          exact ⟨b, front ++ back, ih.2 ⟨front, back, rfl, rfl, hb,
            fun x hx => hf x (List.mem_cons_of_mem _ hx)⟩, rfl, by simp [hr]⟩

end BenchLog
