/-
# Dictionaries

A dictionary has a value for each of some names and lists them in the order of
the names.

Key definitions: `Dictionary`, `Dictionary.insert`, `Dictionary.find?`.
Key theorems: `Dictionary.sorted_insertEntry`, `Dictionary.find?_insert_self`,
`Dictionary.find?_insert_of_ne`.
-/
namespace BenchLog

/-- Names with values, in ascending order. -/
structure Dictionary (α : Type) where
  entries : List (String × α)
  sorted : entries.Pairwise (·.1 < ·.1)

namespace Dictionary

variable {α : Type}

/-- No names. -/
def empty : Dictionary α := ⟨[], .nil⟩

/-- The entries with a new value for a name. -/
def insertEntry (name : String) (a : α) : List (String × α) → List (String × α)
  | [] => [(name, a)]
  | (other, b) :: rest =>
    if name < other then (name, a) :: (other, b) :: rest
    else if name = other then (name, a) :: rest
    else (other, b) :: insertEntry name a rest

theorem lt_of_not_lt_of_ne {a b : String} (h : ¬ a < b) (hne : a ≠ b) : b < a := by
  by_cases hb : b < a
  · exact hb
  · exact absurd (String.le_antisymm hb h) hne

theorem fst_mem_insertEntry {name : String} {a : α} {entries : List (String × α)} :
    ∀ e ∈ insertEntry name a entries, e.1 = name ∨ ∃ f ∈ entries, f.1 = e.1 := by
  induction entries with
  | nil => simp [insertEntry]
  | cons f rest ih =>
    intro e he
    unfold insertEntry at he
    split at he
    · rcases List.mem_cons.1 he with rfl | he
      · exact .inl rfl
      · exact .inr ⟨e, he, rfl⟩
    · split at he
      · rcases List.mem_cons.1 he with rfl | he
        · exact .inl rfl
        · exact .inr ⟨e, List.mem_cons_of_mem _ he, rfl⟩
      · rcases List.mem_cons.1 he with rfl | he
        · exact .inr ⟨_, List.mem_cons_self, rfl⟩
        · rcases ih e he with h | ⟨g, hg, h⟩
          · exact .inl h
          · exact .inr ⟨g, List.mem_cons_of_mem _ hg, h⟩

theorem sorted_insertEntry {name : String} {a : α} {entries : List (String × α)}
    (h : entries.Pairwise (·.1 < ·.1)) : (insertEntry name a entries).Pairwise (·.1 < ·.1) := by
  induction entries with
  | nil => simp [insertEntry]
  | cons f rest ih =>
    obtain ⟨hf, hr⟩ := List.pairwise_cons.1 h
    unfold insertEntry
    split
    · rename_i hlt
      refine List.pairwise_cons.2 ⟨?_, h⟩
      intro e he
      rcases List.mem_cons.1 he with rfl | he
      · exact hlt
      · exact String.lt_trans hlt (hf e he)
    · rename_i hlt
      split
      · rename_i heq
        exact List.pairwise_cons.2 ⟨fun e he => heq ▸ hf e he, hr⟩
      · rename_i hne
        refine List.pairwise_cons.2 ⟨?_, ih hr⟩
        intro e he
        rcases fst_mem_insertEntry e he with h | ⟨g, hg, h⟩
        · rw [h]
          exact lt_of_not_lt_of_ne hlt hne
        · rw [← h]
          exact hf g hg

/-- The dictionary with a new value for a name. -/
def insert (d : Dictionary α) (name : String) (a : α) : Dictionary α :=
  ⟨insertEntry name a d.entries, sorted_insertEntry d.sorted⟩

/-- The value of a name. -/
def find? (d : Dictionary α) (name : String) : Option α :=
  d.entries.lookup name

theorem find?_insert_self (d : Dictionary α) (name : String) (a : α) :
    (d.insert name a).find? name = some a := by
  simp only [find?, insert]
  induction d.entries with
  | nil => simp [insertEntry]
  | cons f rest ih =>
    obtain ⟨key, b⟩ := f
    unfold insertEntry
    split
    · simp
    · split
      · simp
      · rename_i hne
        have hk : (name == key) = false := by simpa using hne
        rw [List.lookup_cons, hk]
        exact ih

theorem find?_insert_of_ne (d : Dictionary α) {name other : String} (a : α) (h : other ≠ name) :
    (d.insert name a).find? other = d.find? other := by
  have hb : (other == name) = false := by simpa using h
  simp only [find?, insert]
  induction d.entries with
  | nil => simp [insertEntry, List.lookup_cons, hb]
  | cons f rest ih =>
    obtain ⟨key, b⟩ := f
    unfold insertEntry
    split
    · simp [List.lookup_cons, hb]
    · split
      · rename_i heq
        subst heq
        simp [List.lookup_cons, hb]
      · simp only [List.lookup_cons, ih]

end Dictionary
end BenchLog
