/-
# Scanning a line

The readers of log lines work on the front of a text: each takes one lexeme
off it and gives the lexeme with the rest, or nothing. All lexemes of the log
grammars are decided by the character that follows them, so no reader has to
go back. `search` tries a reader at every position, first position first, and
tells it the character in front of the position.

Key definitions: `literalBy`, `literal`, `literalFold`, `run`, `digits`,
`fixedDigits`, `decimal`, `search`.
Key theorems: `literal_append`, `run_eq_some_iff`, `search_eq_some`.
-/
import BenchLog.Text.Classes

namespace BenchLog.Text

/-! ### Lexemes -/

/-- What follows the word at the front of the text, letters compared by `same`. -/
def literalBy (same : Char → Char → Bool) : List Char → List Char → Option (List Char)
  | [], cs => some cs
  | w :: ws, c :: cs => if same w c then literalBy same ws cs else none
  | _ :: _, [] => none

/-- What follows the word at the front of the text. -/
def literal (word : String) (cs : List Char) : Option (List Char) :=
  literalBy (· == ·) word.toList cs

/-- What follows the word at the front of the text, in any case. -/
def literalFold (word : String) (cs : List Char) : Option (List Char) :=
  literalBy sameLetter word.toList cs

/-- The longest non-empty run of characters of a class at the front, and the rest. -/
def run (p : Char → Bool) (cs : List Char) : Option (List Char × List Char) :=
  match cs.takeWhile p with
  | [] => none
  | d :: ds => some (d :: ds, cs.dropWhile p)

/-- A run of decimal digits. -/
def digits : List Char → Option (List Char × List Char) :=
  run isDecimalDigit

/-- Exactly so many decimal digits, whatever follows them. -/
def fixedDigits (count : Nat) (cs : List Char) : Option (List Char × List Char) :=
  let ds := cs.take count
  if ds.length = count ∧ ds.all isDecimalDigit then some (ds, cs.drop count) else none

/-- Digits, and if a point with digits after it follows, these too. -/
def decimal (cs : List Char) : Option (List Char × List Char) :=
  match digits cs with
  | none => none
  | some (whole, '.' :: rest) =>
    match digits rest with
    | some (fraction, rest) => some (whole ++ '.' :: fraction, rest)
    | none => some (whole, '.' :: rest)
  | some (whole, rest) => some (whole, rest)

theorem literalBy_append (same : Char → Char → Bool) (refl : ∀ c, same c c = true) :
    ∀ (w cs : List Char), literalBy same w (w ++ cs) = some cs
  | [], _ => rfl
  | w :: ws, cs => by simp [literalBy, refl, literalBy_append same refl ws cs]

theorem literal_append (word : String) (cs : List Char) :
    literal word (word.toList ++ cs) = some cs :=
  literalBy_append _ (by simp) _ _

theorem literal_eq_some_iff {word : String} {cs rest : List Char} :
    literal word cs = some rest ↔ cs = word.toList ++ rest := by
  constructor
  · unfold literal
    generalize word.toList = w
    induction w generalizing cs with
    | nil => simp [literalBy]
    | cons a w ih =>
      cases cs with
      | nil => simp [literalBy]
      | cons c cs =>
        simp only [literalBy]
        split
        · rename_i hac
          intro h
          rw [ih h, beq_iff_eq.1 hac]
          rfl
        · simp
  · rintro rfl
    exact literal_append _ _

/-- A run is a non-empty stretch of the class that the text does not prolong. -/
theorem run_eq_some_iff {p : Char → Bool} {cs ds rest : List Char} :
    run p cs = some (ds, rest) ↔
      ds ≠ [] ∧ cs = ds ++ rest ∧ (∀ c ∈ ds, p c = true) ∧
        ∀ c, rest.head? = some c → p c = false := by
  have key : ∀ (ds rest : List Char), (∀ c ∈ ds, p c = true) →
      (∀ c, rest.head? = some c → p c = false) →
      (ds ++ rest).takeWhile p = ds ∧ (ds ++ rest).dropWhile p = rest := by
    intro ds rest hd hr
    induction ds with
    | nil =>
      cases rest with
      | nil => simp
      | cons c rest => simp [hr c rfl]
    | cons d ds ih =>
      have := ih fun c hc => hd c (List.mem_cons_of_mem _ hc)
      simp [hd d List.mem_cons_self, this]
  constructor
  · intro h
    unfold run at h
    split at h
    · simp at h
    · rename_i d tl ht
      simp only [Option.some.injEq, Prod.mk.injEq] at h
      obtain ⟨rfl, rfl⟩ := h
      refine ⟨by simp, ?_, ?_, ?_⟩
      · rw [← ht, List.takeWhile_append_dropWhile]
      · intro c hc
        rw [← ht] at hc
        exact List.all_eq_true.1 List.all_takeWhile c hc
      · intro c hc
        have hn : cs.dropWhile p ≠ [] := by intro e; simp [e] at hc
        have := List.head_dropWhile_not p hn
        rw [List.head?_eq_some_head hn, Option.some.injEq] at hc
        rw [← hc, this]
  · rintro ⟨hne, rfl, hd, hr⟩
    obtain ⟨h1, h2⟩ := key ds rest hd hr
    unfold run
    rw [h1, h2]
    cases ds with
    | nil => exact absurd rfl hne
    | cons d ds => rfl

/-! ### Searching -/

/-- The first position at which a reader succeeds. The reader is given the
character in front of the position, if there is one. -/
def search (reader : Option Char → List Char → Option α) : Option Char → List Char → Option α
  | before, [] => reader before []
  | before, c :: cs =>
    match reader before (c :: cs) with
    | some a => some a
    | none => search reader (some c) cs

/-- What a search finds, a reader reads somewhere, and at no earlier position. -/
theorem search_eq_some {reader : Option Char → List Char → Option α} {a : α} :
    ∀ {before : Option Char} {cs : List Char}, search reader before cs = some a →
      ∃ front rest, cs = front ++ rest ∧
        reader (front.getLast?.or before) rest = some a ∧
        ∀ f g, front = f ++ g → g ≠ [] → reader (f.getLast?.or before) (g ++ rest) = none
  | before, [], h => ⟨[], [], rfl, h, by simp_all⟩
  | before, c :: cs, h => by
    rw [search] at h
    split at h
    · rename_i b hb
      obtain rfl : b = a := by simpa using h
      exact ⟨[], c :: cs, rfl, hb, by simp_all⟩
    · rename_i hb
      obtain ⟨front, rest, rfl, hr, hf⟩ := search_eq_some h
      refine ⟨c :: front, rest, rfl, ?_, ?_⟩
      · cases front <;> simp_all [List.getLast?_cons]
      · intro f g hfg hg
        cases f with
        | nil =>
          simp only [List.nil_append] at hfg
          subst hfg
          simpa using hb
        | cons d f =>
          simp only [List.cons_append, List.cons.injEq] at hfg
          obtain ⟨rfl, rfl⟩ := hfg
          have := hf f g rfl hg
          cases f <;> simp_all [List.getLast?_cons]

end BenchLog.Text
