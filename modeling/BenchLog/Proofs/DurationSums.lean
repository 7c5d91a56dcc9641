/-
# Durations as sums

A text without blanks around it is a duration if it is put together of components,
a number and a unit each. There is one way at most to put it together, because the
characters of numbers are none of units and the other way round, and its
milliseconds are those of the components, added from the left. In any other case
the whole text is named as malformed, however much of its front could be read.

The text is cut before it is read. So that cutting is sound is a statement of its
own: there are no more components than characters, and each cut, counted in the
bytes of the text, is in front of a character (`isValid_of_mem_cuts`).

Key definitions: `Duration.Component`, `Duration.Spells`, `Duration.total`,
`Duration.cuts`.
Key theorems: `Duration.Spells.unique`, `Duration.milliseconds_of_spells`,
`Duration.milliseconds_outcome`.
-/
import Mathlib.Data.Set.List
import BenchLog.Proofs.UsableLogs

namespace BenchLog.Duration

/-! ### Components -/

/-- The units with their milliseconds. -/
def unitFactors : List (List Char × Float) :=
  [(['h'], 3600000), (['m'], 60000), (['s'], 1000), (['m', 's'], 1), (['u', 's'], 1e-3),
    (['\u00B5', 's'], 1e-3), (['\u03BC', 's'], 1e-3), (['n', 's'], 1e-6)]

/-- A number with a unit behind it. -/
structure Component where
  number : List Char
  unit : List Char
  /-- The milliseconds in the unit. -/
  factor : Float
  isNumber : IsNumber number
  isUnit : (unit, factor) ∈ unitFactors

/-- The digits in front of the point of a number, and those behind it. -/
def numeralOf (number : List Char) : Number.Numeral :=
  ⟨number.takeWhile (· ≠ '.'), (number.dropWhile (· ≠ '.')).tail, 0⟩

namespace Component

/-- The number and the unit. -/
def parts (c : Component) : List Char × List Char := (c.number, c.unit)

/-- A component as it stands in a text. -/
def text (c : Component) : List Char := c.number ++ c.unit

/-- What a component stands for. -/
def milliseconds (c : Component) : Float := (numeralOf c.number).value * c.factor

end Component

/-- The components make up the text. -/
def Spells (components : List Component) (text : List Char) : Prop :=
  components ≠ [] ∧ text = components.flatMap Component.text

/-- The sum of the components, added from the left. -/
def total (components : List Component) : Float :=
  components.foldl (fun sum c => sum + c.milliseconds) 0

theorem mem_unitFactors_iff {unit : List Char} {factor : Float} :
    (unit, factor) ∈ unitFactors ↔ factor? unit = some factor := by
  constructor
  · intro h
    simp only [unitFactors, List.mem_cons, Prod.mk.injEq, List.not_mem_nil, or_false] at h
    rcases h with ⟨rfl, rfl⟩ | ⟨rfl, rfl⟩ | ⟨rfl, rfl⟩ | ⟨rfl, rfl⟩ | ⟨rfl, rfl⟩ | ⟨rfl, rfl⟩ |
      ⟨rfl, rfl⟩ | ⟨rfl, rfl⟩
    all_goals rfl
  · intro h
    unfold factor? at h
    split at h
    all_goals
      cases h
      try simp [unitFactors]

theorem Component.unit_mem (c : Component) : c.unit ∈ units := by
  apply isSome_factor?_iff.mp
  rw [mem_unitFactors_iff.mp c.isUnit]
  rfl

/-- The number and the unit settle a component. -/
theorem Component.parts_injective : Function.Injective Component.parts := by
  rintro ⟨number, unit, f, hf, hunit⟩ ⟨number', unit', f', hf', hunit'⟩ h
  obtain ⟨rfl, rfl⟩ : number = number' ∧ unit = unit' := by simpa [parts] using h
  have hfactor : some f = some f' := by
    rw [← mem_unitFactors_iff.mp hunit, mem_unitFactors_iff.mp hunit']
  cases hfactor
  rfl

theorem exists_component {part : List Char × List Char} (hnumber : IsNumber part.1)
    (hunit : part.2 ∈ units) : ∃ c : Component, c.parts = part := by
  obtain ⟨f, hf⟩ := Option.isSome_iff_exists.mp (isSome_factor?_iff.mpr hunit)
  exact ⟨⟨part.1, part.2, f, hnumber, mem_unitFactors_iff.mpr hf⟩, rfl⟩

/-! ### One way to put a text together -/

theorem flatMap_parts (cs : List Component) :
    (cs.map Component.parts).flatMap (fun part => part.1 ++ part.2) =
      cs.flatMap Component.text := by
  rw [List.flatMap_map]
  rfl

/-- A text that is put together of components is cut into them. -/
theorem Spells.components_eq {cs : List Component} {text : List Char} (h : Spells cs text) :
    components text = cs.map Component.parts := by
  rw [h.2, ← flatMap_parts]
  apply components_flatMap
  intro part hpart
  obtain ⟨c, -, rfl⟩ := List.mem_map.mp hpart
  exact ⟨c.isNumber, c.unit_mem⟩

theorem Spells.unique {cs cs' : List Component} {text : List Char} (h : Spells cs text)
    (h' : Spells cs' text) : cs = cs' := by
  apply Component.parts_injective.list_map
  rw [← h.components_eq, ← h'.components_eq]

theorem exists_spells_iff {text : List Char} :
    (∃ cs, Spells cs text) ↔ IsWellFormed text := by
  constructor
  · rintro ⟨cs, hne, htext⟩
    refine ⟨cs.map Component.parts, by simpa using hne, by rw [htext, flatMap_parts], ?_⟩
    intro part hpart
    obtain ⟨c, -, rfl⟩ := List.mem_map.mp hpart
    exact ⟨c.isNumber, c.unit_mem⟩
  · rintro ⟨parts, hne, htext, hparts⟩
    have hrange : parts ∈ Set.range (List.map Component.parts) := by
      rw [Set.range_list_map]
      intro part hpart
      obtain ⟨hnumber, hunit⟩ := hparts part hpart
      exact exists_component hnumber hunit
    obtain ⟨cs, rfl⟩ := hrange
    exact ⟨cs, by simpa using hne, by rw [htext, flatMap_parts]⟩

/-! ### Reading the components -/

/-- A number is read as the digits in front of its point and those behind it. -/
theorem numeral?_of_isNumber {number : List Char} (h : IsNumber number) :
    Number.numeral? number = some (numeralOf number) := by
  obtain ⟨whole, fraction, hwhole, hfraction, hne, hnumber⟩ := h
  have hpoint : ∀ c ∈ whole, decide (c ≠ '.') = true := by
    intro c hc
    simpa using Text.ne_of_isDigit (hwhole c hc) (by decide)
  rcases hnumber with rfl | ⟨rfl, rfl⟩
  · obtain ⟨htake, hdrop⟩ := Text.span_append hpoint ('.' :: fraction) (by simp)
    have hread := Number.numeral?_point [] hwhole hfraction hne (by simp)
    rw [List.append_nil] at hread
    rw [hread, numeralOf, htake, hdrop]
    rfl
  · obtain ⟨htake, hdrop⟩ := Text.span_append hpoint [] (by simp)
    rw [List.append_nil] at htake hdrop
    have hread := Number.numeral?_whole [] hwhole (by simpa using hne) (by simp)
    rw [List.append_nil] at hread
    rw [hread, numeralOf, htake, hdrop]
    rfl

theorem component?_eq (c : Component) : component? c.number c.unit = some c.milliseconds := by
  simp only [component?, numeral?_of_isNumber c.isNumber, mem_unitFactors_iff.mp c.isUnit,
    Option.bind_eq_bind, Option.bind_some]
  rfl

/-- What is summed up so far is carried on. -/
theorem foldlM_component? (cs : List Component) (sum : Float) :
    (cs.map Component.parts).foldlM
        (fun sum part => (component? part.1 part.2).map (sum + ·)) sum =
      some (cs.foldl (fun sum c => sum + c.milliseconds) sum) := by
  induction cs generalizing sum with
  | nil => rfl
  | cons c cs ih =>
    rw [List.map_cons, List.foldlM_cons, List.foldl_cons, ← ih]
    show (component? c.number c.unit).map (sum + ·) >>= _ = _
    rw [component?_eq]
    rfl

theorem milliseconds_of_spells {text : List Char} {cs : List Component}
    (h : Spells cs (Text.trim text)) : milliseconds text = .ok (total cs) := by
  obtain ⟨c, cs, rfl⟩ := List.exists_cons_of_ne_nil h.1
  have hsum : sum? ((c :: cs).map Component.parts) = some (total (c :: cs)) :=
    foldlM_component? (c :: cs) 0
  unfold milliseconds
  simp only [h.components_eq, List.map_cons]
  rw [List.map_cons] at hsum
  rw [hsum]

theorem milliseconds_of_not_spells {text : List Char}
    (h : ¬∃ cs, Spells cs (Text.trim text)) :
    milliseconds text = .error (.malformedDuration (Text.trim text)) := by
  rw [exists_spells_iff, ← isSome_sum?_components_iff] at h
  unfold milliseconds
  dsimp only
  split
  · rfl
  · rename_i parts hparts
    split
    · rename_i sum hsum
      exact absurd ⟨hparts, by rw [hsum]; rfl⟩ h
    · rfl

/-! ### Cutting -/

/-- The number of bytes that characters take. -/
def width (cs : List Char) : Nat :=
  (String.ofList cs).utf8ByteSize

/-- Where components end that begin at a place, and where their numbers end, in bytes. -/
def cuts : Nat → List (List Char × List Char) → List Nat
  | _, [] => []
  | start, (number, unit) :: parts =>
    (start + width number) :: (start + width number + width unit) ::
      cuts (start + width number + width unit) parts

theorem width_append (cs ds : List Char) : width (cs ++ ds) = width cs + width ds := by
  simp [width]

theorem isValid_width (front back : List Char) :
    String.Pos.Raw.IsValid (String.ofList (front ++ back)) ⟨width front⟩ :=
  String.Pos.Raw.isValid_iff_exists_append.mpr
    ⟨String.ofList front, String.ofList back, String.ofList_append, rfl⟩

/-- A text is cut in front of its characters, never inside one. -/
theorem isValid_of_mem_cuts {parts : List (List Char × List Char)} :
    ∀ {front : List Char}, ∀ n ∈ cuts (width front) parts, String.Pos.Raw.IsValid
      (String.ofList (front ++ parts.flatMap fun part => part.1 ++ part.2)) ⟨n⟩ := by
  induction parts with
  | nil => simp [cuts]
  | cons part parts ih =>
    obtain ⟨number, unit⟩ := part
    intro front n hn
    simp only [cuts, List.mem_cons, ← width_append] at hn
    rw [List.flatMap_cons]
    rcases hn with rfl | rfl | hn
    · rw [List.append_assoc, ← List.append_assoc front]
      exact isValid_width _ _
    · rw [← List.append_assoc, ← List.append_assoc front]
      exact isValid_width _ _
    · rw [← List.append_assoc, ← List.append_assoc front]
      exact ih n hn

/-- Each component takes a character. -/
theorem length_components_le (text : List Char) : (components text).length ≤ text.length := by
  fun_induction components text with
  | case1 => simp
  | case2 c cs hc number unit rest hcs ih => simp_all; omega
  | case3 => simp
  | case4 c cs hc unit rest hcs ih => simp_all; omega
  | case5 c cs hc _ ih => simpa using ih

/-- **A text is a duration if and only if, without the blanks around it, it is put together of
numbers with a unit behind each. There is no second way to do so, and the milliseconds are those
of the components, added from the left. Any other text is malformed, and the error names it.
There are no more cuts than two for each character, and none is inside a character.** -/
theorem milliseconds_outcome (text : List Char) :
    (∀ x, milliseconds text = .ok x ↔ ∃ cs, Spells cs (Text.trim text) ∧ x = total cs) ∧
      (∀ cs cs', Spells cs (Text.trim text) → Spells cs' (Text.trim text) → cs = cs') ∧
      (∀ e, milliseconds text = .error e ↔
        e = .malformedDuration (Text.trim text) ∧ ¬∃ cs, Spells cs (Text.trim text)) ∧
      (Error.malformedDuration (Text.trim text)).message =
        "Format error: malformed execution time " ++ String.ofList (Text.quote (Text.trim text)) ∧
      (components (Text.trim text)).length ≤ (Text.trim text).length ∧
      ∀ n ∈ cuts 0 (components (Text.trim text)),
        String.Pos.Raw.IsValid (String.ofList (Text.trim text)) ⟨n⟩ := by
  refine ⟨fun x => ?_, fun cs cs' h h' => h.unique h', fun e => ?_, rfl,
    length_components_le _, fun n hn => ?_⟩
  · constructor
    · intro hx
      by_cases h : ∃ cs, Spells cs (Text.trim text)
      · obtain ⟨cs, hcs⟩ := h
        rw [milliseconds_of_spells hcs] at hx
        exact ⟨cs, hcs, (Except.ok.inj hx).symm⟩
      · rw [milliseconds_of_not_spells h] at hx
        cases hx
    · rintro ⟨cs, hcs, rfl⟩
      exact milliseconds_of_spells hcs
  · constructor
    · intro he
      by_cases h : ∃ cs, Spells cs (Text.trim text)
      · obtain ⟨cs, hcs⟩ := h
        rw [milliseconds_of_spells hcs] at he
        cases he
      · rw [milliseconds_of_not_spells h] at he
        exact ⟨(Except.error.inj he).symm, h⟩
    · rintro ⟨rfl, h⟩
      exact milliseconds_of_not_spells h
  · have hvalid := @isValid_of_mem_cuts (components (Text.trim text)) [] n hn
    rwa [List.nil_append, components_join] at hvalid

end BenchLog.Duration
