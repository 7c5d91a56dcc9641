/-
# JSON is read as it was written

A value is written over many lines and read back whatever stands behind it, as
long as that cannot prolong a number. Two things make this more than reading
each lexeme in turn. A control character without an escape of its own is written
as the unit of sixteen bits that it is, and it is no half of a character beyond
the basic plane, so no unit is lost in joining the halves. And the steps of the
reader are bounded, by a number that the length of the text exceeds.

Key definitions: `JsonValue.EndsNumber`, `JsonValue.IsLiteral`,
`JsonValue.Printable`.
Key theorems: `JsonValue.stringRest_escapes`, `JsonValue.numberLiteral_append`,
`JsonValue.Printable.readsBack`, `JsonValue.parse?_pretty`.
-/
import BenchLog.Json.Parse
import BenchLog.Proofs.WrittenNumbers

namespace BenchLog.JsonValue

/-! ### Texts -/

/-- A character as it is read from its written form. -/
def partOf (c : Char) : TextPart :=
  match c with
  | '\x08' | '\x0C' | '\n' | '\r' | '\t' => .char c
  | _ => if c.toNat < 0x20 then .unit c.toNat else .char c

/-- Four digits of a control character are read as its number. -/
theorem unit?_digits : ∀ n : Fin 32,
    (match List.replicate (4 - (Nat.toDigits 16 n).length) '0' ++ Nat.toDigits 16 n with
      | [a, b, c, d] => unit? a b c d
      | _ => none) = some (.unit n) := by
  decide

theorem stringRest_unit {n : ℕ} (hn : n < 0x20) (read : List TextPart) (cs : List Char) :
    stringRest read (['\\', 'u'] ++ List.replicate (4 - (Nat.toDigits 16 n).length) '0' ++
      Nat.toDigits 16 n ++ cs) = stringRest (.unit n :: read) cs := by
  have hdigits := unit?_digits ⟨n, hn⟩
  simp only at hdigits
  split at hdigits
  · rename_i a b c d hfour
    rw [List.append_assoc ['\\', 'u'], hfour]
    change (unit? a b c d).bind (fun unit => stringRest (unit :: read) cs) = _
    rw [hdigits, Option.bind_some]
  · cases hdigits

/-- A written character is read as one part. -/
theorem stringRest_escape (c : Char) (read : List TextPart) (cs : List Char) :
    stringRest read (escape c ++ cs) = stringRest (partOf c :: read) cs := by
  unfold escape
  split
  case h_8 hquote hslash hback hform hfeed hreturn htab =>
    have hpart : partOf c = if c.toNat < 0x20 then .unit c.toNat else .char c := by
      unfold partOf
      split <;> simp_all
    rw [hpart]
    split
    · rename_i hcontrol
      exact stringRest_unit hcontrol read cs
    · rename_i hplain
      rw [List.singleton_append, stringRest]
      · exact if_neg fun h => h.elim hslash hplain
      · exact hquote
      · exact fun _ _ _ _ _ h _ => hslash h
      · exact fun _ _ h _ => hslash h
  all_goals rfl

/-- The characters of a text are read up to the quote behind it. -/
theorem stringRest_escapes (cs : List Char) (read : List TextPart) (rest : List Char) :
    stringRest read (cs.flatMap escape ++ '"' :: rest) =
      some (read.reverse ++ cs.map partOf, rest) := by
  induction cs generalizing read with
  | nil => simp [stringRest]
  | cons c cs ih =>
    rw [List.flatMap_cons, List.append_assoc, stringRest_escape, ih]
    simp

/-- A unit that is no half of a pair is a character of its own. -/
theorem joinUnits_unit {n : ℕ} (hfirst : isFirstHalf n = false) (hsecond : isSecondHalf n = false)
    (parts : List TextPart) :
    joinUnits (.unit n :: parts) = (joinUnits parts).map (Char.ofNat n :: ·) := by
  cases parts with
  | nil => simp [joinUnits, hfirst, hsecond]
  | cons part parts => cases part <;> simp [joinUnits, hfirst, hsecond]

theorem joinUnits_partOf (c : Char) (parts : List TextPart) :
    joinUnits (partOf c :: parts) = (joinUnits parts).map (c :: ·) := by
  unfold partOf
  split
  case h_6 =>
    split
    · rename_i hcontrol
      have hfirst : isFirstHalf c.toNat = false := by
        simp only [isFirstHalf, Bool.and_eq_false_iff, decide_eq_false_iff_not]
        omega
      have hsecond : isSecondHalf c.toNat = false := by
        simp only [isSecondHalf, Bool.and_eq_false_iff, decide_eq_false_iff_not]
        omega
      rw [joinUnits_unit hfirst hsecond, Char.ofNat_toNat]
    · rfl
  all_goals rfl

theorem joinUnits_map_partOf (cs : List Char) : joinUnits (cs.map partOf) = some cs := by
  induction cs with
  | nil => rfl
  | cons c cs ih => rw [List.map_cons, joinUnits_partOf, ih, Option.map_some]

/-! ### Numbers -/

/-- What stands behind a number does not prolong it. -/
def EndsNumber (rest : List Char) : Prop :=
  ∀ c, rest.head? = some c → c.isDigit = false ∧ c ≠ '.' ∧ c ≠ 'e' ∧ c ≠ 'E'

/-- A number as it is written: a numeral without superfluous zeros, with its sign. -/
def IsLiteral (literal : List Char) : Prop :=
  ∃ (negative : Bool) (n : NumeralText), n.HasPlainWhole ∧
    literal = (if negative then ['-'] else []) ++ n.text

theorem digits?_append (ds : Digits) {rest : List Char}
    (h : ∀ c, rest.head? = some c → c.isDigit = false) :
    digits? (ds.chars ++ rest) = some (ds.chars, rest) := by
  obtain ⟨htake, hdrop⟩ := Text.span_append (List.all_eq_true.mp ds.all_isDigit) rest h
  rw [digits?, htake, hdrop]
  have hne := ds.ne_nil
  split <;> simp_all

theorem whole?_append {n : NumeralText} (hn : n.HasPlainWhole) {rest : List Char}
    (h : ∀ c, rest.head? = some c → c.isDigit = false) :
    whole? (n.decimal.whole.chars ++ rest) = some (n.decimal.whole.chars, rest) := by
  rcases hn with hzero | hhead
  · have hrest : rest.head?.any Char.isDigit = false := by
      cases rest with
      | nil => rfl
      | cons c rest => exact h c rfl
    rw [hzero, List.singleton_append, whole?, hrest, if_neg Bool.false_ne_true]
  · rw [← digits?_append _ h, whole?]
    intro cs hcs
    have hzero := congrArg List.head? hcs
    rw [List.head?_append_of_ne_nil _ n.decimal.whole.ne_nil] at hzero
    exact hhead hzero

theorem fraction?_append (fraction : Option Digits) {rest : List Char}
    (h : ∀ c, rest.head? = some c → c.isDigit = false ∧ c ≠ '.') :
    fraction? (fraction.elim [] (fun ds => '.' :: ds.chars) ++ rest) =
      some (fraction.elim [] (fun ds => '.' :: ds.chars), rest) := by
  cases fraction with
  | none =>
    rw [Option.elim_none, List.nil_append, fraction?]
    rintro cs rfl
    exact (h '.' rfl).2 rfl
  | some ds =>
    rw [Option.elim_some, List.cons_append, fraction?, digits?_append ds fun c hc => (h c hc).1]
    rfl

theorem exponent?_append (exponent : Option ExponentText) {rest : List Char}
    (h : EndsNumber rest) :
    exponent? (exponent.elim [] (·.text) ++ rest) = some (exponent.elim [] (·.text), rest) := by
  cases exponent with
  | none =>
    cases rest with
    | nil => rfl
    | cons c rest =>
      obtain ⟨-, -, hsmall, hlarge⟩ := h c rfl
      exact if_neg fun hc => hc.elim hsmall hlarge
  | some e =>
    obtain ⟨sign, digits⟩ := e
    have hdigits := digits?_append digits fun c hc => (h c hc).1
    cases sign with
    | none =>
      have hhead : ∀ c, (digits.chars ++ rest).head? = some c → c.isDigit = true := by
        intro c hc
        rw [List.head?_append_of_ne_nil _ digits.ne_nil] at hc
        exact List.all_eq_true.mp digits.all_isDigit c (List.mem_of_mem_head? hc)
      rw [Option.elim_some, ExponentText.text, ExponentSign.text, List.nil_append, List.cons_append,
        exponent?, if_pos (.inl rfl)]
      · rw [hdigits]
        rfl
      · exact fun cs hplus => absurd (hhead '+' (by rw [hplus]; rfl)) (by decide)
      · exact fun cs hminus => absurd (hhead '-' (by rw [hminus]; rfl)) (by decide)
    | plus =>
      change (digits? (digits.chars ++ rest)).map (fun p => ('e' :: '+' :: p.1, p.2)) = _
      rw [hdigits]
      rfl
    | minus =>
      change (digits? (digits.chars ++ rest)).map (fun p => ('e' :: '-' :: p.1, p.2)) = _
      rw [hdigits]
      rfl

/-- A number is read as it was written. -/
theorem numberLiteral_append {literal rest : List Char} (hl : IsLiteral literal)
    (h : EndsNumber rest) : numberLiteral (literal ++ rest) = some (literal, rest) := by
  obtain ⟨negative, n, hn, rfl⟩ := hl
  have hexponent : ∀ c, (n.exponent.elim [] (·.text) ++ rest).head? = some c →
      c.isDigit = false ∧ c ≠ '.' := by
    intro c hc
    cases he : n.exponent with
    | none =>
      rw [he] at hc
      exact ⟨(h c hc).1, (h c hc).2.1⟩
    | some e =>
      rw [he] at hc
      obtain rfl : 'e' = c := Option.some.inj hc
      decide
  have hfraction : ∀ c, (n.decimal.fraction.elim [] (fun ds => '.' :: ds.chars) ++
      (n.exponent.elim [] (·.text) ++ rest)).head? = some c → c.isDigit = false := by
    intro c hc
    cases hf : n.decimal.fraction with
    | none =>
      rw [hf] at hc
      exact (hexponent c hc).1
    | some ds =>
      rw [hf] at hc
      obtain rfl : '.' = c := Option.some.inj hc
      rfl
  have htext : n.text ++ rest = n.decimal.whole.chars ++
      (n.decimal.fraction.elim [] (fun ds => '.' :: ds.chars) ++
        (n.exponent.elim [] (·.text) ++ rest)) := by
    simp [n.text_eq_append, NumeralText.tail]
  have hsign : (if ((if negative then ['-'] else []) ++ n.text ++ rest).head? = some '-' then
        (['-'], ((if negative then ['-'] else []) ++ n.text ++ rest).tail)
      else ([], (if negative then ['-'] else []) ++ n.text ++ rest)) =
      (if negative then ['-'] else [], n.text ++ rest) := by
    cases negative with
    | true => rfl
    | false =>
      obtain ⟨c, cs, hcs, hc⟩ := n.exists_text_cons
      have hminus : c ≠ '-' := Text.ne_of_isDigit hc (by decide)
      simp [hcs, hminus]
  rw [numberLiteral, hsign]
  simp only [htext, whole?_append hn hfraction, fraction?_append _ hexponent,
    exponent?_append _ h, Option.bind_eq_bind, Option.bind_some]
  simp [n.text_eq_append, NumeralText.tail]

/-! ### Blanks -/

/-- A blank that may stand between the lexemes of values. -/
def isGap (c : Char) : Bool :=
  c == ' ' || c == '\t' || c == '\n' || c == '\r'

/-- Blanks between the lexemes of values. -/
def IsBlanks (bs : List Char) : Prop :=
  ∀ c ∈ bs, isGap c = true

theorem isBlanks_newLine (level : ℕ) : IsBlanks (newLine level) := by
  intro c hc
  rcases List.mem_cons.mp hc with rfl | hc
  · rfl
  · rw [List.eq_of_mem_replicate hc]
    rfl

theorem skipBlanks_append {bs : List Char} (hbs : IsBlanks bs) (cs : List Char) :
    skipBlanks (bs ++ cs) = skipBlanks cs :=
  List.dropWhile_append_of_pos hbs

theorem value_append {bs : List Char} (hbs : IsBlanks bs) (fuel : ℕ) (cs : List Char) :
    value fuel (bs ++ cs) = value fuel cs := by
  cases fuel with
  | zero => simp only [value]
  | succ fuel => simp only [value, skipBlanks_append hbs]

theorem items_append {bs : List Char} (hbs : IsBlanks bs) (fuel : ℕ) (cs : List Char) :
    items fuel (bs ++ cs) = items fuel cs := by
  cases fuel with
  | zero => simp only [items]
  | succ fuel => simp only [items, value_append hbs]

theorem members_append {bs : List Char} (hbs : IsBlanks bs) (fuel : ℕ) (cs : List Char) :
    members fuel (bs ++ cs) = members fuel cs := by
  cases fuel with
  | zero => simp only [members]
  | succ fuel => simp only [members, skipBlanks_append hbs]

theorem skipBlanks_cons {c : Char} (hc : isGap c = false) (cs : List Char) :
    skipBlanks (c :: cs) = c :: cs :=
  List.dropWhile_cons_of_neg (Bool.eq_false_iff.mp hc)

/-! ### Values -/

/-- A value that is read back: its texts are there and its numbers are written as numbers. -/
inductive Printable : JsonValue → Prop
  | null : Printable .null
  | boolean (b : Bool) : Printable (.boolean b)
  | number {literal : List Char} : IsLiteral literal → Printable (.number literal)
  | string (cs : List Char) : Printable (.string (some cs))
  | array {items : List JsonValue} : (∀ v ∈ items, Printable v) → Printable (.array items)
  | object {members : List (Option (List Char) × JsonValue)} :
      (∀ m ∈ members, m.1.isSome) → (∀ m ∈ members, Printable m.2) → Printable (.object members)

/-- A value is read in as many steps as it has characters. -/
def ReadsBack (v : JsonValue) : Prop :=
  ∀ (level fuel : ℕ) (rest : List Char), (pretty level v).length ≤ fuel → EndsNumber rest →
    value fuel (pretty level v ++ rest) = some (v, rest)

theorem endsNumber_cons {c : Char} (hdigit : c.isDigit = false) (hpoint : c ≠ '.')
    (hsmall : c ≠ 'e') (hlarge : c ≠ 'E') (rest : List Char) : EndsNumber (c :: rest) := by
  intro d hd
  obtain rfl : c = d := Option.some.inj hd
  exact ⟨hdigit, hpoint, hsmall, hlarge⟩

theorem endsNumber_prettyItems (level close : ℕ) (items : List JsonValue) (rest : List Char) :
    EndsNumber (prettyItems level items ++ (newLine close ++ rest)) := by
  cases items with
  | nil => exact endsNumber_cons rfl (by decide) (by decide) (by decide) _
  | cons item items => exact endsNumber_cons rfl (by decide) (by decide) (by decide) _

theorem endsNumber_prettyMembers (level close : ℕ)
    (members : List (Option (List Char) × JsonValue)) (rest : List Char) :
    EndsNumber (prettyMembers level members ++ (newLine close ++ rest)) := by
  cases members with
  | nil => exact endsNumber_cons rfl (by decide) (by decide) (by decide) _
  | cons m members => exact endsNumber_cons rfl (by decide) (by decide) (by decide) _

theorem exists_literal_cons {literal : List Char} (h : IsLiteral literal) :
    ∃ c cs, literal = c :: cs ∧ (c.isDigit = true ∨ c = '-') := by
  obtain ⟨negative, n, -, rfl⟩ := h
  obtain ⟨c, cs, hcs, hc⟩ := n.exists_text_cons
  cases negative with
  | false => exact ⟨c, cs, hcs, .inl hc⟩
  | true => exact ⟨'-', n.text, rfl, .inr rfl⟩

theorem not_isGap_of_lead {c : Char} (hc : c.isDigit = true ∨ c = '-') :
    isGap c = false := by
  rcases hc with hc | rfl
  · exact Bool.not_eq_true' _ |>.mp
      (Text.of_isDigit (fun c => !isGap c) (by decide) hc)
  · rfl

/-- There is a step left for a text that holds something. -/
theorem exists_succ {length fuel : ℕ} (hpos : 0 < length) (h : length ≤ fuel) :
    ∃ f, fuel = f + 1 :=
  Nat.exists_eq_succ_of_ne_zero (by omega)

/-- What begins like a number is read as one. -/
theorem value_of_lead {c : Char} (hc : c.isDigit = true ∨ c = '-') (fuel : ℕ) (cs : List Char) :
    value (fuel + 1) (c :: cs) =
      (numberLiteral (c :: cs)).map fun (literal, rest) => (number literal, rest) := by
  rw [value, skipBlanks_cons (not_isGap_of_lead hc)]
  split
  case h_7 => rfl
  all_goals
    rename_i heq
    cases heq
    exact absurd hc (by decide)

theorem readsBack_number {literal : List Char} (h : IsLiteral literal) :
    ReadsBack (.number literal) := by
  intro level fuel rest hfuel hrest
  obtain ⟨c, cs, hcs, hc⟩ := exists_literal_cons h
  obtain ⟨f, rfl⟩ := exists_succ (by simp [pretty, hcs]) hfuel
  have hread := numberLiteral_append h hrest
  rw [hcs, List.cons_append] at hread
  rw [pretty, hcs, List.cons_append, value_of_lead hc, hread]
  rfl

theorem value_quoted (cs : List Char) (fuel : ℕ) (rest : List Char) :
    value (fuel + 1) (quoted cs ++ rest) = some (.string (some cs), rest) := by
  have hread := stringRest_escapes cs [] rest
  rw [List.reverse_nil, List.nil_append] at hread
  have hvalue : value (fuel + 1) (quoted cs ++ rest) =
      (stringRest [] (cs.flatMap escape ++ '"' :: rest)).map
        fun p => (string (joinUnits p.1), p.2) := by
    rw [quoted, List.cons_append, List.append_assoc, List.singleton_append, value]
    rfl
  rw [hvalue, hread, Option.map_some]
  simp only [joinUnits_map_partOf]

/-- A printed value begins with no blank, and with no bracket that ends an array. -/
theorem exists_pretty_cons {v : JsonValue} (h : Printable v) (level : ℕ) :
    ∃ c cs, pretty level v = c :: cs ∧
      isGap c = false ∧ c ≠ ']' := by
  cases h with
  | null => exact ⟨_, _, rfl, rfl, by decide⟩
  | boolean b => cases b <;> exact ⟨_, _, rfl, rfl, by decide⟩
  | number hl =>
    obtain ⟨c, cs, hcs, hc⟩ := exists_literal_cons hl
    refine ⟨c, cs, by rw [pretty, hcs], not_isGap_of_lead hc, ?_⟩
    rintro rfl
    exact absurd hc (by decide)
  | string cs => exact ⟨_, _, rfl, rfl, by decide⟩
  | @array items _ => cases items <;> exact ⟨_, _, by rw [pretty], rfl, by decide⟩
  | @object members _ _ => cases members <;> exact ⟨_, _, by rw [pretty], rfl, by decide⟩

/-! ### Items and members -/

section Steps

variable {f : ℕ} {cs tail rest rest' : List Char} {v : JsonValue}

theorem items_last (hv : value f cs = some (v, tail)) (htail : skipBlanks tail = ']' :: rest) :
    items (f + 1) cs = some ([v], rest) := by
  simp only [items, hv, htail, Option.bind_eq_bind, Option.bind_some]

theorem items_next {vs : List JsonValue} (hv : value f cs = some (v, tail))
    (htail : skipBlanks tail = ',' :: rest) (hvs : items f rest = some (vs, rest')) :
    items (f + 1) cs = some (v :: vs, rest') := by
  simp only [items, hv, htail, hvs, Option.bind_eq_bind, Option.bind_some]

theorem members_last (name : List Char) (hv : value f cs = some (v, tail))
    (htail : skipBlanks tail = '\x7d' :: rest) :
    members (f + 1) (quoted name ++ ':' :: cs) = some ([(some name, v)], rest) := by
  have hname := stringRest_escapes name [] (':' :: cs)
  simp only [members, quoted, List.cons_append, List.append_assoc, List.nil_append]
  rw [skipBlanks_cons rfl]
  simp only [hname, skipBlanks_cons (c := ':') rfl, hv, htail, Option.bind_eq_bind,
    Option.bind_some, List.reverse_nil, List.nil_append, joinUnits_map_partOf]

theorem members_next (name : List Char) {vs : List (Option (List Char) × JsonValue)}
    (hv : value f cs = some (v, tail)) (htail : skipBlanks tail = ',' :: rest)
    (hvs : members f rest = some (vs, rest')) :
    members (f + 1) (quoted name ++ ':' :: cs) = some ((some name, v) :: vs, rest') := by
  have hname := stringRest_escapes name [] (':' :: cs)
  simp only [members, quoted, List.cons_append, List.append_assoc, List.nil_append]
  rw [skipBlanks_cons rfl]
  simp only [hname, skipBlanks_cons (c := ':') rfl, hv, htail, hvs, Option.bind_eq_bind,
    Option.bind_some, List.reverse_nil, List.nil_append, joinUnits_map_partOf]

end Steps

/-- The items of an array are read up to the bracket behind them. -/
theorem items_pretty (level close : ℕ) (rest : List Char) {vs : List JsonValue} :
    ∀ (v : JsonValue) (fuel : ℕ), (∀ w ∈ v :: vs, ReadsBack w) →
      (pretty level v ++ prettyItems level vs).length < fuel →
      items fuel (pretty level v ++ (prettyItems level vs ++ (newLine close ++ ']' :: rest))) =
        some (v :: vs, rest) := by
  induction vs with
  | nil =>
    intro v fuel hvs hfuel
    obtain ⟨f, rfl⟩ := exists_succ (Nat.zero_lt_of_lt hfuel) le_rfl
    rw [List.length_append] at hfuel
    refine items_last (hvs v List.mem_cons_self level f _ (by omega)
      (endsNumber_prettyItems _ _ _ _)) ?_
    exact skipBlanks_append (isBlanks_newLine close) _
  | cons w vs ih =>
    intro v fuel hvs hfuel
    obtain ⟨f, rfl⟩ := exists_succ (Nat.zero_lt_of_lt hfuel) le_rfl
    simp only [prettyItems, List.length_append, List.length_cons] at hfuel
    have htail : prettyItems level (w :: vs) ++ (newLine close ++ ']' :: rest) = ',' ::
        (newLine level ++ (pretty level w ++
          (prettyItems level vs ++ (newLine close ++ ']' :: rest)))) := by
      simp [prettyItems]
    have hnext := ih w f (fun x hx => hvs x (List.mem_cons_of_mem _ hx))
      (by rw [List.length_append]; omega)
    rw [← items_append (isBlanks_newLine level)] at hnext
    exact items_next (hvs v List.mem_cons_self level f _ (by omega)
      (endsNumber_prettyItems _ _ _ _)) (by rw [htail]; exact skipBlanks_cons rfl _) hnext

/-- The members of an object are read up to the brace behind them. -/
theorem members_pretty (level close : ℕ) (rest : List Char)
    {ms : List (Option (List Char) × JsonValue)} :
    ∀ (m : Option (List Char) × JsonValue) (fuel : ℕ), (∀ k ∈ m :: ms, k.1.isSome) →
      (∀ k ∈ m :: ms, ReadsBack k.2) →
      (quoted (m.1.getD []) ++ [':', ' '] ++ pretty level m.2 ++ prettyMembers level ms).length <
        fuel →
      members fuel (quoted (m.1.getD []) ++ [':', ' '] ++ pretty level m.2 ++
        (prettyMembers level ms ++ (newLine close ++ '\x7d' :: rest))) = some (m :: ms, rest) := by
  have hspace : IsBlanks [' '] := by
    intro c hc
    rw [List.mem_singleton.mp hc]
    rfl
  induction ms with
  | nil =>
    rintro ⟨name, v⟩ fuel hnames hms hfuel
    obtain ⟨cs, rfl⟩ := Option.isSome_iff_exists.mp (hnames _ List.mem_cons_self)
    obtain ⟨f, rfl⟩ := exists_succ (Nat.zero_lt_of_lt hfuel) le_rfl
    simp only [List.length_append] at hfuel
    have hback : ReadsBack v := hms _ List.mem_cons_self
    have hv := hback level f _ (by omega) (endsNumber_prettyMembers level close [] ('\x7d' :: rest))
    rw [← value_append hspace] at hv
    have hread := members_last cs hv (skipBlanks_append (isBlanks_newLine close) _)
    simpa using hread
  | cons k ms ih =>
    rintro ⟨name, v⟩ fuel hnames hms hfuel
    obtain ⟨cs, rfl⟩ := Option.isSome_iff_exists.mp (hnames _ List.mem_cons_self)
    obtain ⟨f, rfl⟩ := exists_succ (Nat.zero_lt_of_lt hfuel) le_rfl
    simp only [prettyMembers, List.length_append, List.length_cons] at hfuel
    have hback : ReadsBack v := hms _ List.mem_cons_self
    have hv := hback level f _ (by omega)
      (endsNumber_prettyMembers level close (k :: ms) ('\x7d' :: rest))
    rw [← value_append hspace] at hv
    have hnext := ih k f (fun x hx => hnames x (List.mem_cons_of_mem _ hx))
      (fun x hx => hms x (List.mem_cons_of_mem _ hx))
      (by simp only [List.length_append, List.length_cons]; omega)
    rw [← members_append (isBlanks_newLine level)] at hnext
    have htail : prettyMembers level (k :: ms) ++ (newLine close ++ '\x7d' :: rest) = ',' ::
        (newLine level ++ (quoted (k.1.getD []) ++ [':', ' '] ++ pretty level k.2 ++
          (prettyMembers level ms ++ (newLine close ++ '\x7d' :: rest)))) := by
      simp [prettyMembers]
    have hread := members_next cs hv (by rw [htail]; exact skipBlanks_cons rfl _) hnext
    simpa using hread

/-! ### Whole values -/

theorem value_array {c : Char} (hc : c ≠ ']') {cs cs' : List Char}
    (hcs : skipBlanks cs = c :: cs') (fuel : ℕ) :
    value (fuel + 1) ('[' :: cs) =
      (items fuel (c :: cs')).map fun (vs, rest) => (array vs, rest) := by
  rw [value, skipBlanks_cons rfl]
  simp only [hcs]
  split
  · rename_i heq
    cases heq
    exact absurd rfl hc
  · rfl

theorem value_object {c : Char} (hc : c ≠ '\x7d') {cs cs' : List Char}
    (hcs : skipBlanks cs = c :: cs') (fuel : ℕ) :
    value (fuel + 1) ('\x7b' :: cs) =
      (members fuel (c :: cs')).map fun (vs, rest) => (object vs, rest) := by
  rw [value, skipBlanks_cons rfl]
  simp only [hcs]
  split
  · rename_i heq
    cases heq
    exact absurd rfl hc
  · rfl

/-- Every value that can be printed is read back. -/
theorem Printable.readsBack {v : JsonValue} (h : Printable v) : ReadsBack v := by
  induction h with
  | null =>
    intro level fuel rest hfuel _
    obtain ⟨f, rfl⟩ := exists_succ (by simp [pretty]) hfuel
    rfl
  | boolean b =>
    intro level fuel rest hfuel _
    obtain ⟨f, rfl⟩ := exists_succ (by cases b <;> simp [pretty]) hfuel
    cases b <;> rfl
  | number hl => exact readsBack_number hl
  | string cs =>
    intro level fuel rest hfuel _
    obtain ⟨f, rfl⟩ := exists_succ (by simp [pretty, quoted]) hfuel
    exact value_quoted cs f rest
  | @array items hitems ih =>
    intro level fuel rest hfuel _
    obtain ⟨f, rfl⟩ := exists_succ (by cases items <;> simp [pretty]) hfuel
    cases items with
    | nil => rfl
    | cons item items =>
      simp only [pretty, List.length_append, List.length_cons] at hfuel
      obtain ⟨c, cs, hcs, hblank, hbracket⟩ :=
        exists_pretty_cons (hitems item List.mem_cons_self) (level + 1)
      have hread := items_pretty (level + 1) level rest item f ih
        (by rw [List.length_append]; omega)
      have htext : pretty level (.array (item :: items)) ++ rest = '[' :: (newLine (level + 1) ++
          (pretty (level + 1) item ++ (prettyItems (level + 1) items ++
            (newLine level ++ ']' :: rest)))) := by
        simp [pretty]
      have hskip := skipBlanks_append (isBlanks_newLine (level + 1)) (pretty (level + 1) item ++
        (prettyItems (level + 1) items ++ (newLine level ++ ']' :: rest)))
      rw [hcs, List.cons_append] at hread hskip
      rw [htext, hcs, List.cons_append,
        value_array hbracket (hskip.trans (skipBlanks_cons hblank _)), hread]
      rfl
  | @object members hnames hmembers ih =>
    intro level fuel rest hfuel _
    obtain ⟨f, rfl⟩ := exists_succ (by cases members <;> simp [pretty]) hfuel
    cases members with
    | nil => rfl
    | cons m members =>
      obtain ⟨name, v⟩ := m
      simp only [pretty, List.length_append, List.length_cons] at hfuel
      have hread := members_pretty (level + 1) level rest (name, v) f hnames ih
        (by simp only [List.length_append, List.length_cons]; omega)
      have htext : pretty level (.object ((name, v) :: members)) ++ rest = '\x7b' ::
          (newLine (level + 1) ++ (quoted (name.getD []) ++ [':', ' '] ++ pretty (level + 1) v ++
            (prettyMembers (level + 1) members ++ (newLine level ++ '\x7d' :: rest)))) := by
        simp [pretty]
      have hskip := skipBlanks_append (isBlanks_newLine (level + 1)) (quoted (name.getD []) ++
        [':', ' '] ++ pretty (level + 1) v ++
          (prettyMembers (level + 1) members ++ (newLine level ++ '\x7d' :: rest)))
      simp only [quoted, List.cons_append] at hread hskip htext
      rw [htext, value_object (by decide) (hskip.trans (skipBlanks_cons rfl _)), hread]
      rfl

/-- A printed value is read back from its text. -/
theorem parse?_pretty {v : JsonValue} (h : Printable v) : parse? (pretty 0 v) = some v := by
  have hread := h.readsBack 0 (2 * (pretty 0 v).length + 2) [] (by omega) (by intro c hc; cases hc)
  rw [List.append_nil] at hread
  rw [parse?, hread]
  rfl

/-! ### Values of fields -/

theorem printable_ofText (s : String) : Printable (ofText s) :=
  .string s.toList

theorem printable_ofNat (n : ℕ) : Printable (ofNat n) :=
  .number ⟨false, .ofNat n, NumeralText.hasPlainWhole_ofNat n, (NumeralText.text_ofNat n).symm⟩

/-- A float is written as a number, or as nothing if it is not finite. -/
theorem printable_ofFloat (x : Float) : Printable (ofFloat x) := by
  unfold ofFloat
  split
  · rename_i hfinite
    obtain ⟨negative, m, e, hx⟩ := Number.exists_ofFloat_eq_finite hfinite
    obtain ⟨n, htext, -, hplain, -⟩ := floatStyle.exists_text_float hx
    exact .number ⟨negative, n, hplain, htext⟩
  · exact .null

theorem printable_ofMembers {members : List (String × JsonValue)}
    (h : ∀ m ∈ members, Printable m.2) : Printable (ofMembers members) := by
  refine .object (fun m hm => ?_) (fun m hm => ?_)
  · obtain ⟨k, -, rfl⟩ := List.mem_map.mp hm
    rfl
  · obtain ⟨k, hk, rfl⟩ := List.mem_map.mp hm
    exact h k hk

end BenchLog.JsonValue
