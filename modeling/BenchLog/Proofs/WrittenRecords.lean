/-
# Records are read as they were written

The reader takes one character at a time. In front of a field it holds nothing
of the field. Behind a written field it holds the whole field, whatever is in
it, and stands where a comma ends the field and a line feed the record. The one
exception is an empty field at the start of a record, where a line feed is
skipped; it is the reason that a record of one empty field is written in quotes.

Key definitions: `Place.IsFront`, `Place.behind`, `line`.
Key theorems: `Reader.foldl_step_field`, `Reader.foldl_step_line`,
`Reader.foldl_step_record`, `records_flatMap_record`.
-/
import BenchLog.Csv.Record

namespace BenchLog.Csv

/-- In front of a field. -/
def Place.IsFront (p : Place) : Prop :=
  p = .recordStart ∨ p = .fieldStart

/-- Where a reader that stood in front of a field stands behind it. -/
def Place.behind (p : Place) (cs : List Char) : Place :=
  if cs.any isSpecial then .quoteSeen else if cs = [] then p else .plain

namespace Reader

variable {records : List (List (List Char))} {fields : List (List Char)} {current cs : List Char}
  {p : Place}

/-! ### Fields -/

theorem outside_of_not_isSpecial {c : Char} (h : isSpecial c = false) (s : Reader) :
    s.outside c = s.push c .plain := by
  simp only [isSpecial, Bool.or_eq_false_iff, beq_eq_false_iff_ne] at h
  obtain ⟨⟨⟨hcomma, -⟩, hfeed⟩, hreturn⟩ := h
  rw [outside, if_neg hcomma, if_neg (by simp [hfeed, hreturn])]

/-- Without quotes, plain characters are taken as they are. -/
theorem foldl_step_plain (h : ∀ c ∈ cs, isSpecial c = false) :
    cs.foldl step ⟨records, fields, current, .plain⟩ =
      ⟨records, fields, cs.reverse ++ current, .plain⟩ := by
  induction cs generalizing current with
  | nil => rfl
  | cons c cs ih =>
    have hstep : step ⟨records, fields, current, .plain⟩ c =
        ⟨records, fields, c :: current, .plain⟩ :=
      outside_of_not_isSpecial (h c List.mem_cons_self) _
    rw [List.foldl_cons, hstep, ih fun d hd => h d (List.mem_cons_of_mem _ hd)]
    simp

/-- In quotes, every character is taken as it is once doubled quotes are single again. -/
theorem foldl_step_quoted (cs : List Char) :
    (cs.flatMap fun c => if c = '"' then ['"', '"'] else [c]).foldl step
        ⟨records, fields, current, .quoted⟩ =
      ⟨records, fields, cs.reverse ++ current, .quoted⟩ := by
  induction cs generalizing current with
  | nil => rfl
  | cons c cs ih =>
    have hstep : (if c = '"' then ['"', '"'] else [c]).foldl step
        ⟨records, fields, current, .quoted⟩ = ⟨records, fields, c :: current, .quoted⟩ := by
      by_cases hc : c = '"'
      · subst hc
        rfl
      · rw [if_neg hc, List.foldl_cons, List.foldl_nil, step]
        exact if_neg hc
    rw [List.flatMap_cons, List.foldl_append, hstep, ih]
    simp

theorem step_quote (hp : p.IsFront) :
    step ⟨records, fields, [], p⟩ '"' = ⟨records, fields, [], .quoted⟩ := by
  rcases hp with rfl | rfl <;> rfl

theorem step_front {c : Char} (hp : p.IsFront) (h : isSpecial c = false) :
    step ⟨records, fields, [], p⟩ c = ⟨records, fields, [c], .plain⟩ := by
  have houtside : outside ⟨records, fields, [], p⟩ c = ⟨records, fields, [c], .plain⟩ :=
    outside_of_not_isSpecial h _
  simp only [isSpecial, Bool.or_eq_false_iff, beq_eq_false_iff_ne] at h
  obtain ⟨⟨⟨-, hquote⟩, hfeed⟩, hreturn⟩ := h
  rcases hp with rfl | rfl
  · rw [step, if_neg (by simp [hfeed, hreturn]), if_neg hquote, houtside]
  · rw [step, if_neg hquote, houtside]

/-- Behind a written field the reader holds the field. -/
theorem foldl_step_field (hp : p.IsFront) (cs : List Char) :
    (field cs).foldl step ⟨records, fields, [], p⟩ =
      ⟨records, fields, cs.reverse, p.behind cs⟩ := by
  by_cases hspecial : cs.any isSpecial = true
  · rw [field, if_pos hspecial, Place.behind, if_pos hspecial, List.foldl_cons, step_quote hp,
      List.foldl_append, foldl_step_quoted, List.append_nil]
    rfl
  · have hplain : ∀ c ∈ cs, isSpecial c = false := by simpa using hspecial
    rw [field, if_neg hspecial, Place.behind, if_neg hspecial]
    cases cs with
    | nil => rfl
    | cons c cs =>
      rw [List.foldl_cons, step_front hp (hplain c List.mem_cons_self),
        foldl_step_plain fun d hd => hplain d (List.mem_cons_of_mem _ hd)]
      simp

theorem step_comma (hp : p.IsFront) :
    step ⟨records, fields, cs.reverse, p.behind cs⟩ ',' =
      ⟨records, cs :: fields, [], .fieldStart⟩ := by
  have hstep : step ⟨records, fields, cs.reverse, p.behind cs⟩ ',' =
      endField ⟨records, fields, cs.reverse, p.behind cs⟩ := by
    unfold Place.behind
    split
    · rfl
    · split
      · rcases hp with rfl | rfl <;> rfl
      · rfl
  rw [hstep, endField, List.reverse_reverse]

theorem step_feed (h : p = .fieldStart ∨ cs ≠ []) :
    step ⟨records, fields, cs.reverse, p.behind cs⟩ '\n' =
      ⟨(fields.reverse ++ [cs]) :: records, [], [], .recordStart⟩ := by
  have hstep : step ⟨records, fields, cs.reverse, p.behind cs⟩ '\n' =
      endRecord ⟨records, fields, cs.reverse, p.behind cs⟩ := by
    unfold Place.behind
    split
    · rfl
    · split
      · rename_i hnil
        rw [h.resolve_right (not_not_intro hnil)]
        rfl
      · rfl
  rw [hstep]
  simp [endRecord]

end Reader

/-! ### Records -/

/-- The fields of a record between commas. -/
def line (fields : List (List Char)) : List Char :=
  ((fields.map field).intersperse [',']).flatten

theorem line_cons_cons (f g : List Char) (fields : List (List Char)) :
    line (f :: g :: fields) = field f ++ ',' :: line (g :: fields) := by
  simp [line]

theorem field_eq_nil_iff {cs : List Char} : field cs = [] ↔ cs = [] := by
  unfold field
  split
  · rename_i hspecial
    simp only [reduceCtorEq, false_iff]
    rintro rfl
    cases hspecial
  · rfl

namespace Reader

variable {records : List (List (List Char))}

/-- The record of a line that holds something is read whole. -/
theorem foldl_step_line (f : List Char) (fields : List (List Char)) :
    ∀ {done : List (List Char)} {p : Place}, p.IsFront →
      (p = .fieldStart ∨ line (f :: fields) ≠ []) →
      (line (f :: fields) ++ ['\n']).foldl step ⟨records, done, [], p⟩ =
        ⟨(done.reverse ++ f :: fields) :: records, [], [], .recordStart⟩ := by
  induction fields generalizing f with
  | nil =>
    intro done p hp h
    have hline : line [f] = field f := by simp [line]
    rw [hline] at h ⊢
    rw [List.foldl_append, foldl_step_field hp]
    exact step_feed (h.imp_right fun hne hnil => hne (field_eq_nil_iff.mpr hnil))
  | cons g fields ih =>
    intro done p hp _
    rw [line_cons_cons, List.append_assoc, List.foldl_append, foldl_step_field hp,
      List.cons_append, List.foldl_cons, step_comma hp, ih g (.inr rfl) (.inl rfl)]
    simp

/-- A record is read whole. -/
theorem foldl_step_record {fields : List (List Char)} (h : fields ≠ []) :
    (record fields).foldl step ⟨records, [], [], .recordStart⟩ =
      ⟨fields :: records, [], [], .recordStart⟩ := by
  obtain ⟨f, fields, rfl⟩ := List.exists_cons_of_ne_nil h
  have hrecord : record (f :: fields) =
      (if (line (f :: fields)).isEmpty then ['"', '"'] else line (f :: fields)) ++ ['\n'] := rfl
  rw [hrecord]
  split
  · rename_i hempty
    rw [List.isEmpty_iff] at hempty
    cases fields with
    | nil =>
      have hnil : f = [] := field_eq_nil_iff.mp (by simpa [line] using hempty)
      subst hnil
      rfl
    | cons g fields =>
      rw [line_cons_cons] at hempty
      exact absurd hempty (by simp)
  · rename_i hempty
    exact foldl_step_line f fields (.inl rfl) (.inr fun hnil => hempty (hnil ▸ rfl))

theorem foldl_step_records {written : List (List (List Char))} (h : ∀ r ∈ written, r ≠ []) :
    (written.flatMap record).foldl step ⟨records, [], [], .recordStart⟩ =
      ⟨written.reverse ++ records, [], [], .recordStart⟩ := by
  induction written generalizing records with
  | nil => rfl
  | cons r written ih =>
    rw [List.flatMap_cons, List.foldl_append, foldl_step_record (h r List.mem_cons_self),
      ih fun s hs => h s (List.mem_cons_of_mem _ hs)]
    simp

end Reader

/-- Records are read as they were written, if the text is not taken to begin with a mark. -/
theorem records_flatMap_record {written : List (List (List Char))} (h : ∀ r ∈ written, r ≠ [])
    (hmark : dropMark (written.flatMap record) = written.flatMap record) :
    records (written.flatMap record) = written := by
  rw [records, hmark, Reader.initial, Reader.foldl_step_records h]
  simp [Reader.finish]

end BenchLog.Csv
