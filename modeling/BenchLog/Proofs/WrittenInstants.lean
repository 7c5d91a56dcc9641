/-
# Instants are read as they were written

An instant is written as the date and the time of day that it lies in. Numbering
the days is undone by finding the day of a number: the days of four hundred
years are centuries, spans of four years, years and days, and only the last of
each may be longer than the others. The digits of the numbers then say all that
is left, down to the nanoseconds and to a leap second.

Key definitions: `Date.ofYearDay`, `Instant.IsValid`.
Key theorems: `Date.ofDayNumber_eq_ofYearDay`, `Date.dayNumber_ofDayNumber`,
`Date.isValid_ofDayNumber`, `Instant.ofText?_text`.
-/
import BenchLog.Calendar.Reading
import BenchLog.Proofs.WrittenNumbers

namespace BenchLog

/-! ### Days -/

namespace Date

/-- A day of four hundred years by its century, span of four years, year and day. -/
theorem exists_cycle {r : ℕ} (hr : r < 146097) :
    ∃ c q k d, c < 4 ∧ q < 25 ∧ k < 4 ∧ (d < 365 ∨ d = 365 ∧ k = 3 ∧ (q < 24 ∨ c = 3)) ∧
      r = 36524 * c + 1461 * q + 365 * k + d := by
  by_cases hlast : r = 146096
  · exact ⟨3, 24, 3, 365, by omega⟩
  by_cases hleap : r % 36524 % 1461 = 1460
  · exact ⟨r / 36524, r % 36524 / 1461, 3, 365, by omega⟩
  · exact ⟨r / 36524, r % 36524 / 1461, r % 36524 % 1461 / 365, r % 36524 % 1461 % 365, by omega⟩

/-- The year of a day of four hundred years: long years are made up for before dividing. -/
theorem year_of_cycle {r c q k d : ℕ} (hc : c < 4) (hq : q < 25) (hk : k < 4)
    (hd : d < 365 ∨ d = 365 ∧ k = 3 ∧ (q < 24 ∨ c = 3))
    (hr : r = 36524 * c + 1461 * q + 365 * k + d) :
    (r - r / 1460 + r / 36524 - r / 146096) / 365 = 100 * c + 4 * q + k := by
  have hcentury : r / 36524 = c + r / 146096 := by
    by_cases hlast : r = 146096
    · omega
    · have hshort : 1461 * q + 365 * k + d < 36524 := by omega
      omega
  have hspan : r / 1460 = 25 * c + q + (24 * c + q + 365 * k + d) / 1460 := by omega
  rw [hspan, hcentury]
  by_cases hlong : 1460 ≤ 24 * c + q + 365 * k + d
  · have hone : (24 * c + q + 365 * k + d) / 1460 = 1 := by omega
    omega
  · have hzero : (24 * c + q + 365 * k + d) / 1460 = 0 := by omega
    omega

/-- The day so many days after the first of March of a year. -/
def ofYearDay (year : ℤ) (day : ℕ) : Date :=
  let month := (5 * day + 2) / 153
  { year := year + if month < 10 then 0 else 1
    month := if month < 10 then month + 3 else month - 9
    day := day - (153 * month + 2) / 5 + 1 }

/-- A day is a day of a year that begins with March; only the last day of a leap year's February
is a three hundred and sixty-sixth one. -/
theorem ofDayNumber_eq_ofYearDay (n : ℤ) :
    ∃ (year : ℤ) (day : ℕ), ofDayNumber n = ofYearDay year day ∧
      (day < 365 ∨ day = 365 ∧ isLeapYear (year + 1) = true) ∧
      n = 365 * year + year / 4 - year / 100 + year / 400 + day - epoch := by
  obtain ⟨era, hera⟩ : ∃ era, (n + epoch) / 146097 = era := ⟨_, rfl⟩
  obtain ⟨r, hr⟩ : ∃ r, ((n + epoch) % 146097).toNat = r := ⟨_, rfl⟩
  obtain ⟨c, q, k, d, hc, hq, hk, hd, hcycle⟩ : ∃ c q k d, c < 4 ∧ q < 25 ∧ k < 4 ∧
      (d < 365 ∨ d = 365 ∧ k = 3 ∧ (q < 24 ∨ c = 3)) ∧ r = 36524 * c + 1461 * q + 365 * k + d :=
    exists_cycle (by omega)
  have hn : n + epoch = 146097 * era + r := by omega
  have hyear := year_of_cycle hc hq hk hd hcycle
  obtain ⟨y, hy⟩ : ∃ y, 100 * c + 4 * q + k = y := ⟨_, rfl⟩
  have hfour : y / 4 = 25 * c + q := by omega
  have hhundred : y / 100 = c := by omega
  have hday : r - (365 * y + y / 4 - y / 100) = d := by omega
  refine ⟨era * 400 + y, d, ?_, ?_, ?_⟩
  · simp only [ofDayNumber, hera, hr, hyear, hy, hday]
    rfl
  · rcases hd with hd | ⟨hd, hthree, hlong⟩
    · exact .inl hd
    · refine .inr ⟨hd, ?_⟩
      have hleap : (era * 400 + y + 1) % 4 = 0 := by omega
      simp only [isLeapYear, Bool.and_eq_true, Bool.or_eq_true, beq_iff_eq, bne_iff_ne]
      refine ⟨hleap, ?_⟩
      rcases hlong with hspan | hcentury
      · exact .inl (by omega)
      · exact (em _).symm.imp id fun hfull => by omega
  · have hfour' : (era * 400 + y) / 4 = 100 * era + 25 * c + q := by omega
    have hhundred' : (era * 400 + y) / 100 = 4 * era + c := by omega
    have hcycle' : (era * 400 + y) / 400 = era := by omega
    rw [hfour', hhundred', hcycle']
    clear hera hr hyear hday
    omega

theorem dayNumber_ofYearDay (year : ℤ) {day : ℕ} (h : day ≤ 365) :
    (ofYearDay year day).dayNumber =
      365 * year + year / 4 - year / 100 + year / 400 + day - epoch := by
  obtain ⟨month, hmonth⟩ : ∃ month, (5 * day + 2) / 153 = month := ⟨_, rfl⟩
  have hday : (153 * month + 2) / 5 ≤ day := by omega
  simp only [ofYearDay, dayNumber, hmonth]
  by_cases hlate : month < 10
  · have hback : (month + 3 + 9) % 12 = month := by omega
    rw [if_pos hlate, if_pos hlate, if_neg (by omega), hback, add_zero]
    omega
  · have hback : (month - 9 + 9) % 12 = month := by omega
    rw [if_neg hlate, if_neg hlate, if_pos (by omega), hback, add_sub_cancel_right]
    omega

theorem isValid_ofYearDay (year : ℤ) {day : ℕ}
    (h : day < 365 ∨ day = 365 ∧ isLeapYear (year + 1) = true) : (ofYearDay year day).IsValid := by
  obtain ⟨month, hmonth⟩ : ∃ month, (5 * day + 2) / 153 = month := ⟨_, rfl⟩
  simp only [ofYearDay, IsValid, daysInMonth, hmonth]
  by_cases hfebruary : month = 11
  · subst hfebruary
    have hlength : day - 337 + 1 ≤ if isLeapYear (year + 1) = true then 29 else 28 := by
      rcases h with h | ⟨h, hleap⟩
      · split <;> omega
      · rw [if_pos hleap]
        omega
    exact ⟨by decide, by decide, by omega, hlength⟩
  · have hlt : month < 11 := by omega
    interval_cases month
    all_goals
      simp only [Nat.reduceLT, if_true, if_false]
      simp
      omega

theorem dayNumber_ofDayNumber (n : ℤ) : (ofDayNumber n).dayNumber = n := by
  obtain ⟨year, day, hdate, hday, hn⟩ := ofDayNumber_eq_ofYearDay n
  rw [hdate, dayNumber_ofYearDay year (by omega), ← hn]

theorem isValid_ofDayNumber (n : ℤ) : (ofDayNumber n).IsValid := by
  obtain ⟨year, day, hdate, hday, -⟩ := ofDayNumber_eq_ofYearDay n
  rw [hdate]
  exact isValid_ofYearDay year hday

end Date

/-! ### Instants -/

namespace Instant

/-- A second of the calendar's years with its nanoseconds; only the last second of a minute can
be followed by a leap second. -/
structure IsValid (i : Instant) : Prop where
  nanos : i.nanos < billion ∨ i.nanos < 2 * billion ∧ i.seconds % 60 = 59
  hasYear : hasYear i.moment.date = true

/-- The moment of an instant is one of the calendar, and its number and its leap second are
those of the instant. -/
theorem IsValid.moment {i : Instant} (h : i.IsValid) :
    i.moment.IsValid ∧ i.moment.number = i.seconds ∧
      i.moment.leap * billion + i.nanos % billion = i.nanos := by
  have hnumber := Date.dayNumber_ofDayNumber (i.seconds / 86400)
  obtain ⟨tick, htick⟩ : ∃ tick, (i.seconds % 86400).toNat = tick := ⟨_, rfl⟩
  obtain ⟨leap, hleap⟩ : ∃ leap, i.nanos / billion = leap := ⟨_, rfl⟩
  have hleaps : leap = 0 ∨ leap = 1 ∧ tick % 60 = 59 := by
    have hnanos := h.nanos
    simp only [billion] at hnanos hleap
    omega
  have hlast : tick % 60 + leap - 59 = leap := by omega
  refine ⟨⟨Date.isValid_ofDayNumber _, ?_, ?_, ?_⟩, ?_, ?_⟩
  · simp only [Instant.moment, htick]
    omega
  · simp only [Instant.moment, htick]
    omega
  · simp only [Instant.moment, htick, hleap]
    omega
  · simp only [Moment.number, Moment.tick, Moment.leap, Instant.moment, hnumber, htick, hleap,
      hlast, Nat.add_sub_cancel]
    omega
  · simp only [Moment.leap, Instant.moment, htick, hleap, hlast]
    rw [← hleap, Nat.mul_comm, Nat.div_add_mod]

/-! ### Numbers of a width -/

theorem isDigit_of_mem_padded {width n : ℕ} {c : Char} (h : c ∈ padded width n) :
    c.isDigit = true := by
  rcases List.mem_append.mp h with h | h
  · exact Number.isDigit_of_mem_replicate h
  · exact Number.isDigit_of_mem_natDigits h

theorem padded_ne_nil (width n : ℕ) : padded width n ≠ [] := by
  simp [padded, Number.natDigits_ne_nil]

theorem natOf_padded (width n : ℕ) : Number.natOf (padded width n) = n := by
  rw [padded, Number.natOf_append, Number.natOf_replicate, Number.natOf_natDigits, Nat.zero_mul,
    Nat.zero_add]

theorem length_padded {width n : ℕ} (hwidth : 0 < width) (h : n < 10 ^ width) :
    (padded width n).length = width := by
  have hlength : (Number.natDigits n).length ≤ width :=
    (Nat.length_toDigits_le_iff (by decide) hwidth).mpr h
  simp only [padded, List.length_append, List.length_replicate]
  omega

theorem trimStart_of_digits {ds : List Char} (hds : ∀ c ∈ ds, c.isDigit = true) (hne : ds ≠ [])
    (rest : List Char) : Text.trimStart (ds ++ rest) = ds ++ rest := by
  refine Text.trimStart_of_head fun c hc => ?_
  rw [List.head?_append_of_ne_nil _ hne] at hc
  exact Bool.not_eq_true' _ |>.mp (Text.of_isDigit (fun c => !Text.isBlank c) (by decide)
    (hds c (List.mem_of_mem_head? hc)))

/-- A number is read in its width. -/
theorem number?_padded {width n : ℕ} (hwidth : 0 < width) (h : n < 10 ^ width) (rest : List Char) :
    number? width (padded width n ++ rest) = some (n, rest) := by
  have hdigits : ∀ c ∈ padded width n, c.isDigit = true := fun _ => isDigit_of_mem_padded
  have hlength := length_padded hwidth h
  have htake : ((padded width n ++ rest).take width).takeWhile Char.isDigit = padded width n := by
    have hspan := (Text.span_append hdigits [] (by simp)).1
    rw [List.append_nil] at hspan
    rw [List.take_left' hlength, hspan]
  rw [number?, trimStart_of_digits hdigits (padded_ne_nil width n), htake]
  have hne := padded_ne_nil width n
  split
  · contradiction
  · rw [natOf_padded, List.drop_left]

/-- What stands behind a run of digits is read off with them. -/
theorem span_padded (width n : ℕ) (rest : List Char)
    (hrest : ∀ c, rest.head? = some c → c.isDigit = false) :
    (padded width n ++ rest).takeWhile Char.isDigit = padded width n ∧
      (padded width n ++ rest).dropWhile Char.isDigit = rest :=
  Text.span_append (fun _ => isDigit_of_mem_padded) rest hrest

/-- The digits of a year behind its sign. -/
theorem signed_padded (n : ℕ) {rest : List Char}
    (hrest : ∀ c, rest.head? = some c → c.isDigit = false) (f : ℕ → ℤ) :
    (match (padded 4 n ++ rest).takeWhile Char.isDigit with
      | [] => none
      | ds => some (f (Number.natOf ds), (padded 4 n ++ rest).dropWhile Char.isDigit)) =
      some (f n, rest) := by
  obtain ⟨htake, hdrop⟩ := span_padded 4 n rest hrest
  have hne := padded_ne_nil 4 n
  rw [htake, hdrop]
  split
  · contradiction
  · rw [natOf_padded]

theorem year?_yearText (year : ℤ) {rest : List Char}
    (hrest : ∀ c, rest.head? = some c → c.isDigit = false) :
    year? (yearText year ++ rest) = some (year, rest) := by
  unfold yearText
  split
  · rename_i hshort
    obtain ⟨n, rfl⟩ := Int.eq_ofNat_of_zero_le hshort.1
    have hdigits : ∀ c ∈ padded 4 n, c.isDigit = true := fun _ => isDigit_of_mem_padded
    have hread : number? 4 (padded 4 n ++ rest) = some (n, rest) :=
      number?_padded (by decide) (by omega) rest
    have htrim := trimStart_of_digits hdigits (padded_ne_nil 4 n) rest
    have hhead : ∀ c cs, padded 4 n ++ rest = c :: cs → c.isDigit = true := by
      intro c cs hcs
      have hc := congrArg List.head? hcs
      rw [List.head?_append_of_ne_nil _ (padded_ne_nil 4 n)] at hc
      exact hdigits c (List.mem_of_mem_head? hc)
    rw [Int.toNat_natCast, year?, htrim]
    split
    · rename_i ds hminus
      exact absurd (hhead _ _ hminus) (by decide)
    · rename_i ds hplus
      exact absurd (hhead _ _ hplus) (by decide)
    · rw [hread]
      rfl
  · rename_i hlong
    by_cases hneg : year < 0
    · have hyear : -(year.natAbs : ℤ) = year := by omega
      rw [if_pos hneg]
      exact (signed_padded year.natAbs hrest fun n => -n).trans (by rw [hyear])
    · have hyear : (year.natAbs : ℤ) = year := by omega
      rw [if_neg hneg]
      exact (signed_padded year.natAbs hrest fun n => n).trans (by rw [hyear])

theorem mark?_cons {c : Char} (hc : Text.isBlank c = false) (rest : List Char) :
    mark? c (c :: rest) = some rest := by
  have htrim : Text.trimStart (c :: rest) = c :: rest :=
    List.dropWhile_cons_of_neg (by simp [hc])
  rw [mark?, htrim]
  exact if_pos rfl

/-- A fraction of a second is read in nanoseconds. -/
theorem fraction?_padded {places value : ℕ} (hpos : 0 < places) (hplaces : places ≤ 9)
    (h : value < 10 ^ places) :
    fraction? ('.' :: padded places value ++ ['Z']) = some (value * 10 ^ (9 - places), ['Z']) := by
  obtain ⟨htake, hdrop⟩ := span_padded places value ['Z'] (by simp)
  have hlength := length_padded hpos h
  have hne := padded_ne_nil places value
  rw [List.cons_append, fraction?, htake, hdrop]
  split
  · contradiction
  · simp only [List.take_of_length_le (hlength.trans_le hplaces), natOf_padded, hlength, Nat.pow_eq]

theorem fraction?_fractionText {nanos : ℕ} (h : nanos < billion) :
    fraction? (fractionText nanos ++ ['Z']) = some (nanos, ['Z']) := by
  have hbillion : nanos < 1000000000 := h
  unfold fractionText
  split
  · rename_i hzero
    rw [hzero]
    rfl
  split
  · rw [fraction?_padded (by decide) (by decide) (by omega)]
    congr 2
    omega
  split
  · rw [fraction?_padded (by decide) (by decide) (by omega)]
    congr 2
    omega
  · rw [fraction?_padded (by decide) (by decide) (by omega)]
    congr 2
    omega

/-- Universal time is read up to the end of its letter. -/
theorem offset?_letter : offset? (Text.trimStart ['Z']) = some (0, []) := by
  decide

/-- An instant of the calendar is read as it was written. -/
theorem ofText?_text {i : Instant} (h : i.IsValid) : ofText? (i.text ++ ['Z']) = some i := by
  obtain ⟨hmoment, hnumber, hleap⟩ := h.moment
  have ⟨⟨hmonth, hmonth', hday, hday'⟩, hhour, hminute, hsecond⟩ := hmoment
  have hlength : Date.daysInMonth i.moment.date.year i.moment.date.month ≤ 31 := by
    unfold Date.daysInMonth
    split
    · split <;> omega
    · split <;> omega
  have hfraction := fraction?_fractionText (Nat.mod_lt i.nanos (show 0 < billion by decide))
  have htext : i.text ++ ['Z'] = yearText i.moment.date.year ++ '-' ::
      (padded 2 i.moment.date.month ++ '-' :: (padded 2 i.moment.date.day ++ 'T' ::
        (padded 2 i.moment.hour ++ ':' :: (padded 2 i.moment.minute ++ ':' ::
          (padded 2 i.moment.second ++ (fractionText (i.nanos % billion) ++ ['Z'])))))) := by
    simp [text, Moment.text, Date.text]
  have hwidth : ∀ {n : ℕ}, n < 100 → ∀ rest, number? 2 (padded 2 n ++ rest) = some (n, rest) :=
    fun hn => number?_padded (by decide) hn
  have hyear : ∀ rest, year? (yearText i.moment.date.year ++ '-' :: rest) =
      some (i.moment.date.year, '-' :: rest) := fun rest => year?_yearText _ (by simp)
  have hdash : ∀ rest, mark? '-' ('-' :: rest) = some rest := mark?_cons rfl
  have hcolon : ∀ rest, mark? ':' (':' :: rest) = some rest := mark?_cons rfl
  have hmonthText := hwidth (n := i.moment.date.month) (by omega)
  have hdayText := hwidth (n := i.moment.date.day) (by omega)
  have hhourText := hwidth (n := i.moment.hour) (by omega)
  have hminuteText := hwidth (n := i.moment.minute) (by omega)
  have hsecondText := hwidth (n := i.moment.second) (by omega)
  rw [htext]
  unfold ofText?
  refine (bind_of_eq_some (hyear _) _).trans ?_
  refine (bind_of_eq_some (hdash _) _).trans ?_
  refine (bind_of_eq_some (hmonthText _) _).trans ?_
  refine (bind_of_eq_some (hdash _) _).trans ?_
  refine (bind_of_eq_some (hdayText _) _).trans ?_
  refine (if_pos (.inl rfl)).trans ?_
  refine (bind_of_eq_some rfl _).trans ?_
  refine (bind_of_eq_some (hhourText _) _).trans ?_
  refine (bind_of_eq_some (hcolon _) _).trans ?_
  refine (bind_of_eq_some (hminuteText _) _).trans ?_
  refine (bind_of_eq_some (hcolon _) _).trans ?_
  refine (bind_of_eq_some (hsecondText _) _).trans ?_
  refine (bind_of_eq_some hfraction _).trans ?_
  refine (bind_of_eq_some offset?_letter _).trans ?_
  have hback : (⟨i.moment.number - 0, i.moment.leap * billion + i.nanos % billion⟩ : Instant) =
      i := by
    rw [hnumber, hleap, sub_zero]
  have hguard : Text.isBlankText [] = true ∧ i.moment.IsValid ∧ hasYear i.moment.date = true ∧
      hasYear i.moment.date = true := ⟨rfl, hmoment, h.hasYear, h.hasYear⟩
  refine (congrArg (fun back : Instant => (guard (Text.isBlankText [] = true ∧ i.moment.IsValid ∧
    hasYear i.moment.date = true ∧ hasYear back.moment.date = true) >>= fun _ => some back))
    hback).trans ?_
  rw [guard, if_pos hguard]
  rfl

end Instant
end BenchLog
