/-
# Which logs can be used

Each stage leaves things out, and a log is refused if nothing is left. What has
to stand in a log for something to be left is simple: a start with an end of its
repetition somewhere behind it, two blocks of one repetition, an execution time.
For pairing the induction has to know the open starts (`foldl_step_pairs`); for
coupling it is one over the greedy rule. Execution times are different, because
one malformed duration makes all of them unusable, so the durations are
described by their form (`Duration.IsWellFormed`).

Key definitions: `Pairing.Completes`, `Recurs`, `Duration.IsWellFormed`,
`ExecutionTime.tokens`.
Key theorems: `Pairing.pairs_ne_nil_iff`, `coupleRows_ne_nil_iff`,
`Duration.exists_milliseconds_iff`, `ExecutionTime.exists_ofLog_iff`,
`ExecutionTime.ofLog_eq_error_iff`.
-/
import BenchLog.Log.ExecutionTime
import BenchLog.Pairing
import BenchLog.Proofs.GreedyCoupling
import BenchLog.Proofs.Lexemes

namespace BenchLog

/-- A pair in front of or behind the first element. -/
theorem pair_sublist_cons {a b x : α} {xs : List α} :
    [a, b].Sublist (x :: xs) ↔ (a = x ∧ b ∈ xs) ∨ [a, b].Sublist xs := by
  rw [List.sublist_cons_iff, or_comm]
  refine or_congr_left ⟨?_, ?_⟩
  · rintro ⟨r, hr, hsub⟩
    cases hr
    exact ⟨rfl, List.singleton_sublist.mp hsub⟩
  · rintro ⟨rfl, hb⟩
    exact ⟨[b], rfl, List.singleton_sublist.mpr hb⟩

/-! ### Pairs -/

namespace Pairing

/-- Some start is followed by an end of its repetition. -/
def Completes (records : List Record) : Prop :=
  ∃ start finish : Record, [start, finish].Sublist records ∧ start.side = .start ∧
    finish.side = .finish ∧ finish.repetition = start.repetition

/-- Some record ends the repetition of an open start. -/
def Closes (pending records : List Record) : Prop :=
  ∃ start ∈ pending, ∃ finish ∈ records,
    finish.side = .finish ∧ finish.repetition = start.repetition

variable {pending records : List Record} {x : Record}

theorem completes_cons_start (h : x.side = .start) :
    Completes (x :: records) ↔ Closes [x] records ∨ Completes records := by
  simp only [Completes, Closes, pair_sublist_cons, List.mem_singleton, exists_eq_left]
  constructor
  · rintro ⟨start, finish, ⟨rfl, hmem⟩ | hsub, hstart, hfinish, hrep⟩
    · exact .inl ⟨finish, hmem, hfinish, hrep⟩
    · exact .inr ⟨start, finish, hsub, hstart, hfinish, hrep⟩
  · rintro (⟨finish, hmem, hfinish, hrep⟩ | ⟨start, finish, hsub, hrest⟩)
    · exact ⟨x, finish, .inl ⟨rfl, hmem⟩, h, hfinish, hrep⟩
    · exact ⟨start, finish, .inr hsub, hrest⟩

theorem completes_cons_finish (h : x.side = .finish) :
    Completes (x :: records) ↔ Completes records := by
  simp only [Completes, pair_sublist_cons]
  constructor
  · rintro ⟨start, finish, ⟨rfl, -⟩ | hsub, hstart, hrest⟩
    · rw [h] at hstart
      cases hstart
    · exact ⟨start, finish, hsub, hstart, hrest⟩
  · rintro ⟨start, finish, hsub, hrest⟩
    exact ⟨start, finish, .inr hsub, hrest⟩

theorem closes_append_singleton :
    Closes (pending ++ [x]) records ↔ Closes pending records ∨ Closes [x] records := by
  simp only [Closes, List.mem_append, or_and_right, exists_or]

theorem closes_cons_start (h : x.side = .start) :
    Closes pending (x :: records) ↔ Closes pending records := by
  simp [Closes, h]

/-- Records after which there is a pair: there was one, or an open start is ended, or
they complete a repetition themselves. -/
theorem foldl_step_pairs : ∀ (records : List Record) (s : PairingState),
    (records.foldl PairingState.step s).pairs ≠ [] ↔
      s.pairs ≠ [] ∨ Closes s.pending records ∨ Completes records
  | [], s => by simp [Closes, Completes]
  | x :: records, s => by
    rw [List.foldl_cons, foldl_step_pairs records]
    cases hside : x.side with
    | start =>
      rw [PairingState.step_start hside, closes_append_singleton, closes_cons_start hside,
        completes_cons_start hside, or_assoc]
    | finish =>
      rw [completes_cons_finish hside]
      cases htake : takeFirst (·.repetition == x.repetition) s.pending with
      | none =>
        -- An end without an open start changes nothing but the count.
        have hstep : s.step x = { s with droppedEnds := s.droppedEnds + 1 } := by
          simp only [PairingState.step, hside, htake]
        have hnone : ∀ start ∈ s.pending, x.repetition ≠ start.repetition := fun start hstart =>
          Ne.symm (beq_eq_false_iff_ne.mp (takeFirst_eq_none_iff.mp htake start hstart))
        have hcloses : Closes s.pending (x :: records) ↔ Closes s.pending records := by
          simp only [Closes, List.mem_cons, or_and_right, exists_or, exists_eq_left]
          refine exists_congr fun start => and_congr_right fun hstart => or_iff_right ?_
          exact fun h => hnone start hstart h.2
        rw [hstep, hcloses]
      | some taken =>
        obtain ⟨start, rest⟩ := taken
        have hstep : s.step x = { s with pending := rest, pairs := ⟨start, x⟩ :: s.pairs } := by
          simp only [PairingState.step, hside, htake]
        obtain ⟨front, back, hpending, -, hrep, -⟩ := takeFirst_eq_some_iff.mp htake
        have hcloses : Closes s.pending (x :: records) :=
          ⟨start, hpending ▸ List.mem_append_right _ List.mem_cons_self, x, List.mem_cons_self,
            hside, (beq_iff_eq.mp hrep).symm⟩
        rw [hstep]
        exact iff_of_true (.inl (List.cons_ne_nil _ _)) (.inr (.inl hcloses))

/-- A log has a pair if and only if it completes a repetition. -/
theorem pairs_ne_nil_iff : (ofRecords records).pairs ≠ [] ↔ Completes records := by
  have hperm := perm_pairs records
  have hnil : (ofRecords records).pairs ≠ [] ↔
      (records.foldl PairingState.step .empty).pairs ≠ [] :=
    not_congr ⟨fun h => (h ▸ hperm).symm.eq_nil, fun h => (h ▸ hperm).eq_nil⟩
  rw [hnil, foldl_step_pairs]
  simp [PairingState.empty, Closes]

end Pairing

/-! ### Couples -/

/-- Two rows are of one repetition. -/
def Recurs (rows : List (UInt32 × Float)) : Prop :=
  ∃ row partner : UInt32 × Float, [row, partner].Sublist rows ∧ partner.1 = row.1

theorem recurs_iff {rows : List (UInt32 × Float)} : Recurs rows ↔ ¬ (rows.map (·.1)).Nodup := by
  rw [List.nodup_iff_pairwise_ne, List.pairwise_map, List.pairwise_iff_forall_sublist]
  simp only [Recurs, ne_eq, not_forall, not_not, exists_prop, eq_comm]

/-- The greedy rule couples something if and only if a repetition recurs. -/
theorem CoupledGreedily.ne_nil_iff {rows output : List (UInt32 × Float)}
    (h : CoupledGreedily rows output) : output ≠ [] ↔ Recurs rows := by
  induction h with
  | done => simp [Recurs]
  | @couple row partner front back output _ hpartner _ _ =>
    refine iff_of_true (List.cons_ne_nil _ _) ⟨row, partner, ?_, hpartner⟩
    exact pair_sublist_cons.mpr (.inl ⟨rfl, List.mem_append_right _ List.mem_cons_self⟩)
  | @drop row rows output hrows _ ih =>
    rw [ih]
    refine exists_congr fun first => exists_congr fun second => and_congr_left fun hsame => ?_
    rw [pair_sublist_cons, or_iff_right]
    rintro ⟨rfl, hmem⟩
    exact hrows second hmem hsame

/-- A log has coupled rows if and only if a repetition recurs in it. -/
theorem coupleRows_ne_nil_iff {rows : List (UInt32 × Float)} :
    coupleRows rows ≠ [] ↔ Recurs rows :=
  (coupleRows_eq_coupleGreedily rows ▸ coupledGreedily_coupleGreedily rows).ne_nil_iff

/-! ### Durations -/

namespace Duration

/-- Digits, with a point somewhere if there is one, and at least one digit. -/
def IsNumber (cs : List Char) : Prop :=
  ∃ whole fraction : List Char, (∀ c ∈ whole, c.isDigit = true) ∧
    (∀ c ∈ fraction, c.isDigit = true) ∧ whole ++ fraction ≠ [] ∧
    (cs = whole ++ '.' :: fraction ∨ fraction = [] ∧ cs = whole)

/-- The units of durations: hours, minutes, seconds, and thousandths of them. -/
def units : List (List Char) :=
  [['h'], ['m'], ['s'], ['m', 's'], ['u', 's'], ['\u00B5', 's'], ['\u03BC', 's'], ['n', 's']]

/-- One or more numbers, each with a unit behind it. -/
def IsWellFormed (text : List Char) : Prop :=
  ∃ parts : List (List Char × List Char), parts ≠ [] ∧
    text = parts.flatMap (fun part => part.1 ++ part.2) ∧
    ∀ part ∈ parts, IsNumber part.1 ∧ part.2 ∈ units

theorem isNumeral_of_isDigit {c : Char} (h : c.isDigit = true) : isNumeral c = true := by
  simp [isNumeral, h]

theorem IsNumber.isNumeral {cs : List Char} (h : IsNumber cs) : ∀ c ∈ cs, isNumeral c = true := by
  obtain ⟨whole, fraction, hwhole, hfraction, -, rfl | ⟨-, rfl⟩⟩ := h
  · intro c hc
    rcases List.mem_append.mp hc with hc | hc
    · exact isNumeral_of_isDigit (hwhole c hc)
    · rcases List.mem_cons.mp hc with rfl | hc
      · rfl
      · exact isNumeral_of_isDigit (hfraction c hc)
  · exact fun c hc => isNumeral_of_isDigit (hwhole c hc)

theorem IsNumber.ne_nil {cs : List Char} (h : IsNumber cs) : cs ≠ [] := by
  obtain ⟨whole, fraction, -, -, hne, rfl | ⟨rfl, rfl⟩⟩ := h
  · simp
  · simpa using hne

theorem not_isNumeral_of_mem_units :
    ∀ unit ∈ units, unit ≠ [] ∧ ∀ c ∈ unit, isNumeral c = false := by
  simp [units, isNumeral, Char.isDigit]

theorem isSome_factor?_iff {unit : List Char} : (factor? unit).isSome ↔ unit ∈ units := by
  unfold factor? units
  split <;> simp_all

/-- An exponent is no digit and no point. -/
theorem eq_nil_of_isSome_exponent? {tail : List Char} (h : ∀ c ∈ tail, isNumeral c = true)
    (hsome : (Number.exponent? tail).isSome) : tail = [] := by
  cases tail with
  | nil => rfl
  | cons c cs =>
    have hc := h c List.mem_cons_self
    rw [Number.exponent?, if_neg] at hsome
    · cases hsome
    · rintro (rfl | rfl) <;> exact absurd hc (by decide)

/-- A number can be read, and what can be read of digits and points is a number. -/
theorem isSome_numeral?_iff {cs : List Char} (h : ∀ c ∈ cs, isNumeral c = true) :
    (Number.numeral? cs).isSome ↔ IsNumber cs := by
  constructor
  · intro hsome
    have hdigits : ∀ ds : List Char, ∀ c ∈ ds.takeWhile Char.isDigit, c.isDigit = true :=
      fun ds => List.all_eq_true.mp List.all_takeWhile
    obtain ⟨n, hn⟩ := Option.isSome_iff_exists.mp hsome
    obtain ⟨⟨whole, fraction, tail⟩, hpointed, hn⟩ := Option.bind_eq_some_iff.mp hn
    obtain ⟨e, he, -⟩ := Option.bind_eq_some_iff.mp hn
    have hcs := List.takeWhile_append_dropWhile (p := Char.isDigit) (l := cs)
    rw [Number.pointed?] at hpointed
    split at hpointed
    rename_i fraction' tail' hparts
    split at hpointed
    · cases hpointed
    rename_i hne
    cases hpointed
    have hne' : cs.takeWhile Char.isDigit ++ fraction ≠ [] := by
      simpa [List.isEmpty_iff] using hne
    split at hparts
    · rename_i rest hrest
      cases hparts
      have htail : rest.dropWhile Char.isDigit = [] := by
        refine eq_nil_of_isSome_exponent? (fun c hc => h c ?_) (by rw [he]; rfl)
        have hmem : c ∈ '.' :: rest := List.mem_cons_of_mem _ ((List.dropWhile_sublist _).subset hc)
        exact (List.dropWhile_sublist _).subset (hrest ▸ hmem)
      refine ⟨_, _, hdigits cs, hdigits rest, hne', .inl ?_⟩
      have hrest' := List.takeWhile_append_dropWhile (p := Char.isDigit) (l := rest)
      rw [htail, List.append_nil] at hrest'
      rw [hrest', ← hrest, hcs]
    · cases hparts
      have htail : cs.dropWhile Char.isDigit = [] :=
        eq_nil_of_isSome_exponent? (fun c hc => h c ((List.dropWhile_sublist _).subset hc))
          (by rw [he]; rfl)
      refine ⟨_, [], hdigits cs, by simp, hne', .inr ⟨rfl, ?_⟩⟩
      rw [htail, List.append_nil] at hcs
      exact hcs.symm
  · rintro ⟨whole, fraction, hwhole, hfraction, hne, rfl | ⟨rfl, rfl⟩⟩
    · have hread := Number.numeral?_point [] hwhole hfraction hne (by simp)
      rw [List.append_nil] at hread
      rw [hread]
      rfl
    · have hread := Number.numeral?_whole [] hwhole (by simpa using hne) (by simp)
      rw [List.append_nil] at hread
      rw [hread]
      rfl
/-! #### Components -/

theorem isSome_component?_iff {number unit : List Char} (h : ∀ c ∈ number, isNumeral c = true) :
    (component? number unit).isSome ↔ IsNumber number ∧ unit ∈ units := by
  rw [← isSome_numeral?_iff h, ← isSome_factor?_iff, component?]
  cases Number.numeral? number with
  | none => simp
  | some n => cases factor? unit <;> simp

/-- A sum exists if each component does. -/
theorem isSome_sum?_iff (parts : List (List Char × List Char)) :
    (sum? parts).isSome ↔ ∀ part ∈ parts, (component? part.1 part.2).isSome := by
  have hfold : ∀ total : Float,
      (parts.foldlM (fun total part => (component? part.1 part.2).map (total + ·)) total).isSome ↔
        ∀ part ∈ parts, (component? part.1 part.2).isSome := by
    induction parts with
    | nil => simp
    | cons part parts ih =>
      intro total
      rw [List.foldlM_cons, List.forall_mem_cons]
      cases component? part.1 part.2 with
      | none => simp
      | some x => simpa using ih (total + x)
  exact hfold 0

/-- The numbers of the components are of digits and points, the units of other characters. -/
theorem of_mem_components (cs : List Char) :
    ∀ part ∈ components cs, (∀ c ∈ part.1, isNumeral c = true) ∧
      ∀ c ∈ part.2, isNumeral c = false := by
  fun_induction components cs with
  | case1 => simp
  | case2 c cs hc number unit rest hcs ih =>
    rw [hcs, List.forall_mem_cons] at ih
    exact List.forall_mem_cons.mpr ⟨⟨List.forall_mem_cons.mpr ⟨hc, ih.1.1⟩, ih.1.2⟩, ih.2⟩
  | case3 c cs hc hcs ih => simp [hc]
  | case4 c cs hc unit rest hcs ih =>
    rw [hcs, List.forall_mem_cons] at ih
    have hc' : isNumeral c = false := by simpa using hc
    exact List.forall_mem_cons.mpr ⟨⟨ih.1.1, List.forall_mem_cons.mpr ⟨hc', ih.1.2⟩⟩, ih.2⟩
  | case5 c cs hc _ ih =>
    have hc' : isNumeral c = false := by simpa using hc
    exact List.forall_mem_cons.mpr ⟨by simp [hc'], ih⟩

/-- A unit in front of a text that begins with a number is a component of its own. -/
theorem components_unit {unit rest : List Char} (hne : unit ≠ [])
    (hunit : ∀ c ∈ unit, isNumeral c = false)
    (hrest : ∀ c, rest.head? = some c → isNumeral c = true) :
    components (unit ++ rest) = ([], unit) :: components rest := by
  induction unit with
  | nil => exact absurd rfl hne
  | cons c unit ih =>
    have hc : isNumeral c = false := hunit c List.mem_cons_self
    rw [List.cons_append, components, hc]
    cases unit with
    | nil =>
      cases rest with
      | nil => rfl
      | cons d rest =>
        have hd : isNumeral d = true := hrest d rfl
        rw [List.nil_append, components, hd]
        cases components rest <;> rfl
    | cons d unit =>
      rw [ih (List.cons_ne_nil _ _) fun e he => hunit e (List.mem_cons_of_mem _ he)]
      rfl

theorem components_number {number rest : List Char} (hnumber : ∀ c ∈ number, isNumeral c = true)
    {unit : List Char} {parts : List (List Char × List Char)}
    (hrest : components rest = ([], unit) :: parts) :
    components (number ++ rest) = (number, unit) :: parts := by
  induction number with
  | nil => exact hrest
  | cons c number ih =>
    have hc : isNumeral c = true := hnumber c List.mem_cons_self
    rw [List.cons_append, components, ih fun d hd => hnumber d (List.mem_cons_of_mem _ hd), hc]
    rfl

/-- Well-formed durations are cut where they were put together. -/
theorem components_flatMap : ∀ {parts : List (List Char × List Char)},
    (∀ part ∈ parts, IsNumber part.1 ∧ part.2 ∈ units) →
      components (parts.flatMap fun part => part.1 ++ part.2) = parts
  | [], _ => rfl
  | (number, unit) :: parts, h => by
    obtain ⟨hnumber, hmem⟩ := h _ List.mem_cons_self
    have hparts := fun part hpart => h part (List.mem_cons_of_mem _ hpart)
    obtain ⟨hne, hunit⟩ := not_isNumeral_of_mem_units unit hmem
    have hhead : ∀ c, (parts.flatMap fun part => part.1 ++ part.2).head? = some c →
        isNumeral c = true := by
      intro c hc
      cases parts with
      | nil => cases hc
      | cons part parts =>
        obtain ⟨hnext, -⟩ := hparts part List.mem_cons_self
        obtain ⟨d, ds, hd⟩ := List.exists_cons_of_ne_nil hnext.ne_nil
        rw [List.flatMap_cons, hd] at hc
        cases hc
        exact hnext.isNumeral c (hd ▸ List.mem_cons_self)
    rw [List.flatMap_cons, List.append_assoc]
    refine components_number hnumber.isNumeral ?_
    rw [components_unit hne hunit hhead, components_flatMap hparts]

theorem isSome_sum?_components_iff {text : List Char} :
    components text ≠ [] ∧ (sum? (components text)).isSome ↔ IsWellFormed text := by
  rw [isSome_sum?_iff]
  constructor
  · rintro ⟨hne, hparts⟩
    refine ⟨components text, hne, (components_join text).symm, fun part hpart => ?_⟩
    exact (isSome_component?_iff (of_mem_components text part hpart).1).mp (hparts part hpart)
  · rintro ⟨parts, hne, rfl, hparts⟩
    rw [components_flatMap hparts]
    exact ⟨hne, fun part hpart =>
      (isSome_component?_iff (hparts part hpart).1.isNumeral).mpr (hparts part hpart)⟩

/-- A text without blanks around it is a duration if and only if it has the form of one. -/
theorem exists_milliseconds_iff {text : List Char} (htrim : Text.trim text = text) :
    (∃ x, milliseconds text = .ok x) ↔ IsWellFormed text := by
  rw [← isSome_sum?_components_iff, milliseconds, htrim]
  cases components text with
  | nil => simp
  | cons part parts =>
    cases hsum : sum? (part :: parts) with
    | none => simp [hsum]
    | some total => simp [hsum]

theorem milliseconds_eq_error {text : List Char} {e : Error} (htrim : Text.trim text = text)
    (h : milliseconds text = .error e) : e = .malformedDuration text := by
  rw [milliseconds, htrim] at h
  split at h
  · cases h
    rfl
  · split at h
    · cases h
    · cases h
      rfl

end Duration

/-! ### Execution times -/

/-- A list is converted if each member is. -/
theorem exists_mapM_eq_ok_iff {f : α → Except ε β} : ∀ {as : List α},
    (∃ bs, as.mapM f = .ok bs) ↔ ∀ a ∈ as, ∃ b, f a = .ok b
  | [] => by simp [pure, Except.pure]
  | a :: as => by
    rw [List.mapM_cons, List.forall_mem_cons, ← exists_mapM_eq_ok_iff]
    cases f a with
    | error e => simp [bind, Except.bind]
    | ok b => cases as.mapM f <;> simp [bind, Except.bind, pure, Except.pure]

theorem length_of_mapM_eq_ok {f : α → Except ε β} : ∀ {as : List α} {bs : List β},
    as.mapM f = .ok bs → bs.length = as.length
  | [], _, h => by
    cases h
    rfl
  | a :: as, _, h => by
    rw [List.mapM_cons] at h
    cases ha : f a with
    | error e =>
      rw [ha] at h
      cases h
    | ok b =>
      cases has : as.mapM f with
      | error e =>
        rw [ha, has] at h
        cases h
      | ok bs =>
        rw [ha, has] at h
        cases h
        rw [List.length_cons, List.length_cons, length_of_mapM_eq_ok has]

/-- The members of a list are converted until one fails. -/
theorem mapM_eq_error_iff {f : α → Except ε β} {e : ε} : ∀ {as : List α},
    as.mapM f = .error e ↔ ∃ front a back, as = front ++ a :: back ∧
      (∀ b ∈ front, ∃ x, f b = .ok x) ∧ f a = .error e
  | [] => by simp [pure, Except.pure]
  | a :: as => by
    rw [List.mapM_cons]
    cases ha : f a with
    | error e' =>
      constructor
      · rintro ⟨⟩
        exact ⟨[], a, as, rfl, by simp, ha⟩
      · rintro ⟨front, b, back, hsplit, hfront, hb⟩
        cases front with
        | nil =>
          cases hsplit
          rw [ha] at hb
          cases hb
          rfl
        | cons c front =>
          cases hsplit
          obtain ⟨x, hx⟩ := hfront a List.mem_cons_self
          rw [ha] at hx
          cases hx
    | ok y =>
      have hrest : (Except.ok y >>= fun x => as.mapM f >>= fun xs => pure (x :: xs)) = .error e ↔
          as.mapM f = .error e := by
        cases as.mapM f <;> simp [bind, Except.bind, pure, Except.pure]
      rw [hrest, mapM_eq_error_iff]
      constructor
      · rintro ⟨front, b, back, rfl, hfront, hb⟩
        exact ⟨a :: front, b, back, rfl, List.forall_mem_cons.mpr ⟨⟨y, ha⟩, hfront⟩, hb⟩
      · rintro ⟨front, b, back, hsplit, hfront, hb⟩
        cases front with
        | nil =>
          cases hsplit
          rw [ha] at hb
          cases hb
        | cons c front =>
          cases hsplit
          exact ⟨front, b, back, rfl, fun c hc => hfront c (List.mem_cons_of_mem _ hc), hb⟩

namespace ExecutionTime

/-- What stands for a duration on the lines of a log. -/
def tokens (text : List Char) : List (List Char) :=
  (Text.lines text).filterMap (Text.search (fun _ => scan) none)

theorem ofLog_eq_mapM (text : List Char) :
    ofLog text = (tokens text).mapM Duration.milliseconds := by
  have hlines : (Text.lines text).filterMap ofLine? =
      (tokens text).map Duration.milliseconds := by
    rw [tokens, List.map_filterMap]
    rfl
  rw [ofLog, hlines, List.mapM_map]
  rfl

/-- A token has no blanks. -/
theorem trim_of_mem_tokens {text token : List Char} (h : token ∈ tokens text) :
    Text.trim token = token := by
  obtain ⟨line, -, hline⟩ := List.mem_filterMap.mp h
  obtain ⟨front, rest, -, hscan, -⟩ := Text.search_eq_some hline
  obtain ⟨rest', -, hscan⟩ := Option.bind_eq_some_iff.mp hscan
  obtain ⟨⟨token', rest''⟩, hrun, htoken⟩ := Option.bind_eq_some_iff.mp hscan
  cases htoken
  obtain ⟨-, -, hblank, -⟩ := Text.run_eq_some_iff.mp hrun
  have hno : ∀ c ∈ token, Text.isBlank c = false := fun c hc => by simpa using hblank c hc
  rw [Text.trim, Text.trimStart_of_no_blank hno,
    Text.trimStart_of_no_blank fun c hc => hno c (List.mem_reverse.mp hc), List.reverse_reverse]

/-- The first malformed duration makes a log of execution times fail. -/
theorem ofLog_eq_error_iff {text : List Char} {e : Error} :
    ofLog text = .error e ↔ ∃ front token back, tokens text = front ++ token :: back ∧
      (∀ t ∈ front, Duration.IsWellFormed t) ∧ ¬ Duration.IsWellFormed token ∧
      e = .malformedDuration token := by
  rw [ofLog_eq_mapM, mapM_eq_error_iff]
  refine exists_congr fun front => exists_congr fun token => exists_congr fun back =>
    and_congr_right fun hsplit => ?_
  have hmem : ∀ t, t ∈ front ∨ t = token → t ∈ tokens text := by
    intro t ht
    rw [hsplit, List.mem_append, List.mem_cons]
    exact ht.imp_right .inl
  refine and_congr (forall₂_congr fun t ht => ?_) ?_
  · exact Duration.exists_milliseconds_iff (trim_of_mem_tokens (hmem t (.inl ht)))
  · have htrim := trim_of_mem_tokens (hmem token (.inr rfl))
    rw [← Duration.exists_milliseconds_iff htrim]
    constructor
    · intro h
      refine ⟨?_, Duration.milliseconds_eq_error htrim h⟩
      rintro ⟨x, hx⟩
      rw [hx] at h
      cases h
    · rintro ⟨hnone, rfl⟩
      cases h : Duration.milliseconds token with
      | ok x => exact absurd ⟨x, h⟩ hnone
      | error e => rw [Duration.milliseconds_eq_error htrim h]

/-- A log of execution times can be read if all its durations are well-formed. -/
theorem exists_ofLog_iff {text : List Char} :
    (∃ times, ofLog text = .ok times) ↔ ∀ token ∈ tokens text, Duration.IsWellFormed token := by
  rw [ofLog_eq_mapM, exists_mapM_eq_ok_iff]
  exact forall₂_congr fun token h => Duration.exists_milliseconds_iff (trim_of_mem_tokens h)

theorem length_of_ofLog {text : List Char} {times : List Float} (h : ofLog text = .ok times) :
    times.length = (tokens text).length :=
  length_of_mapM_eq_ok (ofLog_eq_mapM text ▸ h)

end ExecutionTime
end BenchLog
