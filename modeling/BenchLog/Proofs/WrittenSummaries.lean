/-
# Summaries are read as they were written

The fields of a record stand in an object under names of their own, so each is
found again. Names of columns are in ascending order, so that taking them in one
by one puts each behind those before. What can be lost are numbers: a float that
is not finite is written as nothing, and nothing is no number. Each reader is
therefore described by one equation: it gives what was written, if all floats in
it are finite, and nothing otherwise.

Key definitions: `JsonValue.KeepsFloat`, `RunSummary.floats`, `RunSummary.counts`.
Key theorems: `JsonValue.fields?_ofMembers`, `ColumnStats.ofJson?_toJson`,
`columnsOfJson?_ofMembers`, `DatasetSummary.ofJson?_toJson`,
`RunSummary.ofJson?_toJson`, `RunSummary.ofText_save`.
-/
import BenchLog.Proofs.WrittenContents
import BenchLog.Proofs.WrittenInstants
import BenchLog.Proofs.WrittenJson

namespace BenchLog

/-! ### Fields -/

namespace JsonValue

theorem text?_ofText (s : String) : (ofText s).text? = some s := by
  rw [ofText, text?, String.ofList_toList]

theorem choice?_ofText (s : String) : (ofText s).choice? = some s := by
  rw [ofText, choice?, String.ofList_toList]

theorem count?_ofNat {n : ℕ} (h : n < UInt64.size) : (ofNat n).count? = some n :=
  Number.natBelow?_toDigits h

/-- The float is read back from the number that it is written as, if it is finite. The reader
takes a single step of arithmetic, so that the last bit of other floats is lost. -/
def KeepsFloat (x : Float) : Prop :=
  x.isFinite = true → (ofFloat x).float? = some x

instance (x : Float) : Decidable (KeepsFloat x) :=
  inferInstanceAs (Decidable (_ → _))

/-- A float that is not finite is no number once it is written. -/
theorem float?_ofFloat {x : Float} (h : KeepsFloat x) :
    (ofFloat x).float? = if x.isFinite = true then some x else none := by
  split
  · rename_i hfinite
    exact h hfinite
  · rename_i hinfinite
    rw [ofFloat, if_neg hinfinite]
    rfl

variable {members : List (String × JsonValue)}

theorem named?_of_names (members : List (String × JsonValue)) :
    named? (members.map fun (name, v) => (some name.toList, v)) =
      some (members.map fun (name, v) => (name.toList, v)) := by
  induction members with
  | nil => rfl
  | cons m members ih =>
    rw [List.map_cons, named?, List.mapM_cons]
    exact bind_of_eq_some ih _

/-- A name that no other member has leads to its value. -/
theorem only?_of_mem (hnames : (members.map (·.1)).Nodup) {name : String} {v : JsonValue}
    (h : (name, v) ∈ members) :
    only? (members.map fun (name, v) => (name.toList, v)) name = some v := by
  have hfilter : (members.map fun (name, v) => (name.toList, v)).filter (·.1 == name.toList) =
      [(name.toList, v)] := by
    induction members with
    | nil => cases h
    | cons m members ih =>
      obtain ⟨hnew, hnames⟩ := List.nodup_cons.mp hnames
      rcases List.mem_cons.mp h with rfl | h
      · have hnone : (members.map fun (name, v) => (name.toList, v)).filter
            (·.1 == name.toList) = [] := by
          refine List.filter_eq_nil_iff.mpr fun e he => ?_
          obtain ⟨k, hk, rfl⟩ := List.mem_map.mp he
          intro hsame
          exact hnew (List.mem_map.mpr ⟨k, hk, String.toList_inj.mp (beq_iff_eq.mp hsame)⟩)
        rw [List.map_cons, List.filter_cons_of_pos (by simp), hnone]
      · have hother : m.1 ≠ name := fun hsame =>
          hnew (List.mem_map.mpr ⟨_, h, hsame.symm⟩)
        rw [List.map_cons, List.filter_cons_of_neg (by simpa [String.toList_inj] using hother)]
        exact ih hnames h
  rw [only?, hfilter]

/-- The fields of a record are found by their names. -/
theorem fields?_ofMembers (hnames : (members.map (·.1)).Nodup) :
    fields? (members.map (·.1)) (ofMembers members) = some (members.map (·.2)) := by
  have hfound : ∀ chosen, chosen ⊆ members → (chosen.map (·.1)).mapM
      (only? (members.map fun (name, v) => (name.toList, v))) = some (chosen.map (·.2)) := by
    intro chosen hchosen
    induction chosen with
    | nil => rfl
    | cons m chosen ih =>
      obtain ⟨hm, hrest⟩ := List.cons_subset.mp hchosen
      rw [List.map_cons, List.mapM_cons, only?_of_mem hnames hm, ih hrest]
      rfl
  exact (bind_of_eq_some (named?_of_names members) _).trans (hfound members (List.Subset.refl _))

end JsonValue

/-! ### Dictionaries -/

namespace Dictionary

/-- A name behind all others is added at the end. -/
theorem insertEntry_of_lt {name : String} (a : α) {entries : List (String × α)}
    (h : ∀ e ∈ entries, e.1 < name) : insertEntry name a entries = entries ++ [(name, a)] := by
  induction entries with
  | nil => rfl
  | cons e entries ih =>
    obtain ⟨hlt, hrest⟩ := List.forall_mem_cons.mp h
    have hne : name ≠ e.1 := fun hsame => String.lt_irrefl name (hsame ▸ hlt)
    rw [insertEntry, if_neg (String.lt_asymm hlt), if_neg hne, ih hrest]
    rfl

/-- Entries in ascending order are taken in as they are, unless a value is lost. -/
theorem foldlM_insert {f : β → Option α} {g : α → β} {P : α → Prop} [DecidablePred P] :
    ∀ {entries : List (String × α)} (d : Dictionary α)
      (hsorted : (d.entries ++ entries).Pairwise (·.1 < ·.1)),
      (∀ e ∈ entries, f (g e.2) = if P e.2 then some e.2 else none) →
      (entries.map fun (name, a) => (name.toList, g a)).foldlM
          (fun d (name, v) => do some (d.insert (String.ofList name) (← f v))) d =
        if ∀ e ∈ entries, P e.2 then some ⟨d.entries ++ entries, hsorted⟩ else none
  | [], d, _, _ => by simp
  | e :: entries, d, hsorted, h => by
    -- The name is behind all that were taken in, so the entries stay a prefix of the sorted ones.
    obtain ⟨-, -, hbefore⟩ := List.pairwise_append.mp hsorted
    have hinsert : (d.insert e.1 e.2).entries = d.entries ++ [e] :=
      insertEntry_of_lt e.2 fun k hk => hbefore k hk e List.mem_cons_self
    have hsorted' : ((d.insert e.1 e.2).entries ++ entries).Pairwise (·.1 < ·.1) := by
      rwa [hinsert, List.append_assoc]
    have htail := foldlM_insert (d.insert e.1 e.2) hsorted' fun k hk =>
      h k (List.mem_cons_of_mem _ hk)
    simp only [List.map_cons, List.foldlM_cons, h e List.mem_cons_self, List.forall_mem_cons,
      String.ofList_toList]
    by_cases he : P e.2
    · rw [if_pos he]
      refine htail.trans ?_
      simp only [hinsert, he, true_and, List.append_assoc, List.singleton_append]
    · rw [if_neg he, if_neg (not_and_of_not_left _ he)]
      rfl

end Dictionary

/-! ### Statistics -/

namespace ColumnStats

/-- The floats of the statistics. -/
def floats (s : ColumnStats) : List Float :=
  [s.least, s.mean, s.greatest]

variable {s : ColumnStats}

theorem printable_toJson (s : ColumnStats) : s.toJson.Printable := by
  refine JsonValue.printable_ofMembers ?_
  simp [JsonValue.printable_ofNat, JsonValue.printable_ofFloat]

/-- Statistics are read back if they are finite, and lost otherwise. -/
theorem ofJson?_toJson (hcount : s.count < UInt64.size)
    (hfloats : ∀ x ∈ s.floats, JsonValue.KeepsFloat x) :
    ofJson? s.toJson = if ∀ x ∈ s.floats, x.isFinite = true then some s else none := by
  have hfields : s.toJson.fields? ["count", "min", "mean", "max"] = some
      [.ofNat s.count, .ofFloat s.least, .ofFloat s.mean, .ofFloat s.greatest] :=
    JsonValue.fields?_ofMembers (by simp)
  simp only [floats, List.forall_mem_cons] at hfloats
  obtain ⟨hleast, hmean, hgreatest, -⟩ := hfloats
  refine (bind_of_eq_some hfields _).trans ?_
  simp only [JsonValue.count?_ofNat hcount, JsonValue.float?_ofFloat hleast,
    JsonValue.float?_ofFloat hmean, JsonValue.float?_ofFloat hgreatest, bind_ite, floats,
    List.forall_mem_cons, ite_and]
  simp

end ColumnStats

/-- The statistics of columns are read back if they are finite, and lost otherwise. -/
theorem columnsOfJson?_ofMembers {d : Dictionary ColumnStats}
    (hcounts : ∀ e ∈ d.entries, e.2.count < UInt64.size)
    (hfloats : ∀ e ∈ d.entries, ∀ x ∈ e.2.floats, JsonValue.KeepsFloat x) :
    columnsOfJson? (.ofMembers (d.entries.map fun (name, stats) => (name, stats.toJson))) =
      if ∀ e ∈ d.entries, ∀ x ∈ e.2.floats, x.isFinite = true then some d else none := by
  have hfold := Dictionary.foldlM_insert
    (P := fun s => ∀ x ∈ ColumnStats.floats s, x.isFinite = true) .empty d.sorted
    fun e he => ColumnStats.ofJson?_toJson (hcounts e he) (hfloats e he)
  have hnamed := JsonValue.named?_of_names
    (d.entries.map fun (name, stats) => (name, stats.toJson))
  rw [List.map_map, List.map_map] at hnamed
  rw [JsonValue.ofMembers, List.map_map]
  refine (bind_of_eq_some hnamed _).trans ?_
  exact hfold

/-! ### Datasets -/

namespace DatasetSummary

/-- The counters of a dataset and of its columns. -/
def counts (s : DatasetSummary) : List ℕ :=
  [s.ramPairs, s.ramDroppedEnds, s.ramUnmatchedStarts, s.cpuBlocks, s.cpuRows, s.executionTimes] ++
    s.columns.entries.map (·.2.count)

/-- The floats of the statistics. -/
def floats (s : DatasetSummary) : List Float :=
  s.columns.entries.flatMap (·.2.floats)

variable {s : DatasetSummary}

theorem printable_toJson (s : DatasetSummary) : s.toJson.Printable := by
  have hcolumns : (JsonValue.ofMembers
      (s.columns.entries.map fun (name, stats) => (name, stats.toJson))).Printable := by
    refine JsonValue.printable_ofMembers fun m hm => ?_
    obtain ⟨e, -, rfl⟩ := List.mem_map.mp hm
    exact e.2.printable_toJson
  refine JsonValue.printable_ofMembers ?_
  simp [JsonValue.printable_ofNat, JsonValue.printable_ofText, hcolumns]

/-- The summary of a dataset is read back if its statistics are finite, and lost otherwise. -/
theorem ofJson?_toJson (hcounts : ∀ n ∈ s.counts, n < UInt64.size)
    (hfloats : ∀ x ∈ s.floats, JsonValue.KeepsFloat x) :
    ofJson? s.toJson = if ∀ x ∈ s.floats, x.isFinite = true then some s else none := by
  have hfields : s.toJson.fields? ["dataset", "source", "ram_pairs", "ram_dropped_ends",
      "ram_unmatched_starts", "cpu_blocks", "cpu_rows", "execution_times", "columns"] = some
      [.ofText s.dataset, .ofText s.source, .ofNat s.ramPairs, .ofNat s.ramDroppedEnds,
        .ofNat s.ramUnmatchedStarts, .ofNat s.cpuBlocks, .ofNat s.cpuRows, .ofNat s.executionTimes,
        .ofMembers (s.columns.entries.map fun (name, stats) => (name, stats.toJson))] :=
    JsonValue.fields?_ofMembers (by simp)
  simp only [counts, List.forall_mem_append, List.forall_mem_cons, List.forall_mem_map] at hcounts
  obtain ⟨⟨hpairs, hdropped, hunmatched, hblocks, hrows, htimes, -⟩, hcolumns⟩ := hcounts
  simp only [floats, List.forall_mem_flatMap] at hfloats
  have hread := columnsOfJson?_ofMembers hcolumns hfloats
  refine (bind_of_eq_some hfields _).trans ?_
  simp only [JsonValue.text?_ofText, JsonValue.count?_ofNat, hpairs, hdropped, hunmatched, hblocks,
    hrows, htimes, hread, bind_ite, floats, List.forall_mem_flatMap]
  rfl

end DatasetSummary

/-! ### Runs -/

theorem Category.ofName?_name (c : Category) : ofName? false c.name = some c := by
  cases c <;> rfl

namespace RunSummary

/-- The counters of the datasets. -/
def counts (s : RunSummary) : List ℕ :=
  s.datasets.flatMap DatasetSummary.counts

/-- The floats of the statistics of the datasets. -/
def floats (s : RunSummary) : List Float :=
  s.datasets.flatMap DatasetSummary.floats

variable {s : RunSummary}

theorem printable_toJson (s : RunSummary) : s.toJson.Printable := by
  have hdatasets : (JsonValue.array (s.datasets.map DatasetSummary.toJson)).Printable := by
    refine .array fun v hv => ?_
    obtain ⟨d, -, rfl⟩ := List.mem_map.mp hv
    exact d.printable_toJson
  have houtputs : (JsonValue.array (s.outputs.map fun p => .ofText p.text)).Printable := by
    refine .array fun v hv => ?_
    obtain ⟨p, -, rfl⟩ := List.mem_map.mp hv
    exact JsonValue.printable_ofText p.text
  refine JsonValue.printable_ofMembers ?_
  simp [JsonValue.printable_ofText, JsonValue.Printable.string, hdatasets, houtputs]

/-- The summary of a run is read back if its statistics are finite, and lost otherwise. -/
theorem ofJson?_toJson (hcounts : ∀ n ∈ s.counts, n < UInt64.size) (htime : s.generatedAt.IsValid)
    (hfloats : ∀ x ∈ s.floats, JsonValue.KeepsFloat x) :
    ofJson? s.toJson = if ∀ x ∈ s.floats, x.isFinite = true then some s else none := by
  have hfields : s.toJson.fields? ["category", "generated_at", "datasets", "outputs"] = some
      [.ofText s.category.name, .string (some (s.generatedAt.text ++ ['Z'])),
        .array (s.datasets.map DatasetSummary.toJson),
        .array (s.outputs.map fun p => .ofText p.text)] :=
    JsonValue.fields?_ofMembers (by simp)
  simp only [counts, List.forall_mem_flatMap] at hcounts
  simp only [floats, List.forall_mem_flatMap] at hfloats
  have hinstant : Instant.ofText? (String.ofList (s.generatedAt.text ++ ['Z'])).toList =
      some s.generatedAt := by
    rw [String.toList_ofList, Instant.ofText?_text htime]
  -- Of the four fields only the datasets can be lost.
  have hdatasets := mapM_map_eq_ite fun d hd =>
    DatasetSummary.ofJson?_toJson (hcounts d hd) (hfloats d hd)
  have houtputs : (s.outputs.map fun p => .ofText p.text).mapM
      (fun p => (JsonValue.text? p).map Path.mk) = some s.outputs :=
    mapM_map_eq_some fun p _ => by rw [JsonValue.text?_ofText, Option.map_some]
  refine (bind_of_eq_some hfields _).trans ?_
  refine (bind_of_eq_some (JsonValue.choice?_ofText _) _).trans ?_
  refine (bind_of_eq_some (Category.ofName?_name _) _).trans ?_
  refine (bind_of_eq_some rfl _).trans ?_
  refine (bind_of_eq_some hinstant _).trans ?_
  refine (bind_of_eq_some rfl _).trans ?_
  refine (congrArg (· >>= _) hdatasets).trans ?_
  rw [bind_ite]
  simp only [floats, List.forall_mem_flatMap]
  split
  · exact bind_of_eq_some houtputs _
  · rfl

theorem ofText_text (hcounts : ∀ n ∈ s.counts, n < UInt64.size) (htime : s.generatedAt.IsValid)
    (hfloats : ∀ x ∈ s.floats, JsonValue.KeepsFloat x) :
    ofText s.text =
      if ∀ x ∈ s.floats, x.isFinite = true then .ok s else .error .malformedSummary := by
  rw [ofText, text, JsonValue.parse?_pretty s.printable_toJson, Option.bind_some,
    ofJson?_toJson hcounts htime hfloats]
  by_cases hfinite : ∀ x ∈ s.floats, x.isFinite = true
  · rw [if_pos hfinite, if_pos hfinite]
  · rw [if_neg hfinite, if_neg hfinite]

/-- **The summary of a run is read back from the text of its file if and only if all statistics
in it are finite, and what is read is the summary.** The counters are words of a machine and the
time is one of the calendar. -/
theorem ofText_save (hcounts : ∀ n ∈ s.counts, n < UInt64.size) (htime : s.generatedAt.IsValid)
    (hfloats : ∀ x ∈ s.floats, JsonValue.KeepsFloat x) :
    (∀ p files after, s.save p files = (.ok (), after) → after.readText p = .ok s.text) ∧
      ((∃ back, ofText s.text = .ok back) ↔ ∀ x ∈ s.floats, x.isFinite = true) ∧
      ∀ back, ofText s.text = .ok back → back = s := by
  have hread := ofText_text hcounts htime hfloats
  refine ⟨fun _ _ _ => FileTask.readText_of_save, ?_⟩
  by_cases hfinite : ∀ x ∈ s.floats, x.isFinite = true
  · rw [if_pos hfinite] at hread
    refine ⟨⟨fun _ => hfinite, fun _ => ⟨s, hread⟩⟩, fun back hback => ?_⟩
    exact (Except.ok.inj (hread.symm.trans hback)).symm
  · rw [if_neg hfinite] at hread
    have hlost : ∀ back, ofText s.text ≠ .ok back := fun back hback => by
      cases hread.symm.trans hback
    exact ⟨⟨fun ⟨back, hback⟩ => absurd hback (hlost back), fun h => absurd h hfinite⟩,
      fun back hback => absurd hback (hlost back)⟩

/-- A summary with a leap second, a path and a column whose greatest value may be any. -/
def sampleOf (greatest : Float) : RunSummary where
  category := .singlePerformanceParallel
  generatedAt := ⟨1483228799, 1500000000⟩
  datasets := [⟨"lwe128", "singlePerformance", 2, 1, 0, 4, 4, 3,
    ⟨[("Execution_Time_ms", ⟨3, 0.5, 1.5, greatest⟩)], List.pairwise_singleton _ _⟩⟩]
  outputs := [⟨"out/times \"a\".csv"⟩]

theorem ofText_save_sampleOf :
    (∃ after, (sampleOf 2.5).save ⟨"out/summary.json"⟩ ⟨[], []⟩ = (.ok (), after) ∧
      after.readText ⟨"out/summary.json"⟩ = .ok (sampleOf 2.5).text) ∧
      ofText (sampleOf 2.5).text = .ok (sampleOf 2.5) ∧
        ∀ back, ofText (sampleOf (1 / 0)).text ≠ .ok back := by
  have hcounts : ∀ x, ∀ n ∈ (sampleOf x).counts, n < UInt64.size := by
    intro x n hn
    have hbounds : ∀ n ∈ [2, 1, 0, 4, 4, 3, 3], n < UInt64.size := by decide
    exact hbounds n hn
  have htime : (⟨1483228799, 1500000000⟩ : Instant).IsValid := ⟨by decide, by decide⟩
  obtain ⟨htext, hfinite, hback⟩ := ofText_save (hcounts 2.5) htime (by decide +kernel)
  obtain ⟨-, hinfinite, -⟩ := ofText_save (hcounts (1 / 0)) htime (by decide +kernel)
  have hsaved : ∃ after, (sampleOf 2.5).save ⟨"out/summary.json"⟩ ⟨[], []⟩ = (.ok (), after) :=
    ⟨_, rfl⟩
  obtain ⟨after, hafter⟩ := hsaved
  obtain ⟨back, hread⟩ := hfinite.mpr (by decide +kernel)
  refine ⟨⟨after, hafter, htext _ _ _ hafter⟩,
    hread.trans (congrArg Except.ok (hback back hread)), fun back hread => ?_⟩
  exact absurd (hinfinite.mp ⟨back, hread⟩) (by decide +kernel)

end RunSummary

end BenchLog
