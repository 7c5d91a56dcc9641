/-
# When a dataset is aligned, and why it is not

A dataset is aligned if each of its logs can be used, and what can be used is
said of the texts alone (`DatasetLogs.Usable`). The logs are looked at one after
the other, so a failure is that of the first log that cannot be used, and the
logs behind it do not matter (`FirstFault`). A blank log is one of which nothing
can be used; that logs are checked for blanks first does not change a failure.

Key definitions: `DatasetLogs.Usable`, `LogFault`, `TimeFault`, `FirstFault`.
Key theorems: `exists_alignRam_iff`, `exists_alignCpu_iff`,
`exists_alignTime_iff`, `alignTime_eq_error_iff`, `alignDataset_outcome`.
-/
import BenchLog.Proofs.AlignedLogs
import BenchLog.Proofs.UsableLogs
import BenchLog.Proofs.WrittenContents
import BenchLog.Report.Run

namespace BenchLog

/-! ### Each text -/

section Stages

variable {path : Path} {text : List Char} {e : Error}

theorem exists_alignRam_iff :
    (∃ r, alignRam path text = .ok r) ↔ Pairing.Completes (Record.ofLog text) := by
  rw [← Pairing.pairs_ne_nil_iff]
  constructor
  · rintro ⟨r, h⟩
    exact (alignRam_eq_ok_iff.mp h).1
  · intro h
    obtain ⟨t, ht⟩ := exists_ramTable ((Pairing.ofRecords (Record.ofLog text)).pairs.map (·.row))
    exact ⟨_, alignRam_eq_ok_iff.mpr ⟨h, t, ht, rfl⟩⟩

theorem alignRam_of_not_completes (h : ¬ Pairing.Completes (Record.ofLog text)) :
    alignRam path text = .error (.emptyInput path) :=
  alignRam_of_no_pairs (not_not.mp (mt Pairing.pairs_ne_nil_iff.mp h))

theorem exists_alignCpu_iff :
    (∃ r, alignCpu path text = .ok r) ↔ Recurs (CpuBlock.ofLog text) := by
  rw [← coupleRows_ne_nil_iff]
  constructor
  · rintro ⟨r, h⟩
    exact (alignCpu_eq_ok_iff.mp h).1
  · intro h
    obtain ⟨t, ht⟩ := exists_cpuTable (coupleRows (CpuBlock.ofLog text))
    exact ⟨_, alignCpu_eq_ok_iff.mpr ⟨h, t, ht, rfl⟩⟩

theorem alignCpu_of_not_recurs (h : ¬ Recurs (CpuBlock.ofLog text)) :
    alignCpu path text = .error (.emptyInput path) := by
  have hnil : coupleRows (CpuBlock.ofLog text) = [] :=
    not_not.mp (mt coupleRows_ne_nil_iff.mp h)
  rw [alignCpu, hnil]
  rfl

theorem exists_alignTime_iff :
    (∃ r, alignTime path text = .ok r) ↔ ExecutionTime.tokens text ≠ [] ∧
      ∀ token ∈ ExecutionTime.tokens text, Duration.IsWellFormed token := by
  rw [← ExecutionTime.exists_ofLog_iff]
  constructor
  · rintro ⟨r, h⟩
    obtain ⟨times, htimes, hne, -⟩ := alignTime_eq_ok_iff.mp h
    refine ⟨fun hnil => hne ?_, times, htimes⟩
    rw [← List.length_eq_zero_iff, ExecutionTime.length_of_ofLog htimes, hnil, List.length_nil]
  · rintro ⟨hne, times, htimes⟩
    obtain ⟨t, ht⟩ := exists_timeTable times
    refine ⟨_, alignTime_eq_ok_iff.mpr ⟨times, htimes, fun hnil => hne ?_, t, ht, rfl⟩⟩
    rw [← List.length_eq_zero_iff, ← ExecutionTime.length_of_ofLog htimes, hnil, List.length_nil]

theorem alignTime_of_no_tokens (h : ExecutionTime.tokens text = []) :
    alignTime path text = .error (.emptyInput path) := by
  have hlog : ExecutionTime.ofLog text = .ok [] := by
    rw [ExecutionTime.ofLog_eq_mapM, h]
    rfl
  rw [alignTime, hlog]
  rfl

/-- A log of execution times fails with its first malformed duration, or because it
has none at all. -/
theorem alignTime_eq_error_iff :
    alignTime path text = .error e ↔ ExecutionTime.ofLog text = .error e ∨
      ExecutionTime.tokens text = [] ∧ e = .emptyInput path := by
  constructor
  · intro h
    cases htimes : ExecutionTime.ofLog text with
    | error e' =>
      rw [alignTime, htimes] at h
      cases h
      exact .inl rfl
    | ok times =>
      have hnil : ExecutionTime.tokens text = [] := by
        by_contra hne
        obtain ⟨r, hr⟩ := exists_alignTime_iff.mpr
          ⟨hne, ExecutionTime.exists_ofLog_iff.mp ⟨times, htimes⟩⟩
        rw [hr] at h
        cases h
      rw [alignTime_of_no_tokens hnil, Except.error.injEq] at h
      exact .inr ⟨hnil, h.symm⟩
  · rintro (h | ⟨hnil, rfl⟩)
    · rw [alignTime, h]
      rfl
    · exact alignTime_of_no_tokens hnil

end Stages

/-! ### The logs of a dataset -/

/-- Each log has what a table can be made of, and no malformed duration. -/
structure DatasetLogs.Usable (logs : DatasetLogs) : Prop where
  completes : Pairing.Completes (Record.ofLog logs.ram)
  recurs : Recurs (CpuBlock.ofLog logs.cpu)
  tokens_ne_nil : ExecutionTime.tokens logs.time ≠ []
  isWellFormed : ∀ token ∈ ExecutionTime.tokens logs.time, Duration.IsWellFormed token

/-- Why a log gives nothing: it cannot be read, it is blank, or nothing in it can be used. -/
inductive LogFault (files : FileTree) (p : Path) (Useful : List Char → Prop) : Error → Prop
  | unreadable {cause : FileFailure} :
      files.readText p = .error cause → LogFault files p Useful (.file cause (some p))
  | blank {text : List Char} : files.readText p = .ok text → Text.isBlankText text = true →
      LogFault files p Useful (.emptyInput p)
  | useless {text : List Char} : files.readText p = .ok text → ¬ Useful text →
      LogFault files p Useful (.emptyInput p)

/-- Why a log of execution times gives nothing; it may also have a malformed duration,
and then the first one counts. -/
inductive TimeFault (files : FileTree) (p : Path) : Error → Prop
  | log {e : Error} : LogFault files p (ExecutionTime.tokens · ≠ []) e → TimeFault files p e
  | malformed {text token : List Char} {front back : List (List Char)} :
      files.readText p = .ok text → ExecutionTime.tokens text = front ++ token :: back →
      (∀ t ∈ front, Duration.IsWellFormed t) → ¬ Duration.IsWellFormed token →
        TimeFault files p (.malformedDuration token)

/-- A text can be read from a file, and it is of use. -/
def FileTree.HasLog (files : FileTree) (p : Path) (Useful : List Char → Prop) : Prop :=
  ∃ text, files.readText p = .ok text ∧ Useful text

/-- The fault of the first log that has one. -/
inductive FirstFault (files : FileTree) (layout : DatasetLayout) (dir : Path) : Error → Prop
  | ram {e : Error} :
      LogFault files (layout.ramLog dir) (Pairing.Completes <| Record.ofLog ·) e →
        FirstFault files layout dir e
  | cpu {e : Error} :
      files.HasLog (layout.ramLog dir) (Pairing.Completes <| Record.ofLog ·) →
        LogFault files (layout.cpuLog dir) (Recurs <| CpuBlock.ofLog ·) e →
          FirstFault files layout dir e
  | time {e : Error} :
      files.HasLog (layout.ramLog dir) (Pairing.Completes <| Record.ofLog ·) →
        files.HasLog (layout.cpuLog dir) (Recurs <| CpuBlock.ofLog ·) →
          TimeFault files (layout.timeLog dir) e → FirstFault files layout dir e

section Reading

variable {files : FileTree} {p : Path} {Useful : List Char → Prop}
  {stage : List Char → Except Error α} {e : Error}

theorem exists_logText_bind_iff
    (hstage : ∀ text, (∃ r, stage text = .ok r) ↔ Useful text) :
    (∃ r, (files.logText p >>= stage) = .ok r) ↔ files.HasLog p Useful := by
  rw [FileTree.logText, FileTree.HasLog]
  cases files.readText p with
  | error cause => simp [bind, Except.bind, Except.mapError]
  | ok text => simpa [bind, Except.bind, Except.mapError] using hstage text

theorem logText_bind_eq_error_iff
    (hstage : ∀ text, (∃ r, stage text = .ok r) ↔ Useful text)
    (huseless : ∀ text, ¬ Useful text → stage text = .error (.emptyInput p))
    (hblank : ∀ text, Text.isBlankText text = true → stage text = .error (.emptyInput p)) :
    (files.logText p >>= stage) = .error e ↔ LogFault files p Useful e := by
  constructor
  · intro h
    cases hread : files.readText p with
    | error cause =>
      rw [FileTree.logText, hread] at h
      cases h
      exact .unreadable hread
    | ok text =>
      rw [FileTree.logText_of_readText hread] at h
      have herror : stage text = .error e := h
      have hnot : ¬ Useful text := by
        rw [← hstage, herror]
        simp
      rw [huseless text hnot] at herror
      cases herror
      exact .useless hread hnot
  · rintro (hread | ⟨hread, hb⟩ | ⟨hread, hnot⟩)
    · rw [FileTree.logText, hread]
      rfl
    · rw [FileTree.logText_of_readText hread]
      exact hblank _ hb
    · rw [FileTree.logText_of_readText hread]
      exact huseless _ hnot

theorem exists_logText_alignRam_iff :
    (∃ r, (files.logText p >>= alignRam p) = .ok r) ↔
      files.HasLog p (Pairing.Completes <| Record.ofLog ·) :=
  exists_logText_bind_iff fun _ => exists_alignRam_iff

theorem logText_alignRam_eq_error_iff :
    (files.logText p >>= alignRam p) = .error e ↔
      LogFault files p (Pairing.Completes <| Record.ofLog ·) e :=
  logText_bind_eq_error_iff (fun _ => exists_alignRam_iff) (fun _ => alignRam_of_not_completes)
    fun _ => alignRam_of_blank

theorem exists_logText_alignCpu_iff :
    (∃ r, (files.logText p >>= alignCpu p) = .ok r) ↔
      files.HasLog p (Recurs <| CpuBlock.ofLog ·) :=
  exists_logText_bind_iff fun _ => exists_alignCpu_iff

theorem logText_alignCpu_eq_error_iff :
    (files.logText p >>= alignCpu p) = .error e ↔
      LogFault files p (Recurs <| CpuBlock.ofLog ·) e :=
  logText_bind_eq_error_iff (fun _ => exists_alignCpu_iff) (fun _ => alignCpu_of_not_recurs)
    fun _ => alignCpu_of_blank

theorem logText_alignTime_eq_error_iff :
    (files.logText p >>= alignTime p) = .error e ↔ TimeFault files p e := by
  constructor
  · intro h
    cases hread : files.readText p with
    | error cause =>
      rw [FileTree.logText, hread] at h
      cases h
      exact .log (.unreadable hread)
    | ok text =>
      rw [FileTree.logText_of_readText hread] at h
      have herror : alignTime p text = .error e := h
      rcases alignTime_eq_error_iff.mp herror with h | ⟨hnil, rfl⟩
      · obtain ⟨front, token, back, hsplit, hfront, hnot, rfl⟩ :=
          ExecutionTime.ofLog_eq_error_iff.mp h
        exact .malformed hread hsplit hfront hnot
      · exact .log (.useless hread (not_not.mpr hnil))
  · rintro ((hread | ⟨hread, hb⟩ | ⟨hread, hnot⟩) | ⟨hread, hsplit, hfront, hnot⟩)
    · rw [FileTree.logText, hread]
      rfl
    · rw [FileTree.logText_of_readText hread]
      exact alignTime_of_blank hb
    · rw [FileTree.logText_of_readText hread]
      exact alignTime_eq_error_iff.mpr (.inr ⟨not_not.mp hnot, rfl⟩)
    · rw [FileTree.logText_of_readText hread]
      exact alignTime_eq_error_iff.mpr
        (.inl (ExecutionTime.ofLog_eq_error_iff.mpr ⟨_, _, _, hsplit, hfront, hnot, rfl⟩))

end Reading

/-! ### The dataset -/

theorem bind_eq_error_iff {r : Except Error α} {f : α → Except Error β} {e : Error} :
    (r >>= f) = .error e ↔ r = .error e ∨ ∃ a, r = .ok a ∧ f a = .error e := by
  cases r <;> simp [bind, Except.bind]

variable {files : FileTree} {layout : DatasetLayout} {dir : Path} {source : String}

/-- A dataset is aligned if and only if its logs stand in the directory and can be used. -/
theorem exists_alignDataset_iff :
    (∃ d, alignDataset files layout dir source = .ok d) ↔
      ∃ logs : DatasetLogs, logs.StandIn files layout dir ∧ logs.Usable := by
  constructor
  · rintro ⟨d, h⟩
    obtain ⟨logs, hlogs⟩ := exists_standIn_of_alignDataset h
    obtain ⟨_, _, _, hram, hcpu, htime, -⟩ := hlogs.alignDataset_eq_ok_iff.mp h
    obtain ⟨hne, htokens⟩ := exists_alignTime_iff.mp ⟨_, htime⟩
    exact ⟨logs, hlogs,
      ⟨exists_alignRam_iff.mp ⟨_, hram⟩, exists_alignCpu_iff.mp ⟨_, hcpu⟩, hne, htokens⟩⟩
  · rintro ⟨logs, hlogs, husable⟩
    obtain ⟨_, hram⟩ := exists_alignRam_iff.mpr husable.completes
    obtain ⟨_, hcpu⟩ := exists_alignCpu_iff.mpr husable.recurs
    obtain ⟨_, htime⟩ := exists_alignTime_iff.mpr ⟨husable.tokens_ne_nil, husable.isWellFormed⟩
    exact ⟨_, hlogs.alignDataset_eq_ok_iff.mpr ⟨_, _, _, hram, hcpu, htime, rfl⟩⟩

/-- A dataset that is not aligned fails with the fault of its first log that has one. -/
theorem alignDataset_eq_error_iff {e : Error} :
    alignDataset files layout dir source = .error e ↔ FirstFault files layout dir e := by
  rw [alignDataset_eq_bind]
  constructor
  · intro h
    rcases bind_eq_error_iff.mp h with h | ⟨r, hr, h⟩
    · exact .ram (logText_alignRam_eq_error_iff.mp h)
    have hram := exists_logText_alignRam_iff.mp ⟨r, hr⟩
    rcases bind_eq_error_iff.mp h with h | ⟨c, hc, h⟩
    · exact .cpu hram (logText_alignCpu_eq_error_iff.mp h)
    have hcpu := exists_logText_alignCpu_iff.mp ⟨c, hc⟩
    rcases bind_eq_error_iff.mp h with h | ⟨t, -, h⟩
    · exact .time hram hcpu (logText_alignTime_eq_error_iff.mp h)
    · cases h
  · rintro (h | ⟨hram, h⟩ | ⟨hram, hcpu, h⟩)
    · exact bind_eq_error_iff.mpr (.inl (logText_alignRam_eq_error_iff.mpr h))
    · obtain ⟨r, hr⟩ := exists_logText_alignRam_iff.mpr hram
      refine bind_eq_error_iff.mpr (.inr ⟨r, hr, bind_eq_error_iff.mpr (.inl ?_)⟩)
      exact logText_alignCpu_eq_error_iff.mpr h
    · obtain ⟨r, hr⟩ := exists_logText_alignRam_iff.mpr hram
      obtain ⟨c, hc⟩ := exists_logText_alignCpu_iff.mpr hcpu
      refine bind_eq_error_iff.mpr (.inr ⟨r, hr, bind_eq_error_iff.mpr (.inr ⟨c, hc, ?_⟩)⟩)
      exact bind_eq_error_iff.mpr (.inl (logText_alignTime_eq_error_iff.mpr h))

/-- **A dataset is aligned if and only if each of its logs can be used, and a failure is
that of the first log that cannot.** Nothing is written either way: the run goes on, or
ends, with the files as they were. -/
theorem alignDataset_outcome (files : FileTree) (layout : DatasetLayout) (dir : Path)
    (source : String) :
    ((∃ d, alignDataset files layout dir source = .ok d) ↔
        ∃ logs : DatasetLogs, logs.StandIn files layout dir ∧ logs.Usable) ∧
      (∀ e, alignDataset files layout dir source = .error e ↔ FirstFault files layout dir e) ∧
      ∀ (out plots : Path) (style : ChartStyle),
        processDataset source dir out plots style layout files =
          match alignDataset files layout dir source with
          | .error e => (.error e, files)
          | .ok d =>
            (do
              let tables ← writeAligned layout.name d out
              let chart ← renderRamUsage layout.name d plots style
              return ⟨layout.name, d, tables ++ [chart]⟩ : FileTask ProcessedDataset) files := by
  refine ⟨exists_alignDataset_iff, fun e => alignDataset_eq_error_iff, fun out plots style => ?_⟩
  cases h : alignDataset files layout dir source with
  | error e => exact FileTask.bind_of_error (congrArg (·, files) h)
  | ok d => exact FileTask.bind_of_ok (congrArg (·, files) h)

end BenchLog
