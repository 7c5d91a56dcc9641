/-
# The command refines a run

A command line that asks for a run does to the files what the run does under one
configuration: the one in the file that is named, or the default, with what else is given in
place of its own. Those choices are made after the file is checked and cannot spoil it: they
have no say on the layouts, and nothing else is checked.

Key definitions: `Arguments.source`, `Arguments.overlay`, `Outcome.Fails`.
Key theorems: `Config.load_eq_ok_iff`, `Arguments.check_overlay_of_source`,
`command_refines_run`.
-/
import BenchLog.Command
import BenchLog.Proofs.CommandLines
import BenchLog.Proofs.DistinctOutputs

namespace BenchLog

/-! ### Configurations -/

namespace Config

/-- Loading looks at the files and leaves them as they are. -/
theorem load_eq (path : Path) (files : FileTree) :
    load path files =
      (((files.readText path).mapError (.file · none)).bind ofToml, files) := by
  rw [load, FileTask.bind_eq, FileTask.readText]
  cases files.readText path <;> rfl

/-- A configuration is loaded if the file is a document that describes it and its check finds
nothing wrong. -/
theorem load_eq_ok_iff {path : Path} {files : FileTree} {c : Config} :
    (load path files).1 = .ok c ↔ ∃ text document, files.readText path = .ok text ∧
      Toml.parse text = some document ∧ ofDocument? document = some c ∧ c.check = .ok () := by
  rw [load_eq]
  cases files.readText path with
  | error cause => simp [Except.mapError, Except.bind]
  | ok text => simp [Except.mapError, Except.bind, ofToml_eq_ok_iff]

theorem check_default : default.check = .ok () := by
  decide +kernel

end Config

namespace Arguments

variable {a : Arguments} {c : Config} {files : FileTree}

/-- The configuration that arguments start from: the one in their file, or the default. -/
def source (a : Arguments) (files : FileTree) : Except Error Config :=
  a.config.elim (.ok .default) fun path => (Config.load path files).1

/-- A configuration with what the arguments give in place of its own. -/
def overlay (a : Arguments) (c : Config) : Config where
  inputRoot := a.inputRoot.getD c.inputRoot
  outputRoot := a.outputRoot.getD c.outputRoot
  style := a.style.getD c.style
  categories := c.categories

theorem foldl_settings (a : Arguments) (c : Config) :
    a.settings.foldl Config.set c = a.overlay c := by
  obtain ⟨_, _, inputRoot, outputRoot, style⟩ := a
  cases inputRoot <;> cases outputRoot <;> cases style <;> rfl

theorem configure_eq (a : Arguments) (files : FileTree) :
    a.configure files = ((a.source files).map a.overlay, files) := by
  unfold configure source
  cases a.config with
  | none =>
    show (Except.ok (a.settings.foldl Config.set .default), files) = _
    rw [foldl_settings]
    rfl
  | some path =>
    simp only [FileTask.bind_eq, foldl_settings, Option.elim_some]
    rw [Config.load_eq]
    cases (((files.readText path).mapError (.file · none)).bind Config.ofToml) <;> rfl

theorem check_of_source (h : a.source files = .ok c) : c.check = .ok () := by
  unfold source at h
  cases hconfig : a.config with
  | none =>
    rw [hconfig] at h
    cases h
    exact Config.check_default
  | some path =>
    rw [hconfig] at h
    obtain ⟨_, _, -, -, -, hcheck⟩ := Config.load_eq_ok_iff.mp h
    exact hcheck

/-- What is given on the command line leaves a configuration valid. -/
theorem check_overlay_of_source (h : a.source files = .ok c) : (a.overlay c).check = .ok () := by
  show Config.checkLayouts [] c.categories = .ok ()
  exact check_of_source h

end Arguments

/-! ### Reports -/

/-- A failure that names what was tried and, below it, what went wrong. -/
structure Outcome.Fails (o : Outcome) (context : String) (e : Error) : Prop where
  code : o.code = 1
  output : o.output = ""
  showsUsage : o.showsUsage = false
  report : ∃ number rest, (number = "" ∨ number = "0: ") ∧
    o.report = some ("Error: " ++ context ++ "\n\nCaused by:\n    " ++ number ++
      indented (4 + number.length) e.message ++ rest)

theorem causes_eq (e : Error) :
    e.causes = [e.message] ∨ ∃ detail, e.causes = [e.message, detail] := by
  cases e
  case file cause path => exact .inr ⟨_, rfl⟩
  all_goals exact .inl rfl

theorem fails_failure (context : String) (e : Error) :
    (Outcome.failure context e).Fails context e := by
  refine ⟨rfl, rfl, rfl, ?_⟩
  show ∃ number rest, _ ∧
    some ("Error: " ++ context ++ "\n\nCaused by:\n" ++ causeLines e.causes) = _
  rcases causes_eq e with h | ⟨detail, h⟩
  · have hlines : causeLines e.causes = "    " ++ indented 4 e.message := by
      rw [h]
      rfl
    refine ⟨"", "", .inl rfl, ?_⟩
    rw [hlines]
    simp [String.ext_iff]
  · have hlines : causeLines e.causes =
        "    0: " ++ indented 7 e.message ++ ("\n    1: " ++ indented 7 detail) := by
      rw [h]
      show "    0: " ++ indented 7 e.message ++ "\n" ++ ("    1: " ++ indented 7 detail) = _
      simp [String.ext_iff]
    refine ⟨"0: ", "\n    1: " ++ indented 7 detail, .inr rfl, ?_⟩
    have hwidth : 4 + "0: ".length = 7 := rfl
    rw [hlines, hwidth]
    simp [String.ext_iff]

/-! ### The command -/

section Command

variable {a : Arguments} {c : Config} {e : Error} {arguments : List String} {now : Instant}
  {files : FileTree}

/-- Once there is a configuration, the command is the run. -/
theorem process_of_source (h : a.source files = .ok c) : a.process now files =
    match run (a.overlay c) a.category now files with
    | (.error e, files) => (.failure s!"failed to process {a.category.name}" e, files)
    | (.ok _, files) => (.success "", files) := by
  rw [Arguments.process, Arguments.configure_eq, h]
  rfl

/-- Without a configuration there is no run. -/
theorem process_of_source_eq_error (h : a.source files = .error e) (now : Instant) :
    ∃ path, a.config = some path ∧ (Config.load path files).1 = .error e ∧
      a.process now files = (.failure s!"failed to load config {path.text}" e, files) := by
  have hsource := h
  unfold Arguments.source at hsource
  cases hconfig : a.config with
  | none =>
    rw [hconfig] at hsource
    cases hsource
  | some path =>
    rw [hconfig] at hsource
    refine ⟨path, rfl, hsource, ?_⟩
    rw [Arguments.process, Arguments.configure_eq, h, hconfig]
    rfl

theorem command_of_isGivenBy (h : a.IsGivenBy arguments) :
    command arguments now files = a.process now files := by
  rw [command, ofArguments_eq_run_iff.mpr h]

/-- **The command refines a run.** A command line that asks for a run has the effects of the run
on the files, under the configuration of the file that it names, or the default one, with what it
gives in place of that; that configuration is valid. The status is zero exactly if the run
succeeds. Else it is one, and the report names what was tried above the error of the run, or of
loading the configuration; in the latter case, and for every other command line, the files are
left as they are. Arguments that are refused have the status two. -/
theorem command_refines_run (arguments : List String) (now : Instant) (files : FileTree) :
    (∀ a : Arguments, a.IsGivenBy arguments →
      (∀ c, a.source files = .ok c →
        (a.overlay c).check = .ok () ∧
        (command arguments now files).2 = (run (a.overlay c) a.category now files).2 ∧
        ((command arguments now files).1.code = 0 ↔
          ∃ s, (run (a.overlay c) a.category now files).1 = .ok s) ∧
        ∀ e, (run (a.overlay c) a.category now files).1 = .error e →
          (command arguments now files).1.Fails s!"failed to process {a.category.name}" e) ∧
      ∀ e, a.source files = .error e →
        (command arguments now files).2 = files ∧
        ∃ path, a.config = some path ∧ (Config.load path files).1 = .error e ∧
          (command arguments now files).1.Fails s!"failed to load config {path.text}" e) ∧
    ((∀ a : Arguments, ¬ a.IsGivenBy arguments) →
      (command arguments now files).2 = files ∧
      ∀ refusal, Request.ofArguments arguments = .error refusal →
        (command arguments now files).1.code = 2) := by
  refine ⟨fun a ha => ⟨fun c hc => ?_, fun e he => ?_⟩, fun hnone => ?_⟩
  · refine ⟨Arguments.check_overlay_of_source hc, ?_⟩
    rw [command_of_isGivenBy ha, process_of_source hc]
    rcases run (a.overlay c) a.category now files with ⟨e | s, u⟩
    · refine ⟨rfl, ⟨fun hcode => ?_, fun ⟨s, hs⟩ => ?_⟩, fun e' he' => ?_⟩
      · cases hcode
      · cases hs
      · cases he'
        exact fails_failure _ _
    · refine ⟨rfl, ⟨fun _ => ⟨s, rfl⟩, fun _ => rfl⟩, fun e' he' => ?_⟩
      cases he'
  · obtain ⟨path, hpath, hload, hprocess⟩ := process_of_source_eq_error he now
    rw [command_of_isGivenBy ha, hprocess]
    exact ⟨rfl, path, hpath, hload, fails_failure _ _⟩
  · rw [command]
    cases hrequest : Request.ofArguments arguments with
    | error refusal =>
      refine ⟨rfl, fun _ _ => ?_⟩
      cases refusal <;> rfl
    | ok request =>
      cases request with
      | run a => exact absurd (ofArguments_eq_run_iff.mp hrequest) (hnone a)
      | help | version => exact ⟨rfl, fun _ h => by cases h⟩

/-- The configuration that a file next to the logs describes. -/
def filedConfig : Config where
  inputRoot := ⟨"."⟩
  outputRoot := ⟨"results"⟩
  style := .line
  categories := [exampleLayout .singlePerformance "many"]

/-- The logs with that file, which leaves out where the logs stand. -/
def filedTree : FileTree :=
  exampleTree.put ["perflog.toml"] (.file (.text
    ("output_root = \"results\"\nstyle = \"line\"\n\n" ++
      "[[categories]]\ncategory = \"singlePerformance\"\nfolder = \"many\"\n" ++
      "datasets = [\x7b name = \"d\", log_prefix = \"d\" \x7d]\n").toList))

/-- Arguments that set all but the layout. -/
def rootedArguments : Arguments :=
  ⟨.singlePerformance, some ⟨"perflog.toml"⟩, some ⟨"in"⟩, some ⟨"out"⟩, some .scatter⟩

def rootedWords : List String :=
  ["--config", "perflog.toml", "--input-root=in", "singlePerformance", "--style=scatter",
    "--output-root", "out"]

theorem command_of_filedTree :
    (command rootedWords ⟨0, 0⟩ filedTree).1.code = 0 ∧
      (command rootedWords ⟨0, 0⟩ filedTree).2 =
        (run (rootedArguments.overlay filedConfig) .singlePerformance ⟨0, 0⟩ filedTree).2 ∧
      (command ["singlePerformance", "--config=lost.toml"] ⟨0, 0⟩ filedTree).1.Fails
        "failed to load config lost.toml" (.file .missing none) ∧
      (command ["singlePerformance", "--config=lost.toml"] ⟨0, 0⟩ filedTree).2 = filedTree := by
  have hgiven : rootedArguments.IsGivenBy rootedWords :=
    ofArguments_eq_run_iff.mp (by decide +kernel)
  have hsource : rootedArguments.source filedTree = .ok filedConfig := by
    have hload : (Config.load ⟨"perflog.toml"⟩ filedTree).1.toOption = some filedConfig := by
      decide +kernel
    exact eq_ok_of_toOption hload
  obtain ⟨-, hfiles, hcode, -⟩ :=
    ((command_refines_run rootedWords ⟨0, 0⟩ filedTree).1 _ hgiven).1 _ hsource
  have hrun : (run (rootedArguments.overlay filedConfig) .singlePerformance ⟨0, 0⟩
      filedTree).1.toOption.isSome = true := by
    have hown : (rootedArguments.overlay filedConfig).layout .singlePerformance =
        .ok (exampleLayout .singlePerformance "many") := rfl
    simp only [run, Category.counterpart?]
    rw [processCategory_eq hown]
    -- Coupling is the one part that the kernel cannot run as it is written.
    simp only [exampleLayout, List.mapM_cons, List.mapM_nil, processDataset, alignDataset, alignCpu,
      coupleRows_eq_coupleGreedily]
    decide +kernel
  obtain ⟨summary, hsummary⟩ := Option.isSome_iff_exists.mp hrun
  have hlost : (⟨.singlePerformance, some ⟨"lost.toml"⟩, none, none, none⟩ : Arguments).IsGivenBy
      ["singlePerformance", "--config=lost.toml"] := ofArguments_eq_run_iff.mp (by decide +kernel)
  obtain ⟨hkept, _, hpath, -, hfails⟩ := ((command_refines_run
    ["singlePerformance", "--config=lost.toml"] ⟨0, 0⟩ filedTree).1 _ hlost).2 _ rfl
  cases hpath
  exact ⟨hcode.mpr ⟨summary, eq_ok_of_toOption hsummary⟩, hfiles, hfails, hkept⟩

end Command

end BenchLog
