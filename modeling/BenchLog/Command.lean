/-
# The command

The command reads its arguments, loads the configuration they name, lays their
choices over it and runs the category. Its exit status is zero on success, one
if the configuration or the run fails, and two if the arguments are refused.

Key definitions: `Outcome`, `Error.report`, `Arguments.configure`,
`Arguments.process`, `command`.
-/
import BenchLog.Arguments
import BenchLog.Config.Toml
import BenchLog.Report.Run

namespace BenchLog

/-- The name of the program. -/
def programName : String := "perflog"

/-- What the program answers when it is asked for its version. -/
def versionText : String := programName ++ " 0.1.0\n"

/-- How the program is used, in one line. -/
def usageLine : String :=
  s!"Usage: {programName} [OPTIONS] <CATEGORY>\n"

/-- What the program is for. -/
def description : String :=
  "Aligns, merges and plots CPU/RAM/execution-time logs from VPIR benchmark simulations"

/-- What the program answers when it is asked for help: what it is for, how it is used, and
what each argument stands for. -/
def helpText : String :=
  description ++ "\n\n" ++ usageLine ++
    "\nArguments:\n  <CATEGORY>  Category folder to process [possible values: " ++
    ", ".intercalate (Category.all.map Category.name) ++
    "]\n\nOptions:\n" ++
    "      --config <CONFIG>            TOML file overriding the built-in folder layout\n" ++
    "      --input-root <INPUT_ROOT>    Directory containing the category folders\n" ++
    "      --output-root <OUTPUT_ROOT>  Directory receiving CSVs, charts and summary.json\n" ++
    "      --style <STYLE>              Chart style for comparison plots [possible values: " ++
    ", ".intercalate (ChartStyle.all.map ChartStyle.name) ++ "]\n" ++
    "  -h, --help                       Print help\n" ++
    "  -V, --version                    Print version\n"

/-! ### Reporting errors -/

/-- An error and what it comes from, each in its wording. -/
def Error.causes (e : Error) : List String :=
  match e with
  | .file cause path => [e.message, Error.fileDetail cause path]
  | _ => [e.message]

/-- A text with every further line indented. -/
def indented (width : Nat) (text : String) : String :=
  String.ofList (text.toList.flatMap fun c =>
    if c = '\n' then '\n' :: List.replicate width ' ' else [c])

/-- A list of causes, numbered if there are several. -/
def causeLines : List String → String
  | [cause] => "    " ++ indented 4 cause
  | causes =>
    "\n".intercalate (causes.zipIdx.map fun (cause, i) => s!"    {i}: " ++ indented 7 cause)

/-- An error under what was tried when it arose. -/
def Error.report (context : String) (e : Error) : String :=
  s!"Error: {context}\n\nCaused by:\n" ++ causeLines e.causes

/-! ### Running -/

/-- What the program leaves behind apart from files. -/
structure Outcome where
  code : Nat
  /-- What it prints as its result. -/
  output : String
  /-- Whether it shows how it is used. -/
  showsUsage : Bool
  /-- What it says about a failure. -/
  report : Option String
  deriving DecidableEq, Repr

/-- The program has done its work. -/
def Outcome.success (output : String) : Outcome := ⟨0, output, false, none⟩

/-- The program has failed at something. -/
def Outcome.failure (context : String) (e : Error) : Outcome :=
  ⟨1, "", false, some (e.report context)⟩

/-- The arguments are refused. -/
def Outcome.refused : Refusal → Outcome
  | .misuse => ⟨2, "", true, none⟩
  | .badValue => ⟨2, "", false, none⟩

/-- The configuration that the arguments ask for. -/
def Arguments.configure (a : Arguments) : FileTask Config := do
  let config ←
    match a.config with
    | some path => Config.load path
    | none => pure Config.default
  return a.settings.foldl Config.set config

/-- Does what the arguments ask for at an instant. -/
def Arguments.process (a : Arguments) (now : Instant) (files : FileTree) : Outcome × FileTree :=
  match a.configure files with
  | (.error e, files) =>
    let path := a.config.elim "" Path.text
    (.failure s!"failed to load config {path}" e, files)
  | (.ok config, files) =>
    match run config a.category now files with
    | (.error e, files) => (.failure s!"failed to process {a.category.name}" e, files)
    | (.ok _, files) => (.success "", files)

/-- The program: its arguments and the files before it to what it leaves behind. -/
def command (arguments : List String) (now : Instant) (files : FileTree) : Outcome × FileTree :=
  match Request.ofArguments arguments with
  | .error refusal => (.refused refusal, files)
  | .ok .help => (.success helpText, files)
  | .ok .version => (.success versionText, files)
  | .ok (.run a) => a.process now files

end BenchLog
