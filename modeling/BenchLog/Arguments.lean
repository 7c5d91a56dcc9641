/-
# Command line arguments

The category is the only argument without a name; the others are named and have
a value, either after an equals sign or as the next argument. After two dashes
no argument is a name. A value is looked at when the next known argument, or the
end, is reached: an unknown argument is found before a bad value in front of it.

Key definitions: `Slot`, `Arguments`, `Request`, `Refusal`, `ArgumentReader`,
`Request.ofArguments`.
Key theorems: `ArgumentReader.settle_of_none`.
-/
import BenchLog.Category
import BenchLog.Chart.Spec
import BenchLog.Config.Basic

namespace BenchLog

/-- What a value on the command line is for. -/
inductive Slot where
  | category
  | config
  | inputRoot
  | outputRoot
  | style
  deriving DecidableEq, Repr

/-- The slot that has a name. -/
def Slot.ofName? (name : String) : Option Slot :=
  if name = "config" then some config
  else if name = "input-root" then some inputRoot
  else if name = "output-root" then some outputRoot
  else if name = "style" then some style
  else none

/-- The arguments of a run. -/
structure Arguments where
  category : Category
  config : Option Path
  inputRoot : Option Path
  outputRoot : Option Path
  style : Option ChartStyle
  deriving DecidableEq, Repr

/-- The choices that the arguments make over a configuration. -/
def Arguments.settings (a : Arguments) : List Config.Setting :=
  (a.inputRoot.map .inputRoot).toList ++ (a.outputRoot.map .outputRoot).toList ++
    (a.style.map .style).toList

/-- What the command line asks for. -/
inductive Request where
  | help
  | version
  | run (arguments : Arguments)
  deriving DecidableEq, Repr

/-- Why a command line is refused. -/
inductive Refusal where
  /-- The arguments do not fit together: one is unknown, missing or repeated. -/
  | misuse
  /-- The value of an argument is missing or bad. -/
  | badValue
  deriving DecidableEq, Repr

/-- What has been read of the command line. -/
structure ArgumentReader where
  category : Option Category
  config : Option Path
  inputRoot : Option Path
  outputRoot : Option Path
  style : Option ChartStyle
  /-- The latest slot, with its value if that has come. -/
  pending : Option (Slot × Option String)
  /-- Whether an argument without a name has come. -/
  hasCategory : Bool
  deriving DecidableEq, Repr

namespace ArgumentReader

/-- Nothing read yet. -/
def empty : ArgumentReader := ⟨none, none, none, none, none, none, false⟩

/-- A path, which must not be empty. -/
def path? (value : String) : Option Path :=
  if value.isEmpty then none else some ⟨value⟩

/-- Fills a slot that may be filled once. -/
def fill (old : Option α) (new : Option α) : Except Refusal (Option α) :=
  match old, new with
  | some _, _ => .error .misuse
  | none, none => .error .badValue
  | none, some a => .ok (some a)

/-- Puts a value into its slot. -/
def store (r : ArgumentReader) (slot : Slot) (value : String) : Except Refusal ArgumentReader := do
  match slot with
  | .category => return { r with category := ← fill r.category (Category.ofName? false value) }
  | .config => return { r with config := ← fill r.config (path? value) }
  | .inputRoot => return { r with inputRoot := ← fill r.inputRoot (path? value) }
  | .outputRoot => return { r with outputRoot := ← fill r.outputRoot (path? value) }
  | .style => return { r with style := ← fill r.style (ChartStyle.ofName? false value) }

/-- Looks at the value that is pending. -/
def settle (r : ArgumentReader) : Except Refusal ArgumentReader :=
  match r.pending with
  | none => .ok r
  | some (_, none) => .error .badValue
  | some (slot, some value) => store { r with pending := none } slot value

theorem settle_of_none {r : ArgumentReader} (h : r.pending = none) : r.settle = .ok r := by
  simp [settle, h]

/-- Takes an argument without a name. There is one. -/
def takeUnnamed (r : ArgumentReader) (argument : String) : Except Refusal ArgumentReader := do
  if r.hasCategory then
    throw .misuse
  else
    let r ← r.settle
    return { r with pending := some (.category, some argument), hasCategory := true }

/-- What is asked for when all arguments are read. -/
def finish (r : ArgumentReader) : Except Refusal Request := do
  let r ← r.settle
  match r.category with
  | none => throw .misuse
  | some category => return .run ⟨category, r.config, r.inputRoot, r.outputRoot, r.style⟩

/-- The name after two dashes and the value after an equals sign. -/
def longName? (argument : String) : Option (String × Option String) :=
  match argument.toList with
  | '-' :: '-' :: cs =>
    match cs.dropWhile (· ≠ '=') with
    | [] => some (String.ofList cs, none)
    | _ :: value => some (String.ofList (cs.takeWhile (· ≠ '=')), some (String.ofList value))
  | _ => none

/-- The letter after one dash. -/
def shortName? (argument : String) : Option Char :=
  match argument.toList with
  | '-' :: c :: _ => some c
  | _ => none

/-- The text that a long name asks for. -/
def longRequest? (name : String) : Option Request :=
  if name = "help" then some .help
  else if name = "version" then some .version
  else none

/-- The text that a letter asks for. -/
def shortRequest? (letter : Char) : Option Request :=
  if letter = 'h' then some .help
  else if letter = 'V' then some .version
  else none

/-- Reads arguments; after two dashes, `isOpen` is false. -/
def read (r : ArgumentReader) (isOpen : Bool) : List String → Except Refusal Request
  | [] => r.finish
  | argument :: rest =>
    if !isOpen then do
      read (← r.takeUnnamed argument) false rest
    else if argument = "--" then
      read r false rest
    else
      match longName? argument, shortName? argument with
      | some (name, value), _ =>
        match longRequest? name, Slot.ofName? name, value with
        | some request, _, none => do
          let _ ← r.settle
          return request
        | some _, _, some _ => throw .misuse
        | none, none, _ => throw .misuse
        | none, some slot, some value => do
          read (← (← r.settle).store slot value) true rest
        | none, some slot, none => do
          read { ← r.settle with pending := some (slot, none) } true rest
      | none, some letter =>
        match shortRequest? letter with
        | some request => do
          let _ ← r.settle
          return request
        | none => throw .misuse
      | none, none =>
        match r.pending with
        | some (slot, none) => read { r with pending := some (slot, some argument) } true rest
        | _ => do read (← r.takeUnnamed argument) true rest

end ArgumentReader

/-- What the arguments of a command line ask for. -/
def Request.ofArguments (arguments : List String) : Except Refusal Request :=
  ArgumentReader.empty.read true arguments

end BenchLog
