/-
# Configurations as documents

A document may leave out any part of a configuration, and what it does not know
is ignored. A layout is a table, or an array of its parts in order; a choice is
a string, or a table whose only key it is.

Key definitions: `Config.ofDocument?`, `Config.ofToml`, `Config.load`.
-/
import BenchLog.Config.Basic
import BenchLog.Files.Task
import BenchLog.Toml.Document

namespace BenchLog.Config

open Toml (Node Entries)

/-- The entry of a name. -/
def node? (entries : Entries) (name : String) : Option Node :=
  entries.lookup name.toList

/-- The text of a string. -/
def text? : Node → Option String
  | .string cs => some (String.ofList cs)
  | _ => none

/-- Whether a node has nothing in it. -/
def isEmptyNode : Node → Bool
  | .table _ [] => true
  | .array [] => true
  | .tables [] => true
  | _ => false

/-- The name of a choice. -/
def choice? : Node → Option String
  | .string cs => some (String.ofList cs)
  | .table _ [(key, node)] => if isEmptyNode node then some (String.ofList key) else none
  | _ => none

/-- The parts of a record: those of a table by name, those of an array by
place. A part may be missing. -/
def parts? (names : List String) : Node → Option (List (Option Node))
  | .table _ entries => some (names.map (node? entries))
  | .array items => some ((List.range names.length).map (items[·]?))
  | .tables items => some ((List.range names.length).map (items[·]?))
  | _ => none

/-- An optional part that has to be good if it is there. -/
def optional (read : Node → Option α) : Option Node → Option (Option α)
  | none => some none
  | some node => (read node).map some

/-- The layout of a dataset. -/
def dataset? (node : Node) : Option DatasetLayout := do
  match ← parts? ["name", "log_prefix", "time_prefix"] node with
  | [some name, some logPrefix, timePrefix] =>
    some ⟨← text? name, ← text? logPrefix, ← optional text? timePrefix⟩
  | _ => none

/-- The layout of a category. -/
def categoryLayout? (node : Node) : Option CategoryLayout := do
  match ← parts? ["category", "folder", "datasets"] node with
  | [some category, some folder, some datasets] =>
    some
      { category := ← Category.ofName? false (← choice? category)
        folder := ← text? folder
        datasets := ← (← datasets.items?).mapM dataset? }
  | _ => none

/-- The configuration that a document describes. -/
def ofDocument? (entries : Entries) : Option Config := do
  let inputRoot ← optional text? (node? entries "input_root")
  let outputRoot ← optional text? (node? entries "output_root")
  let style ← optional (fun node => do ChartStyle.ofName? false (← choice? node))
    (node? entries "style")
  let categories ← optional (fun node => do (← node.items?).mapM categoryLayout?)
    (node? entries "categories")
  some
    { inputRoot := (inputRoot.map Path.mk).getD default.inputRoot
      outputRoot := (outputRoot.map Path.mk).getD default.outputRoot
      style := style.getD default.style
      categories := categories.getD default.categories }

/-- The configuration of a text, checked. -/
def ofToml (text : List Char) : Except Error Config :=
  match (Toml.parse text).bind ofDocument? with
  | none => .error (.config .malformed)
  | some c => c.checked

/-- The configuration in a file. -/
def load (path : Path) : FileTask Config := do
  let text ← FileTask.readText path
  FileTask.ofExcept (ofToml text)

end BenchLog.Config
