/-
# Summaries as JSON

A summary is an object with its fields in a fixed order, and the statistics of
columns in the order of their names. Reading takes fields in any order, once
each, and ignores other members; an array of the fields in order does as well.

Key definitions: `RunSummary.toJson`, `RunSummary.text`, `RunSummary.ofJson?`,
`RunSummary.ofText`, `RunSummary.save`.
-/
import BenchLog.Calendar.Reading
import BenchLog.Files.Task
import BenchLog.Json.Number
import BenchLog.Summary.Run

namespace BenchLog

open JsonValue (ofText ofNat ofFloat ofMembers)

/-! ### Writing -/

/-- The statistics of a column as an object. -/
def ColumnStats.toJson (s : ColumnStats) : JsonValue :=
  ofMembers
    [("count", ofNat s.count), ("min", ofFloat s.least), ("mean", ofFloat s.mean),
     ("max", ofFloat s.greatest)]

/-- The summary of a dataset as an object. -/
def DatasetSummary.toJson (s : DatasetSummary) : JsonValue :=
  ofMembers
    [("dataset", ofText s.dataset), ("source", ofText s.source),
     ("ram_pairs", ofNat s.ramPairs), ("ram_dropped_ends", ofNat s.ramDroppedEnds),
     ("ram_unmatched_starts", ofNat s.ramUnmatchedStarts), ("cpu_blocks", ofNat s.cpuBlocks),
     ("cpu_rows", ofNat s.cpuRows), ("execution_times", ofNat s.executionTimes),
     ("columns", ofMembers (s.columns.entries.map fun (name, stats) => (name, stats.toJson)))]

/-- The summary of a run as an object. -/
def RunSummary.toJson (s : RunSummary) : JsonValue :=
  ofMembers
    [("category", ofText s.category.name),
     ("generated_at", .string (some (s.generatedAt.text ++ ['Z']))),
     ("datasets", .array (s.datasets.map DatasetSummary.toJson)),
     ("outputs", .array (s.outputs.map fun p => ofText p.text))]

/-- The summary of a run as text. -/
def RunSummary.text (s : RunSummary) : List Char :=
  s.toJson.pretty 0

/-- Writes the summary to a file. -/
def RunSummary.save (s : RunSummary) (p : Path) : FileTask Unit :=
  FileTask.save p (.text s.text)

/-! ### Reading -/

namespace JsonValue

/-- The text of a value. -/
def text? : JsonValue → Option String
  | string (some cs) => some (String.ofList cs)
  | _ => none

/-- The items of an array. -/
def items? : JsonValue → Option (List JsonValue)
  | array items => some items
  | _ => none

/-- The value of the only member of a name. -/
def only? (members : List (List Char × JsonValue)) (name : String) : Option JsonValue :=
  match members.filter (·.1 == name.toList) with
  | [(_, v)] => some v
  | _ => none

/-- Members with usable names. -/
def named? (members : List (Option (List Char) × JsonValue)) :
    Option (List (List Char × JsonValue)) :=
  members.mapM fun (name, v) => name.map (·, v)

/-- The values of the fields of a record: members by name, or items by place. -/
def fields? (names : List String) : JsonValue → Option (List JsonValue)
  | object members => do names.mapM (only? (← named? members))
  | array items => if items.length = names.length then some items else none
  | _ => none

/-- The name of a choice: a text, or the only member of an object without a value. -/
def choice? : JsonValue → Option String
  | string (some cs) => some (String.ofList cs)
  | object [(some name, null)] => some (String.ofList name)
  | _ => none

end JsonValue

/-- The statistics in a value. -/
def ColumnStats.ofJson? (v : JsonValue) : Option ColumnStats := do
  match ← v.fields? ["count", "min", "mean", "max"] with
  | [count, least, mean, greatest] =>
    some ⟨← count.count?, ← least.float?, ← mean.float?, ← greatest.float?⟩
  | _ => none

/-- The statistics of columns by name; of equal names the last one counts. -/
def columnsOfJson? : JsonValue → Option (Dictionary ColumnStats)
  | .object members => do
    (← JsonValue.named? members).foldlM
      (fun d (name, v) => do some (d.insert (String.ofList name) (← ColumnStats.ofJson? v)))
      .empty
  | _ => none

/-- The summary of a dataset in a value. -/
def DatasetSummary.ofJson? (v : JsonValue) : Option DatasetSummary := do
  match ← v.fields? ["dataset", "source", "ram_pairs", "ram_dropped_ends", "ram_unmatched_starts",
      "cpu_blocks", "cpu_rows", "execution_times", "columns"] with
  | [dataset, source, pairs, dropped, unmatched, blocks, rows, times, columns] =>
    some ⟨← dataset.text?, ← source.text?,
      ← pairs.count?, ← dropped.count?, ← unmatched.count?,
      ← blocks.count?, ← rows.count?, ← times.count?, ← columnsOfJson? columns⟩
  | _ => none

/-- The summary of a run in a value. -/
def RunSummary.ofJson? (v : JsonValue) : Option RunSummary := do
  match ← v.fields? ["category", "generated_at", "datasets", "outputs"] with
  | [category, generatedAt, datasets, outputs] =>
    some
      { category := ← Category.ofName? false (← category.choice?)
        generatedAt := ← Instant.ofText? (← generatedAt.text?).toList
        datasets := ← (← datasets.items?).mapM DatasetSummary.ofJson?
        outputs := ← (← outputs.items?).mapM fun p => p.text?.map Path.mk }
  | _ => none

/-- The summary that a text describes. -/
def RunSummary.ofText (cs : List Char) : Except Error RunSummary :=
  match (JsonValue.parse? cs).bind RunSummary.ofJson? with
  | some s => .ok s
  | none => .error .malformedSummary

end BenchLog
