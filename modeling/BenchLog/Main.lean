/-
# The command line program

The program looks at the files that the command may read or write, lets the
command work on them as a value, and carries out what has been written, in
order.

Key definitions: `main`.
-/
import Std.Time.DateTime.Timestamp
import BenchLog.Command
import BenchLog.Picture.Chart

namespace BenchLog

/-! ### What a command looks at -/

/-- The places on the way of a path, from the first step on. -/
def Route.places (r : Route) (workingDirectory : Location) : List Location :=
  let start := if r.isRooted then [] else workingDirectory
  (r.steps.reverse.foldl
    (fun (here, places) step =>
      let next := if step = ".." then here.tail else step :: here
      (next, next :: places))
    (start, [])).2.reverse

/-- The paths that processing a category reads or writes. -/
def Config.paths (c : Config) (category : Category) : List Path :=
  match c.layout category with
  | .error _ => []
  | .ok layout =>
    let input := c.inputRoot.join ⟨layout.folder⟩
    let dir := c.outputRoot.join ⟨layout.folder⟩
    let plots := (c.outputRoot.join ⟨"plots"⟩).join ⟨layout.folder⟩
    let compared := dir.join ⟨"comparison"⟩
    [input.join timelineLog, dir.join ⟨"preprocessing_timeline.csv"⟩,
      plots.join ⟨"preprocessing_timeline.png"⟩, dir.join ⟨"summary.json"⟩] ++
    layout.datasets.flatMap fun d =>
      [d.ramLog input, d.cpuLog input, d.timeLog input, artifact plots d.name "ram.png"] ++
      Metric.all.flatMap fun m =>
        [artifact dir d.name (m.stem ++ ".csv"), artifact compared d.name (m.stem ++ "_merged.csv"),
          artifact plots d.name (m.stem ++ "_comparison.png")]

/-- The paths that the arguments lead to under a configuration. -/
def Arguments.paths (a : Arguments) (c : Config) : List Path :=
  let c := a.settings.foldl Config.set c
  c.paths a.category ++ a.category.counterpart?.elim [] c.paths

/-! ### Files outside -/

/-- What stands at a place outside. -/
def observe (place : Location) : IO (Option FileNode) := do
  let here := (← IO.currentDir) / ("/" ++ "/".intercalate place.reverse)
  if ← here.isDir then
    return some .directory
  else if ← here.pathExists then
    let data ← IO.FS.readBinFile here
    match String.fromUTF8? data with
    | some s => return some (.file (.text s.toList))
    | none => return some (.file (.bytes data.toList))
  else
    return none

/-- The tree with everything on the way of a path. -/
def look (files : FileTree) (p : Path) : IO FileTree :=
  (p.route.places files.workingDirectory).foldlM
    (fun files place => do
      if (files.find? place).isSome then
        return files
      else
        match ← observe place with
        | some node => return files.put place node
        | none => return files)
    files

/-- Puts something at a place outside. -/
def carryOut (place : Location) (node : FileNode) : IO Unit := do
  let here := "/" ++ "/".intercalate place.reverse
  match node with
  | .directory => IO.FS.createDir here
  | .file (.text cs) => IO.FS.writeFile here (String.ofList cs)
  | .file (.bytes data) => IO.FS.writeBinFile here data.toByteArray
  | .file (.chart drawing) => IO.FS.writeBinFile here drawing.file

/-- The tree that a command is given. -/
def gather (arguments : List String) : IO FileTree := do
  let here := (← IO.currentDir).toString
  let workingDirectory := (Path.mk here).route.steps
  let files ← look ⟨workingDirectory, []⟩ ⟨here⟩
  match Request.ofArguments arguments with
  | .ok (.run a) =>
    let files ← a.config.elim (pure files) (look files)
    match (a.configure files).1 with
    | .ok config => (a.paths config).foldlM look files
    | .error _ => return files
  | _ => return files

/-- The present instant. -/
def presentInstant : IO Instant := do
  let now := (← Std.Time.Timestamp.now).val
  return ⟨now.second.val, now.nano.val.toNat⟩

end BenchLog

open BenchLog in
/-- The program. -/
def main (arguments : List String) : IO UInt32 := do
  let files ← gather arguments
  let (outcome, left) := command arguments (← presentInstant) files
  let written := left.entries.take (left.entries.length - files.entries.length)
  for (place, node) in written.reverse do
    carryOut place node
  IO.print outcome.output
  if outcome.code = 2 then
    IO.eprintln "error: the arguments are not valid"
  if outcome.showsUsage then
    IO.eprint usageLine
  match outcome.report with
  | some report => IO.eprintln report
  | none => pure ()
  return outcome.code.toUInt32
