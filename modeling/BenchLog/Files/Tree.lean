/-
# A tree of files

All that a task reads or writes is one value: a list of what was put where,
the latest entry first. The entry that counts for a place is the first one, so
what a task has written is the front of the list. A place is named by its steps
from the root, the last step first.

Key definitions: `Content`, `FileNode`, `FileTree`, `FileTree.find?`,
`FileTree.locate`, `FileTree.read`, `FileTree.write`,
`FileTree.makeDirectories`.
Key theorems: `FileTree.find?_put`, `FileTree.find?_put_of_ne`.
-/
import BenchLog.Chart.Spec
import BenchLog.Files.Failure
import BenchLog.Files.Path

namespace BenchLog

/-- What a file holds. -/
inductive Content where
  | text (cs : List Char)
  | chart (drawing : Drawing)
  /-- Bytes that are no text. -/
  | bytes (data : List UInt8)

/-- What stands at a place. -/
inductive FileNode where
  | directory
  | file (content : Content)

/-- A place by its steps from the root, the last one first. -/
abbrev Location := List String

/-- Files and directories, and where relative paths start. -/
structure FileTree where
  workingDirectory : Location
  entries : List (Location × FileNode)

namespace FileTree

/-- What stands at a place. The root is always there. -/
def find? (t : FileTree) (place : Location) : Option FileNode :=
  if place = [] then some .directory else t.entries.lookup place

/-- The tree with something new at a place. -/
def put (t : FileTree) (place : Location) (node : FileNode) : FileTree :=
  { t with entries := (place, node) :: t.entries }

theorem find?_put {t : FileTree} {place : Location} {node : FileNode} (h : place ≠ []) :
    (t.put place node).find? place = some node := by
  simp [find?, put, h]

theorem find?_put_of_ne {t : FileTree} {place other : Location} {node : FileNode}
    (h : other ≠ place) : (t.put place node).find? other = t.find? other := by
  have : (other == place) = false := by simpa using h
  simp [find?, put, List.lookup_cons, this]

/-! ### Following paths -/

/-- The place that steps lead to. Every step is taken in a directory. -/
def walk (t : FileTree) : List String → Location → Except FileFailure Location
  | [], place => .ok place
  | step :: steps, place =>
    match t.find? place with
    | none => .error .missing
    | some (.file _) => .error .notDirectory
    | some .directory => t.walk steps (if step = ".." then place.tail else step :: place)

/-- The place that a route leads to; nothing has to be there. -/
def follow (t : FileTree) (r : Route) : Except FileFailure Location :=
  t.walk r.steps.reverse (if r.isRooted then [] else t.workingDirectory)

/-- The place that a path leads to. The empty path leads nowhere. -/
def locate (t : FileTree) (p : Path) : Except FileFailure Location :=
  if p.text = "" then .error .missing else t.follow p.route

/-- Whether a route leads to a directory. -/
def isDirectory (t : FileTree) (r : Route) : Bool :=
  match (t.follow r).map t.find? with
  | .ok (some .directory) => true
  | _ => false

/-- Whether there is something at a path. Only a directory can be named with a
slash at the end. -/
def contains (t : FileTree) (p : Path) : Bool :=
  match t.locate p with
  | .error _ => false
  | .ok place =>
    match t.find? place with
    | none => false
    | some .directory => true
    | some (.file _) => p.ending == .step

/-! ### Reading and writing -/

/-- The content of a file. -/
def read (t : FileTree) (p : Path) : Except FileFailure Content := do
  match t.find? (← t.locate p) with
  | none => .error .missing
  | some .directory => .error .isDirectory
  | some (.file content) => if p.ending = .step then .ok content else .error .notDirectory

/-- The text of a file. -/
def readText (t : FileTree) (p : Path) : Except FileFailure (List Char) := do
  match ← t.read p with
  | .text cs => .ok cs
  | _ => .error .notText

/-- The tree with a file written whole. Its directory has to be there. -/
def write (t : FileTree) (p : Path) (content : Content) : Except FileFailure FileTree := do
  let place ← t.locate p
  match t.find? place, p.ending with
  | some .directory, _ => .error .isDirectory
  | _, .slash => .error .isDirectory
  | none, .dot => .error .missing
  | some (.file _), .dot => .error .notDirectory
  | _, .step => .ok (t.put place (.file content))

/-- The tree with a new directory. -/
def makeDirectory (t : FileTree) (r : Route) : Except FileFailure FileTree := do
  let place ← t.follow r
  match t.find? place with
  | some _ => .error .alreadyThere
  | none => .ok (t.put place .directory)

/-- Makes the directory of a route, and if one on the way is missing, that one
first. A directory that is there already is as good as a new one. What has been
made stays when a later step fails. -/
def makeDirectories (isRooted : Bool) :
    List String → FileTree → Except FileFailure Unit × FileTree
  | [], t => (.ok (), t)
  | step :: steps, t =>
    let route : Route := ⟨isRooted, step :: steps⟩
    let make (t : FileTree) : Except FileFailure Unit × FileTree :=
      match t.makeDirectory route with
      | .ok t => (.ok (), t)
      | .error e => (if t.isDirectory route then .ok () else .error e, t)
    match t.makeDirectory route with
    | .error .missing =>
      match makeDirectories isRooted steps t with
      | (.ok (), t) => make t
      | failed => failed
    | _ => make t

end FileTree
end BenchLog
