/-
# Tasks on files

A task reads and writes a tree of files and may fail. The tree as it was left
outlives the failure.

Key definitions: `FileTask`, `FileTask.readText`, `FileTask.save`.
-/
import BenchLog.Error
import BenchLog.Files.Tree

namespace BenchLog

/-- A task with a result or an error, and the tree it leaves. -/
abbrev FileTask := ExceptT Error (StateM FileTree)

namespace FileTask

/-- A task that may fail and changes nothing. -/
def ofExcept (result : Except Error α) : FileTask α :=
  fun t => (result, t)

/-- The text of a file. -/
def readText (p : Path) : FileTask (List Char) :=
  fun t => ((t.readText p).mapError (.file · none), t)

/-- Makes the directory that a path lies in, and those it lies in. -/
def makeParent (p : Path) : FileTask Unit := fun t =>
  match p.route.parent? with
  | none => (.ok (), t)
  | some parent =>
    let (result, t) := FileTree.makeDirectories parent.isRooted parent.steps t
    (result.mapError (.file · none), t)

/-- Writes a file whole. -/
def write (p : Path) (content : Content) : FileTask Unit := fun t =>
  match t.write p content with
  | .ok t => (.ok (), t)
  | .error e => (.error (.file e none), t)

/-- Writes a file whole, in a directory that is made if it is missing. -/
def save (p : Path) (content : Content) : FileTask Unit := do
  makeParent p
  write p content

end FileTask
end BenchLog
