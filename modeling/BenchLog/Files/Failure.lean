/-
# Why a file cannot be used

Key definitions: `FileFailure`, `FileFailure.message`.
-/
namespace BenchLog

/-- The causes for which opening, reading or making a file fails. -/
inductive FileFailure where
  /-- The file, or a directory on the way to it, is missing. -/
  | missing
  /-- A directory of that name would be made, but there is something already. -/
  | alreadyThere
  /-- A step of the way leads into something that is no directory. -/
  | notDirectory
  /-- The path leads to a directory where a file is needed. -/
  | isDirectory
  /-- The file does not hold text. -/
  | notText
  deriving DecidableEq, Repr

/-- The wording of a failure. -/
def FileFailure.message : FileFailure → String
  | missing => "No such file or directory (os error 2)"
  | alreadyThere => "File exists (os error 17)"
  | notDirectory => "Not a directory (os error 20)"
  | isDirectory => "Is a directory (os error 21)"
  | notText => "stream did not contain valid UTF-8"

end BenchLog
