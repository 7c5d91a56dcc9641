/-
# Paths

A path is kept as it was written: joining and printing use the text. Where it
leads depends on its steps alone; doubled slashes and single dots take no step.

Key definitions: `Path`, `Path.join`, `Route`, `Path.route`, `Path.ending`.
Key theorems: `Path.pieces_append_slash`.
-/
namespace BenchLog

/-- A path as written. -/
structure Path where
  text : String
  deriving DecidableEq, Repr

/-- Where a path leads: from the root or from the working directory, by steps
that are listed from the last to the first. -/
structure Route where
  isRooted : Bool
  steps : List String
  deriving DecidableEq, Repr

/-- How the text of a path ends. -/
inductive PathEnding where
  /-- With the name of a step. -/
  | step
  /-- With a slash. -/
  | slash
  /-- With a single dot. -/
  | dot
  deriving DecidableEq, Repr

namespace Path

/-- Whether the path starts at the root. -/
def isAbsolute (p : Path) : Bool :=
  p.text.toList.head? == some '/'

/-- A path below a directory. An absolute path stands for itself. -/
def join (dir : Path) (below : Path) : Path :=
  if below.isAbsolute then
    below
  else if dir.text.toList = [] ∨ dir.text.toList.getLast? = some '/' then
    ⟨dir.text ++ below.text⟩
  else
    ⟨dir.text ++ "/" ++ below.text⟩

/-- What stands in front of the first slash, and the pieces after it. -/
def split : List Char → List Char × List (List Char)
  | [] => ([], [])
  | c :: cs =>
    let (first, others) := split cs
    if c = '/' then ([], first :: others) else (c :: first, others)

/-- The pieces of a text between slashes. -/
def pieces (cs : List Char) : List (List Char) :=
  (split cs).1 :: (split cs).2

/-- The route of a path. -/
def route (p : Path) : Route where
  isRooted := p.isAbsolute
  steps := ((pieces p.text.toList).filter fun s => s ≠ [] ∧ s ≠ ['.']).reverse.map String.ofList

/-- How the path ends. -/
def ending (p : Path) : PathEnding :=
  match (pieces p.text.toList).getLast? with
  | some [] => .slash
  | some ['.'] => .dot
  | _ => .step

theorem pieces_append_slash (as bs : List Char) :
    pieces (as ++ '/' :: bs) = pieces as ++ pieces bs := by
  induction as with
  | nil => simp [pieces, split]
  | cons a as ih =>
    simp only [pieces, List.cons_append, List.cons.injEq] at ih
    by_cases h : a = '/' <;> simp [pieces, split, h, ih]

end Path

namespace Route

/-- The route to the directory that a route's last step is taken in. -/
def parent? (r : Route) : Option Route :=
  match r.steps with
  | [] => none
  | _ :: steps => some { r with steps }

/-- What follows the last dot of the last step, unless the dot is its first
character or the step leads upwards. -/
def extension? (r : Route) : Option (List Char) :=
  match r.steps with
  | [] => none
  | name :: _ =>
    let letters := name.toList
    if letters = ['.', '.'] then none
    else
      match letters.reverse.span (· ≠ '.') with
      | (after, '.' :: _ :: _) => some after.reverse
      | _ => none

end Route
end BenchLog
