/-
# Durations

A duration is a sequence of components, each a decimal with a unit after it:
`1m2.5s`. A text is cut into components wherever a digit or a point follows
another character; it is a duration if each component has a number and a known
unit.

Key definitions: `Duration.components`, `Duration.factor?`,
`Duration.milliseconds`.
Key theorems: `Duration.components_join`.
-/
import BenchLog.Error
import BenchLog.Number.Reading

namespace BenchLog.Duration

/-- Whether a character belongs to the number of a component. -/
def isNumeral (c : Char) : Bool :=
  c.isDigit || c == '.'

/-- The text cut into components: a run of digits and points, and the run of
other characters after it. -/
def components : List Char → List (List Char × List Char)
  | [] => []
  | c :: cs =>
    if isNumeral c then
      match components cs with
      | (number, unit) :: rest => (c :: number, unit) :: rest
      | [] => [([c], [])]
    else
      match components cs with
      | ([], unit) :: rest => ([], c :: unit) :: rest
      | rest => ([], [c]) :: rest

/-- The milliseconds in a unit. -/
def factor? (unit : List Char) : Option Float :=
  match unit with
  | ['h'] => some 3600000
  | ['m'] => some 60000
  | ['s'] => some 1000
  | ['m', 's'] => some 1
  | ['u', 's'] | ['\u00B5', 's'] | ['\u03BC', 's'] => some 1e-3
  | ['n', 's'] => some 1e-6
  | _ => none

/-- The milliseconds that a component stands for. -/
def component? (number unit : List Char) : Option Float := do
  let value ← Number.numeral? number
  let factor ← factor? unit
  some (value.value * factor)

/-- The milliseconds in a list of components, added from the left. -/
def sum? (parts : List (List Char × List Char)) : Option Float :=
  parts.foldlM (fun total part => (component? part.1 part.2).map (total + ·)) 0

/-- The milliseconds of a duration; blanks around it do not matter. -/
def milliseconds (text : List Char) : Except Error Float :=
  let text := Text.trim text
  match components text with
  | [] => .error (.malformedDuration text)
  | parts =>
    match sum? parts with
    | some total => .ok total
    | none => .error (.malformedDuration text)

/-- Cutting loses nothing. -/
theorem components_join (cs : List Char) :
    (components cs).flatMap (fun part => part.1 ++ part.2) = cs := by
  fun_induction components cs <;> simp_all

end BenchLog.Duration
