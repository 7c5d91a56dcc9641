/-
# The markers of repetitions

A repetition writes a line when it starts and one when it ends:
`Start of repetition 3: …`. Three spellings of the word are in use, and the
case of letters does not matter. A marker stands at the beginning of a word.
What is scanned is kept as written; it counts only if it can be converted, and
a number outside ASCII or above thirty-two bits cannot.

Key definitions: `Side`, `Marker`, `Marker.scan`, `Marker.side?`,
`Marker.repetition?`.
-/
import BenchLog.Number.Reading
import BenchLog.Text.Scan

namespace BenchLog

/-- Which side of a repetition a line marks. -/
inductive Side where
  | start
  | finish
  deriving DecidableEq, Repr

/-- A marker as written: its first word and the number of the repetition. -/
structure Marker where
  keyword : List Char
  number : List Char
  deriving DecidableEq, Repr

namespace Marker

/-- The first word of a marker as written, and the rest. -/
def keyword? (cs : List Char) : Option (List Char × List Char) :=
  match Text.literalFold "start" cs with
  | some rest => some (cs.take 5, rest)
  | none => (Text.literalFold "end" cs).map fun rest => (cs.take 3, rest)

/-- What follows one of the spellings of the word. -/
def spelling? (cs : List Char) : Option (List Char) :=
  ["repetition", "repitition", "repition"].findSome? fun word => Text.literalFold word cs

/-- Whether a word can begin after the character. -/
def isWordEdge (before : Option Char) : Bool :=
  !before.any Text.isWordCharacter

/-- A marker at the front of the text, and the rest. -/
def scan (before : Option Char) (cs : List Char) : Option (Marker × List Char) := do
  guard (isWordEdge before)
  let (keyword, rest) ← keyword? cs
  let rest ← Text.literalFold " of " rest
  let rest ← spelling? rest
  let rest ← Text.literal " " rest
  let (number, rest) ← Text.digits rest
  let rest ← Text.literal ":" rest
  some (⟨keyword, number⟩, rest)

/-- The side that the first word names. -/
def side? (m : Marker) : Option Side :=
  let word := String.ofList (m.keyword.map Char.toLower)
  if word = "start" then some .start
  else if word = "end" then some .finish
  else none

/-- The repetition that the number names. -/
def repetition? (m : Marker) : Option UInt32 :=
  Number.word? m.number

end Marker
end BenchLog
