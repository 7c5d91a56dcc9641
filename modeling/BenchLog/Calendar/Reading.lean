/-
# Reading instants

An instant is read from a date and a time of day with an offset from universal
time, `2024-12-08T19:50:08.5+01:00`. Blanks may stand around the numbers, the
numbers may lack leading zeros, and only nine digits of a fraction count. The
offset is taken off.

Key definitions: `Instant.ofText?`.
-/
import BenchLog.Calendar.Instant
import BenchLog.Number.Reading
import BenchLog.Text.Classes

namespace BenchLog.Instant

/-- A number of at most so many digits after blanks, and the rest. -/
def number? (most : Nat) (cs : List Char) : Option (Nat × List Char) :=
  let cs := Text.trimStart cs
  match (cs.take most).takeWhile Char.isDigit with
  | [] => none
  | ds => some (Number.natOf ds, cs.drop ds.length)

/-- A year: four digits at most, or any number of them after a sign. -/
def year? (cs : List Char) : Option (Int × List Char) :=
  match Text.trimStart cs with
  | '-' :: ds =>
    match ds.takeWhile Char.isDigit with
    | [] => none
    | year => some (-(Number.natOf year : Int), ds.dropWhile Char.isDigit)
  | '+' :: ds =>
    match ds.takeWhile Char.isDigit with
    | [] => none
    | year => some (Number.natOf year, ds.dropWhile Char.isDigit)
  | cs => (number? 4 cs).map fun (year, rest) => (year, rest)

/-- What follows a mark, with blanks in front of it. -/
def mark? (c : Char) (cs : List Char) : Option (List Char) :=
  match Text.trimStart cs with
  | d :: rest => if d = c then some rest else none
  | [] => none

/-- The nanoseconds of a fraction, if there is one, and the rest. -/
def fraction? : List Char → Option (Nat × List Char)
  | '.' :: cs =>
    match cs.takeWhile Char.isDigit with
    | [] => none
    | ds =>
      let counted := ds.take 9
      some (Number.natOf counted * Nat.pow 10 (9 - counted.length), cs.dropWhile Char.isDigit)
  | cs => some (0, cs)

/-- The sign of an offset, and the rest. -/
def offsetSign? : List Char → Option (Bool × List Char)
  | '+' :: cs => some (false, cs)
  | '-' :: cs => some (true, cs)
  | '\u2212' :: cs => some (true, cs)
  | _ => none

/-- The two digits of a number. -/
def twoDigits? : List Char → Option (Nat × List Char)
  | a :: b :: cs => if a.isDigit && b.isDigit then some (Number.natOf [a, b], cs) else none
  | _ => none

/-- An offset in seconds, of hours and minutes with blanks or colons between
them, and the rest. Universal time itself has letters. -/
def offset? (cs : List Char) : Option (Int × List Char) :=
  match cs with
  | 'Z' :: rest => some (0, rest)
  | 'z' :: rest => some (0, rest)
  | _ =>
    if (cs.take 3).map Char.toLower = ['u', 't', 'c'] then
      some (0, cs.drop 3)
    else do
      let (negative, rest) ← offsetSign? cs
      let (hours, rest) ← twoDigits? rest
      let (minutes, rest) ← twoDigits? (rest.dropWhile fun c => c == ':' || Text.isBlank c)
      guard (hours < 24 ∧ minutes < 60)
      let seconds : Int := hours * 3600 + minutes * 60
      some (if negative then -seconds else seconds, rest)

/-- The first and the last year that instants are counted in. -/
def hasYear (d : Date) : Bool := -262143 ≤ d.year && d.year ≤ 262142

/-- The instant that is the whole text. -/
def ofText? (cs : List Char) : Option Instant := do
  let (year, rest) ← year? cs
  let (month, rest) ← number? 2 (← mark? '-' rest)
  let (day, rest) ← number? 2 (← mark? '-' rest)
  let rest ←
    match rest with
    | c :: rest => if c = 'T' ∨ c = 't' ∨ c = ' ' then some rest else none
    | [] => none
  let (hour, rest) ← number? 2 rest
  let (minute, rest) ← number? 2 (← mark? ':' rest)
  let (second, rest) ← number? 2 (← mark? ':' rest)
  let (nanos, rest) ← fraction? rest
  let (offset, rest) ← offset? (Text.trimStart rest)
  let m : Moment := ⟨⟨year, month, day⟩, hour, minute, second⟩
  let i : Instant := ⟨m.number - offset, m.leap * billion + nanos⟩
  guard (Text.isBlankText rest ∧ m.IsValid ∧ hasYear m.date ∧ hasYear i.moment.date)
  some i

end BenchLog.Instant
