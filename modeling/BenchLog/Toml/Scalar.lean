/-
# Numbers, dates and truth values in documents

A value that is no string, array or table is a word. Digits may be grouped by
single underscores; whole numbers have sixty-four bits and no leading zeros.

Key definitions: `Toml.integer?`, `Toml.float?`, `Toml.isDateTime`,
`Toml.scalar`.
-/
import BenchLog.Calendar.Moment
import BenchLog.Toml.Lexeme

namespace BenchLog.Toml

/-- The digits of a group, without the single underscores between them. -/
def ungrouped? (p : Char → Bool) : List Char → Option (List Char)
  | [] => none
  | c :: cs =>
    if p c then
      match cs with
      | [] => some [c]
      | '_' :: rest => (ungrouped? p rest).map (c :: ·)
      | d :: rest => (ungrouped? p (d :: rest)).map (c :: ·)
    else
      none

/-- The digits of a whole number: grouped, and without leading zeros. -/
def wholeDigits? (cs : List Char) : Option (List Char) :=
  match ungrouped? Char.isDigit cs with
  | some ('0' :: _ :: _) => none
  | digits => digits

/-- A whole number in a base, below two to the sixty-third. -/
def baseNumber? (base : Nat) (cs : List Char) : Option Int := do
  let isDigit (c : Char) : Bool := (Number.hexDigit? c).any (· < base)
  let digits ← (← ungrouped? isDigit cs).mapM Number.hexDigit?
  let n := digits.foldl (fun n d => n * base + d) 0
  if n < Nat.pow 2 63 then some n else none

/-- A whole number that is the word. -/
def integer? : List Char → Option Int
  | '0' :: 'x' :: cs => baseNumber? 16 cs
  | '0' :: 'o' :: cs => baseNumber? 8 cs
  | '0' :: 'b' :: cs => baseNumber? 2 cs
  | cs => do
    let (negative, cs) := Number.sign cs
    let n := Number.natOf (← wholeDigits? cs)
    if n < Nat.pow 2 63 then some (if negative then -n else n)
    else if negative ∧ n = Nat.pow 2 63 then some (-n)
    else none

/-- The digits of an exponent with its letter and sign, without underscores. -/
def exponentText? : List Char → Option (List Char)
  | [] => some []
  | c :: cs =>
    if c = 'e' ∨ c = 'E' then
      let (negative, ds) := Number.sign cs
      (ungrouped? Char.isDigit ds).map fun ds => 'e' :: (if negative then '-' :: ds else ds)
    else
      none

/-- Whether a character can stand in the digits of a number. -/
def isGroupCharacter (c : Char) : Bool := c.isDigit || c == '_'

/-- The text of a number with a point or an exponent, without underscores. -/
def floatText? (cs : List Char) : Option (List Char) := do
  let whole ← wholeDigits? (cs.takeWhile isGroupCharacter)
  match cs.dropWhile isGroupCharacter with
  | '.' :: rest =>
    let fraction ← ungrouped? Char.isDigit (rest.takeWhile isGroupCharacter)
    let exponent ← exponentText? (rest.dropWhile isGroupCharacter)
    some (whole ++ '.' :: (fraction ++ exponent))
  | [] => none
  | rest => do some (whole ++ (← exponentText? rest))

/-- A float that is the word. None is so large that only positive infinity is near. -/
def float? (cs : List Char) : Option Float := do
  let (negative, cs) := Number.sign cs
  if cs = ['i', 'n', 'f'] then
    some (Number.signed negative (1 / 0))
  else if cs = ['n', 'a', 'n'] then
    some (Number.signed negative (0 / 0))
  else
    let x := Number.signed negative (← Number.float? (← floatText? cs))
    if x == 1 / 0 then none else some x

/-- A number of exactly so many digits, and the rest. -/
def fixedNumber? (count : Nat) (cs : List Char) : Option (Nat × List Char) := do
  let digits := cs.take count
  guard (digits.length = count)
  let n ← Number.natBelow? (Nat.pow 10 count) digits
  some (n, cs.drop count)

/-- What follows a character. -/
def after? (c : Char) : List Char → Option (List Char)
  | d :: cs => if d = c then some cs else none
  | [] => none

/-- A date at the front of the word. -/
def date? (cs : List Char) : Option (Date × List Char) := do
  let (year, rest) ← fixedNumber? 4 cs
  let (month, rest) ← fixedNumber? 2 (← after? '-' rest)
  let (day, rest) ← fixedNumber? 2 (← after? '-' rest)
  let d : Date := ⟨year, month, day⟩
  if d.IsValid then some (d, rest) else none

/-- What follows a time of day at the front of the word. -/
def afterTime? (cs : List Char) : Option (List Char) := do
  let (hour, rest) ← fixedNumber? 2 cs
  let (minute, rest) ← fixedNumber? 2 (← after? ':' rest)
  let (second, rest) ← fixedNumber? 2 (← after? ':' rest)
  guard (hour ≤ 23 ∧ minute ≤ 59 ∧ second ≤ 60)
  match rest with
  | '.' :: rest =>
    guard (rest.head?.any Char.isDigit)
    some (rest.dropWhile Char.isDigit)
  | rest => some rest

/-- Whether the word is an offset from universal time. -/
def isOffset : List Char → Bool
  | ['Z'] => true
  | ['z'] => true
  | c :: cs =>
    (c == '+' || c == '-') &&
      match fixedNumber? 2 cs with
      | some (hour, ':' :: rest) =>
        match fixedNumber? 2 rest with
        | some (minute, []) => hour ≤ 23 && minute ≤ 59
        | _ => false
      | _ => false
  | [] => false

/-- Whether the word is a date, a time, or a date with a time after `T`, a space
or nothing. -/
def isDateTime (cs : List Char) : Bool :=
  match date? cs with
  | some (_, []) => true
  | some (_, c :: rest) =>
    (c == 'T' || c == 't' || c == ' ') &&
      match afterTime? rest with
      | some tail => tail.isEmpty || isOffset tail
      | none => false
  | none => afterTime? cs == some []

/-- A character of a word. -/
def isWordCharacter (c : Char) : Bool :=
  c.isAlphanum || c == '_' || c == '+' || c == '-' || c == '.' || c == ':'

/-- A word at the front of the text; a date takes a time after one space with it. -/
def word (cs : List Char) : List Char × List Char :=
  let first := cs.takeWhile isWordCharacter
  match date? first, cs.dropWhile isWordCharacter with
  | some (_, []), ' ' :: d :: rest =>
    if d.isDigit then
      (first ++ ' ' :: (d :: rest).takeWhile isWordCharacter, (d :: rest).dropWhile isWordCharacter)
    else
      (first, ' ' :: d :: rest)
  | _, rest => (first, rest)

/-- The value of a word. -/
def wordValue? (cs : List Char) : Option Node :=
  if cs = ['t', 'r', 'u', 'e'] then some (.boolean true)
  else if cs = ['f', 'a', 'l', 's', 'e'] then some (.boolean false)
  else if isDateTime cs then some (.dateTime cs)
  else
    match integer? cs with
    | some n => some (.integer n)
    | none => (float? cs).map .float

/-- A word with a value at the front of the text. -/
def scalar (cs : List Char) : Option (Node × List Char) := do
  let (w, rest) := word cs
  some (← wordValue? w, rest)

end BenchLog.Toml
