/-
# Reading cells

The kind of a written cell is seen from its form alone; a column has the kind
that all its filled cells fit. A cell that has the form of a kind may still be
no value of it, as the thirtieth of February is no date, or a number in digits
outside ASCII no number.

Key definitions: `Cell.kind`, `Cell.columnKind`, `Cell.boolean?`,
`Cell.int64?`, `Cell.date?`, `Cell.instant?`.
-/
import BenchLog.Calendar.Instant
import BenchLog.Number.Reading
import BenchLog.Text.Scan

namespace BenchLog.Cell

/-! ### Forms -/

/-- What follows a minus sign, or all of the text. -/
def dropMinus : List Char → List Char
  | '-' :: cs => cs
  | cs => cs

/-- Whether the text is one of the words for a truth value, in any case. -/
def hasBooleanForm (cs : List Char) : Bool :=
  Text.literalFold "true" cs == some [] || Text.literalFold "false" cs == some []

/-- Whether the text is a whole number. -/
def hasIntegerForm (cs : List Char) : Bool :=
  let ds := dropMinus cs
  !ds.isEmpty && ds.all Text.isDecimalDigit

/-- Whether the text is an exponent with its letter. -/
def isExponent : List Char → Bool
  | c :: cs =>
    let ds := (Number.sign cs).2
    (c == 'e' || c == 'E') && !ds.isEmpty && ds.all Text.isDecimalDigit
  | [] => false

/-- Whether the text is a number with a point or an exponent. -/
def hasDecimalForm (cs : List Char) : Bool :=
  let cs := dropMinus cs
  let whole := cs.takeWhile Text.isDecimalDigit
  match cs.dropWhile Text.isDecimalDigit with
  | '.' :: rest =>
    let fraction := rest.takeWhile Text.isDecimalDigit
    let tail := rest.dropWhile Text.isDecimalDigit
    !(whole.isEmpty && fraction.isEmpty) && (tail.isEmpty || isExponent tail)
  | tail => !whole.isEmpty && isExponent tail

/-- The digits of a date, and the rest. -/
def scanDate (cs : List Char) : Option ((List Char × List Char × List Char) × List Char) := do
  let (year, rest) ← Text.fixedDigits 4 cs
  let (month, rest) ← Text.fixedDigits 2 (← Text.literal "-" rest)
  let (day, rest) ← Text.fixedDigits 2 (← Text.literal "-" rest)
  some ((year, month, day), rest)

/-- The digits of a time of day, and the rest. -/
def scanTime (cs : List Char) : Option ((List Char × List Char × List Char) × List Char) := do
  let (hour, rest) ← Text.fixedDigits 2 cs
  let (minute, rest) ← Text.fixedDigits 2 (← Text.literal ":" rest)
  let (second, rest) ← Text.fixedDigits 2 (← Text.literal ":" rest)
  some ((hour, minute, second), rest)

/-- What follows a date in a timestamp. -/
def dropSeparator : List Char → Option (List Char)
  | 'T' :: cs => some cs
  | ' ' :: cs => some cs
  | _ => none

/-- Whether a timestamp may end in the text: in one line, not with a digit first. -/
def isTail : List Char → Bool
  | [] => true
  | c :: cs => !Text.isDecimalDigit c && !cs.contains '\n'

/-- How fine a timestamp is by the text after its seconds. -/
def unitOfTail? : List Char → Option TimeUnit
  | '.' :: cs =>
    let places := (cs.takeWhile Text.isDecimalDigit).length
    if isTail (cs.dropWhile Text.isDecimalDigit) then
      if places = 0 then none
      else if places ≤ 3 then some .millisecond
      else if places ≤ 6 then some .microsecond
      else if places ≤ 9 then some .nanosecond
      else none
    else
      none
  | tail => if isTail tail then some .second else none

/-- The kind of a date or a timestamp. -/
def temporalKind? (cs : List Char) : Option Kind := do
  let (_, rest) ← scanDate cs
  if rest.isEmpty then
    some .date32
  else
    let (_, tail) ← scanTime (← dropSeparator rest)
    (unitOfTail? tail).map .timestamp

/-- A whole number of sixty-four bits with a sign. -/
def int64? (cs : List Char) : Option Int := do
  let (negative, ds) := Number.sign cs
  let n ← Number.natBelow? (if negative then Nat.pow 2 63 + 1 else Nat.pow 2 63) ds
  some (if negative then -n else n)

/-- The words for floats that have no decimal, as cells show them. -/
def isFloatWord (cs : List Char) : Bool :=
  ["NaN", "nan", "inf", "-inf"].contains (String.ofList cs)

/-- The kind of a filled cell by its form. A whole number of nineteen bytes or
more is a text unless it has sixty-four bits. -/
def kind (cs : List Char) : Kind :=
  if hasBooleanForm cs then .boolean
  else if hasIntegerForm cs then
    if 19 ≤ (String.ofList cs).utf8ByteSize ∧ int64? cs = none then .text else .int64
  else if hasDecimalForm cs then .float64
  else match temporalKind? cs with
    | some kind => kind
    | none => if isFloatWord cs then .float64 else .text

/-- Whether a kind is that of dates or timestamps. -/
def isTemporal : Kind → Bool
  | .date32 | .timestamp _ => true
  | _ => false

/-- The finest unit among kinds of dates and timestamps. -/
def finest (kinds : List Kind) : Kind :=
  let units : List TimeUnit := [.nanosecond, .microsecond, .millisecond, .second]
  match units.find? fun u => kinds.contains (.timestamp u) with
  | some u => .timestamp u
  | none => .date32

/-- The kind of a column by the kinds of its filled cells. -/
def columnKind (kinds : List Kind) : Kind :=
  if kinds.isEmpty then .null
  else if kinds.all (· == .boolean) then .boolean
  else if kinds.all (· == .int64) then .int64
  else if kinds.all Kind.isNumeric then .float64
  else if kinds.all isTemporal then finest kinds
  else .text

/-! ### Values -/

/-- A truth value, in any case of ASCII letters. -/
def boolean? (cs : List Char) : Option Bool :=
  let word := cs.map Char.toLower
  if word = ['t', 'r', 'u', 'e'] then some true
  else if word = ['f', 'a', 'l', 's', 'e'] then some false
  else none

/-- The date of its digits. -/
def dateOfDigits? (ds : List Char × List Char × List Char) : Option Date := do
  let number := Number.natBelow? 10000
  let d : Date := ⟨← number ds.1, ← number ds.2.1, ← number ds.2.2⟩
  if d.IsValid then some d else none

/-- A date that is the whole text. -/
def date? (cs : List Char) : Option Date := do
  let (ds, rest) ← scanDate cs
  if rest.isEmpty then dateOfDigits? ds else none

/-- The nanoseconds of a fraction, of which nine digits count. -/
def nanosOfDigits? (ds : List Char) : Option Nat := do
  let digits := ds.take 9
  let n ← Number.natBelow? billion digits
  some (n * Nat.pow 10 (9 - digits.length))

/-- The offset in seconds that is written as hours, or hours and minutes. -/
def offset? (cs : List Char) : Option Int := do
  let (negative, ds) ←
    match cs with
    | '+' :: ds => some (false, ds)
    | '-' :: ds => some (true, ds)
    | _ => none
  let digits ←
    match ds with
    | [a, b, ':', c, d] => some [a, b, c, d]
    | [a, b, c, d] => some [a, b, c, d]
    | [a, b] => some [a, b, '0', '0']
    | _ => none
  let n ← Number.natBelow? 10000 digits
  let seconds := n / 100 * 3600 + n % 100 * 60
  if seconds < 86400 then some (if negative then -seconds else seconds) else none

/-- The offset that a timestamp ends with; nothing stands for none. -/
def tailOffset? (cs : List Char) : Option Int :=
  if cs = [] ∨ cs = ['Z'] ∨ cs = ['z'] then some 0
  else offset? (Text.trimStart cs)

/-- A date, which stands for its midnight, or a timestamp. -/
def instant? (cs : List Char) : Option Instant := do
  let (ds, rest) ← scanDate cs
  let date ← dateOfDigits? ds
  if rest.isEmpty then
    some ⟨date.dayNumber * 86400, 0⟩
  else
    let (ts, rest) ← scanTime (← dropSeparator rest)
    let number := Number.natBelow? 100
    let m : Moment := ⟨date, ← number ts.1, ← number ts.2.1, ← number ts.2.2⟩
    let (nanos, tail) ←
      match rest with
      | '.' :: rest => do
        let nanos ← nanosOfDigits? (rest.takeWhile Char.isDigit)
        some (nanos, rest.dropWhile Char.isDigit)
      | _ => some (0, rest)
    let offset ← tailOffset? tail
    if m.IsValid then some ⟨m.number - offset, m.leap * billion + nanos⟩ else none

/-- The number of units of a timestamp. Nanoseconds have to fit sixty-four bits. -/
def timestamp? (unit : TimeUnit) (cs : List Char) : Option Int := do
  let n := (← instant? cs).count unit
  if unit = .nanosecond ∧ (n < -Nat.pow 2 63 ∨ Nat.pow 2 63 ≤ n) then none else some n

end BenchLog.Cell
