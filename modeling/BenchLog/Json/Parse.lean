/-
# Reading JSON

Blanks are spaces, tabs and line ends. A character beyond the basic plane may
be written as two units of sixteen bits; a unit of such a pair without the other
makes a text that cannot be used.

Key definitions: `JsonValue.joinUnits`, `JsonValue.stringRest`,
`JsonValue.numberLiteral`, `JsonValue.value`, `JsonValue.parse?`.
-/
import BenchLog.Json.Value
import BenchLog.Number.Reading

namespace BenchLog.JsonValue

/-! ### Texts -/

/-- A part of a written text: a character, or a unit given by its number. -/
inductive TextPart where
  | char (c : Char)
  | unit (n : Nat)
  deriving DecidableEq, Repr

/-- Whether a unit is the first half of a pair. -/
def isFirstHalf (n : Nat) : Bool := 0xD800 ≤ n && n < 0xDC00

/-- Whether a unit is the second half of a pair. -/
def isSecondHalf (n : Nat) : Bool := 0xDC00 ≤ n && n < 0xE000

/-- The characters of the parts, if no half is alone. -/
def joinUnits : List TextPart → Option (List Char)
  | [] => some []
  | .char c :: parts => (joinUnits parts).map (c :: ·)
  | .unit n :: .unit m :: parts =>
    if isFirstHalf n then
      if isSecondHalf m then
        (joinUnits parts).map (Char.ofNat (0x10000 + (n - 0xD800) * 0x400 + (m - 0xDC00)) :: ·)
      else
        none
    else if isSecondHalf n then none
    else (joinUnits (.unit m :: parts)).map (Char.ofNat n :: ·)
  | .unit n :: parts =>
    if isFirstHalf n || isSecondHalf n then none else (joinUnits parts).map (Char.ofNat n :: ·)

/-- The unit of four digits. -/
def unit? (a b c d : Char) : Option TextPart := do
  let digits ← [a, b, c, d].mapM Number.hexDigit?
  some (.unit (digits.foldl (fun n d => n * 16 + d) 0))

/-- The character that a letter after a backslash stands for. -/
def unescape? : Char → Option Char
  | '"' => some '"'
  | '\\' => some '\\'
  | '/' => some '/'
  | 'b' => some '\x08'
  | 'f' => some '\x0C'
  | 'n' => some '\n'
  | 'r' => some '\r'
  | 't' => some '\t'
  | _ => none

/-- The parts of a text up to its quote; what is read has the latest part first. -/
def stringRest (read : List TextPart) : List Char → Option (List TextPart × List Char)
  | [] => none
  | '"' :: cs => some (read.reverse, cs)
  | '\\' :: 'u' :: a :: b :: c :: d :: cs => do stringRest ((← unit? a b c d) :: read) cs
  | '\\' :: c :: cs => do stringRest (.char (← unescape? c) :: read) cs
  | c :: cs =>
    if c = '\\' ∨ c.toNat < 0x20 then none else stringRest (.char c :: read) cs

/-! ### Numbers -/

/-- Digits at the front of the text, at least one. -/
def digits? (cs : List Char) : Option (List Char × List Char) :=
  match cs.takeWhile Char.isDigit with
  | [] => none
  | ds => some (ds, cs.dropWhile Char.isDigit)

/-- The digits of a whole number: a zero stands alone. -/
def whole? : List Char → Option (List Char × List Char)
  | '0' :: cs => if cs.head?.any Char.isDigit then none else some (['0'], cs)
  | cs => digits? cs

/-- A point with digits, if there is one. -/
def fraction? : List Char → Option (List Char × List Char)
  | '.' :: cs => (digits? cs).map fun (ds, rest) => ('.' :: ds, rest)
  | cs => some ([], cs)

/-- An exponent, if there is one. -/
def exponent? : List Char → Option (List Char × List Char)
  | c :: cs =>
    if c = 'e' ∨ c = 'E' then
      match cs with
      | '+' :: cs => (digits? cs).map fun (ds, rest) => ('e' :: '+' :: ds, rest)
      | '-' :: cs => (digits? cs).map fun (ds, rest) => ('e' :: '-' :: ds, rest)
      | cs => (digits? cs).map fun (ds, rest) => ('e' :: ds, rest)
    else
      some ([], c :: cs)
  | [] => some ([], [])

/-- A number at the front of the text. -/
def numberLiteral (cs : List Char) : Option (List Char × List Char) := do
  let (sign, cs) := if cs.head? = some '-' then (['-'], cs.tail) else ([], cs)
  let (whole, rest) ← whole? cs
  let (fraction, rest) ← fraction? rest
  let (exponent, rest) ← exponent? rest
  some (sign ++ whole ++ fraction ++ exponent, rest)

/-! ### Values -/

/-- The text after blanks. -/
def skipBlanks (cs : List Char) : List Char :=
  cs.dropWhile fun c => c == ' ' || c == '\t' || c == '\n' || c == '\r'

/-- What follows a word. -/
def afterWord? : List Char → List Char → Option (List Char)
  | [], cs => some cs
  | w :: ws, c :: cs => if w = c then afterWord? ws cs else none
  | _ :: _, [] => none

mutual

/-- A value at the front of the text. `fuel` bounds the number of steps. -/
def value : Nat → List Char → Option (JsonValue × List Char)
  | 0, _ => none
  | fuel + 1, cs =>
    match skipBlanks cs with
    | 'n' :: rest => (afterWord? ['u', 'l', 'l'] rest).map (null, ·)
    | 't' :: rest => (afterWord? ['r', 'u', 'e'] rest).map (boolean true, ·)
    | 'f' :: rest => (afterWord? ['a', 'l', 's', 'e'] rest).map (boolean false, ·)
    | '"' :: rest => (stringRest [] rest).map fun (parts, rest) => (string (joinUnits parts), rest)
    | '[' :: rest =>
      match skipBlanks rest with
      | ']' :: rest => some (array [], rest)
      | rest => (items fuel rest).map fun (vs, rest) => (array vs, rest)
    | '\x7b' :: rest =>
      match skipBlanks rest with
      | '\x7d' :: rest => some (object [], rest)
      | rest => (members fuel rest).map fun (vs, rest) => (object vs, rest)
    | rest => (numberLiteral rest).map fun (literal, rest) => (number literal, rest)

/-- The items of an array up to its bracket. -/
def items : Nat → List Char → Option (List JsonValue × List Char)
  | 0, _ => none
  | fuel + 1, cs => do
    let (v, rest) ← value fuel cs
    match skipBlanks rest with
    | ',' :: rest => do
      let (vs, rest) ← items fuel rest
      some (v :: vs, rest)
    | ']' :: rest => some ([v], rest)
    | _ => none

/-- The members of an object up to its brace. -/
def members : Nat → List Char → Option (List (Option (List Char) × JsonValue) × List Char)
  | 0, _ => none
  | fuel + 1, cs =>
    match skipBlanks cs with
    | '"' :: rest => do
      let (name, rest) ← stringRest [] rest
      match skipBlanks rest with
      | ':' :: rest => do
        let (v, rest) ← value fuel rest
        match skipBlanks rest with
        | ',' :: rest => do
          let (vs, rest) ← members fuel rest
          some ((joinUnits name, v) :: vs, rest)
        | '\x7d' :: rest => some ([(joinUnits name, v)], rest)
        | _ => none
      | _ => none
    | _ => none

end

/-- The value that is the whole text. -/
def parse? (cs : List Char) : Option JsonValue := do
  let (v, rest) ← value (2 * cs.length + 2) cs
  if (skipBlanks rest).isEmpty then some v else none

end BenchLog.JsonValue
