/-
# The numbers of JSON

A count is a literal of digits below two to the sixty-fourth. A float is read
in one step from sixty-four bits of digits: digits beyond are dropped, and the
digits are multiplied or divided once by a power of ten. The result may differ
from the nearest float in its last bit. A number beyond all floats is no float.

Key definitions: `JsonValue.count?`, `JsonValue.scaled?`, `JsonValue.float?`.
-/
import BenchLog.Json.Parse

namespace BenchLog.JsonValue

/-- The number of a literal without sign, point and exponent. -/
def count? : JsonValue → Option Nat
  | number literal => Number.natBelow? UInt64.size literal
  | _ => none

/-- Appends digits to a number while sixty-four bits suffice, and gives the
number of digits left over. -/
def collect (n : Nat) : List Char → Nat × Nat
  | [] => (n, 0)
  | d :: ds =>
    let m := n * 10 + (d.toNat - '0'.toNat)
    if m < UInt64.size then collect m ds else (n, ds.length + 1)

/-- A power of ten. -/
def tenTo (exponent : Nat) : Float := Float.ofScientific 1 false exponent

/-- The number of the digits times a power of ten. A power without a float of
its own is taken in two steps. -/
def scaled? (digits : Nat) (exponent : Int) : Option Float :=
  let x := Float.ofNat digits
  if 0 ≤ exponent then
    if exponent ≤ 308 then
      let y := x * tenTo exponent.toNat
      if y.isInf then none else some y
    else if digits = 0 then some x
    else none
  else if -308 ≤ exponent then some (x / tenTo exponent.natAbs)
  else if -616 ≤ exponent then some (x / tenTo 308 / tenTo (exponent.natAbs - 308))
  else some 0

/-- The exponent at the end of a literal. -/
def exponentOf : List Char → Int
  | 'e' :: '-' :: ds => -(Number.natOf ds : Int)
  | 'e' :: '+' :: ds => Number.natOf ds
  | 'e' :: ds => Number.natOf ds
  | _ => 0

/-- The float of a literal without its sign. -/
def magnitude? (literal : List Char) : Option Float :=
  let whole := literal.takeWhile Char.isDigit
  let rest := literal.dropWhile Char.isDigit
  let (fraction, tail) :=
    match rest with
    | '.' :: rest => (rest.takeWhile Char.isDigit, rest.dropWhile Char.isDigit)
    | rest => ([], rest)
  let (n, dropped) := collect 0 whole
  let (n, left) := collect n fraction
  scaled? n (exponentOf tail + dropped - (fraction.length - left : Nat))

/-- The float of a number. -/
def float? : JsonValue → Option Float
  | number ('-' :: literal) => (magnitude? literal).map fun x => -x
  | number literal => magnitude? literal
  | _ => none

end BenchLog.JsonValue
