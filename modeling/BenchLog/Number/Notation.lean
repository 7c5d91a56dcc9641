/-
# How a float is written

A float is written with the digits of the shortest decimal that reads back,
with a point and at least one digit after it, or with an exponent if the point
would stand too far off. Which points are near enough, the sign of the
exponent and the choice between equally near decimals make a `Notation`, one
for each format.

Key definitions: `Style`, `Style.decimal`, `Style.float`, `plain`.
-/
import BenchLog.Number.Shortest

namespace BenchLog.Number

/-- The choices that a format makes in writing floats. The point of
`d₁d₂…dₙ` standing after the first digit is at place one. -/
structure Style where
  /-- The least place of the point that is written without an exponent. -/
  leastPoint : Int
  /-- The greatest place of the point that is written without an exponent. -/
  mostPoint : Int
  /-- Whether a positive exponent has a sign. -/
  plusSign : Bool
  /-- Which of two equally near decimals is written. -/
  tie : Tie

/-- The decimal digits of a number, without leading zeros. -/
def natDigits (n : Nat) : List Char :=
  Nat.toDigits 10 n

/-- A whole number with its sign. -/
def intDigits (n : Int) : List Char :=
  if n < 0 then '-' :: natDigits n.natAbs else natDigits n.natAbs

namespace Style

/-- Digits with the point at a place, or with an exponent. -/
def decimal (style : Style) (d : Decimal) : List Char :=
  let digits := natDigits d.coefficient
  let point : Int := digits.length + d.exponent
  if style.leastPoint ≤ point ∧ point ≤ style.mostPoint then
    if point ≤ 0 then
      ['0', '.'] ++ List.replicate (-point).toNat '0' ++ digits
    else if point < digits.length then
      digits.take point.toNat ++ '.' :: digits.drop point.toNat
    else
      digits ++ List.replicate d.exponent.toNat '0' ++ ['.', '0']
  else
    let mantissa :=
      match digits with
      | d :: e :: rest => d :: '.' :: e :: rest
      | short => short
    let sign := if style.plusSign ∧ 0 < point - 1 then ['+'] else []
    mantissa ++ 'e' :: (sign ++ intDigits (point - 1))

/-- A float in the style; the values that no decimal has are words. -/
def float (style : Style) (x : Float) : List Char :=
  match Binary.ofFloat x with
  | .notANumber => ['N', 'a', 'N']
  | .infinite negative => (if negative then ['-'] else []) ++ ['i', 'n', 'f']
  | .finite negative mantissa exponent =>
    (if negative then ['-'] else []) ++
      if mantissa = 0 then ['0', '.', '0'] else style.decimal (shortest style.tie mantissa exponent)

end Style

/-- The plain style: from a tenth of a thousandth to below ten to the sixteenth
without an exponent. -/
def plain : Style := ⟨-3, 16, false, .up⟩

end BenchLog.Number
