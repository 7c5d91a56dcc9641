/-
# The value of a binary floating-point number

A `Float` is not a number, an infinity, or a signed whole mantissa times a
power of two. `Binary.ofFloat` reads the three cases off the 64 bits; all exact
work on a float starts from here.

Key definitions: `Binary`, `Binary.ofFloat`, `Binary.leastExponent`.
-/
namespace BenchLog.Number

/-- The value of a float. -/
inductive Binary where
  | notANumber
  | infinite (negative : Bool)
  /-- `mantissa * 2 ^ exponent`, negated if `negative`. -/
  | finite (negative : Bool) (mantissa : Nat) (exponent : Int)
  deriving DecidableEq, Repr

namespace Binary

/-- The exponent of the finest floats, those next to zero. -/
def leastExponent : Int := -1074

/-- The least mantissa of a float that is not next to zero. -/
def fullMantissa : Nat := Nat.pow 2 52

/-- The value that the bits of a float stand for: one bit of sign, eleven of
exponent and fifty-two of mantissa, whose leading bit is left out unless the
exponent is the least. -/
def ofFloat (x : Float) : Binary :=
  let bits := x.toBits.toNat
  let negative := bits / Nat.pow 2 63 == 1
  let exponent : Nat := bits / Nat.pow 2 52 % Nat.pow 2 11
  let fraction := bits % Nat.pow 2 52
  if exponent = 2047 then
    if fraction = 0 then .infinite negative else .notANumber
  else if exponent = 0 then
    .finite negative fraction leastExponent
  else
    .finite negative (fullMantissa + fraction) ((exponent : Int) + leastExponent - 1)

end Binary
end BenchLog.Number
