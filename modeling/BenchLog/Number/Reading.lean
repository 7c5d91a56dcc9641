/-
# Reading numbers

Numbers are read from ASCII digits alone; a digit of another script, which the
log grammars let pass, makes a text no number. A natural number has a bound
and is refused from it on. A float is a decimal with an optional exponent,
rounded to the nearest float, or one of the words for the values that no
decimal has.

Key definitions: `natBelow?`, `Numeral`, `Numeral.value`, `float?`.
Key theorems: `natOf_append`, `natBelow?_eq_some_iff`.
-/
import BenchLog.Text.Classes

namespace BenchLog.Number

/-! ### Natural numbers -/

/-- The value of a run of ASCII digits. -/
def natOf (ds : List Char) : Nat :=
  ds.foldl (fun n d => n * 10 + (d.toNat - '0'.toNat)) 0

/-- A non-empty run of ASCII digits with a value below the bound. -/
def natBelow? (bound : Nat) (ds : List Char) : Option Nat :=
  if ds ≠ [] ∧ ds.all Char.isDigit ∧ natOf ds < bound then some (natOf ds) else none

/-- A number of thirty-two bits. -/
def word? (ds : List Char) : Option UInt32 :=
  (natBelow? UInt32.size ds).map UInt32.ofNat

/-- A number of sixty-four bits. -/
def longWord? (ds : List Char) : Option UInt64 :=
  (natBelow? UInt64.size ds).map UInt64.ofNat

/-- The value of a digit of base sixteen. -/
def hexDigit? (c : Char) : Option Nat :=
  if c.isDigit then some (c.toNat - '0'.toNat)
  else if 'a' ≤ c ∧ c ≤ 'f' then some (c.toNat - 'a'.toNat + 10)
  else if 'A' ≤ c ∧ c ≤ 'F' then some (c.toNat - 'A'.toNat + 10)
  else none

theorem natOf_append (ds es : List Char) :
    natOf (ds ++ es) = natOf ds * Nat.pow 10 es.length + natOf es := by
  have key : ∀ (es : List Char) (a : Nat),
      es.foldl (fun n d => n * 10 + (d.toNat - '0'.toNat)) a =
        a * Nat.pow 10 es.length + es.foldl (fun n d => n * 10 + (d.toNat - '0'.toNat)) 0 := by
    intro es
    induction es with
    | nil => simp
    | cons e es ih =>
      intro a
      have hpow : Nat.pow 10 (es.length + 1) = Nat.pow 10 es.length * 10 := rfl
      rw [List.foldl_cons, ih, List.foldl_cons, ih (0 * 10 + (e.toNat - '0'.toNat)),
        List.length_cons, hpow, Nat.zero_mul, Nat.zero_add, Nat.add_mul]
      rw [Nat.mul_assoc, Nat.mul_comm 10, Nat.add_assoc]
  rw [natOf, List.foldl_append]
  exact key es _

theorem natBelow?_eq_some_iff {bound n : Nat} {ds : List Char} :
    natBelow? bound ds = some n ↔
      (ds ≠ [] ∧ ds.all Char.isDigit = true ∧ natOf ds < bound) ∧ natOf ds = n := by
  unfold natBelow?
  split <;> grind

/-! ### Floats -/

/-- A decimal without a sign: digits, digits after the point, and an exponent. -/
structure Numeral where
  whole : List Char
  fraction : List Char
  exponent : Int
  deriving DecidableEq, Repr

/-- The float nearest to a numeral. -/
def Numeral.value (n : Numeral) : Float :=
  let power := n.exponent - n.fraction.length
  Float.ofScientific (natOf (n.whole ++ n.fraction)) (power < 0) power.natAbs

/-- A sign at the front, and the rest. -/
def sign : List Char → Bool × List Char
  | '-' :: cs => (true, cs)
  | '+' :: cs => (false, cs)
  | cs => (false, cs)

/-- The value with a sign. -/
def signed (negative : Bool) (x : Float) : Float :=
  if negative then -x else x

/-- Digits with an optional point, at least one digit in all, and the rest. -/
def pointed? (cs : List Char) : Option (List Char × List Char × List Char) :=
  let whole := cs.takeWhile Char.isDigit
  let (fraction, rest) :=
    match cs.dropWhile Char.isDigit with
    | '.' :: rest => (rest.takeWhile Char.isDigit, rest.dropWhile Char.isDigit)
    | rest => ([], rest)
  if whole.isEmpty && fraction.isEmpty then none else some (whole, fraction, rest)

/-- The exponent that a numeral ends in: none at all, or a letter, a sign and digits. -/
def exponent? : List Char → Option Int
  | [] => some 0
  | c :: cs =>
    if c = 'e' ∨ c = 'E' then
      let (negative, ds) := sign cs
      if ds ≠ [] ∧ ds.all Char.isDigit then
        some (if negative then -(natOf ds : Int) else natOf ds)
      else
        none
    else
      none

/-- A numeral that is the whole text. -/
def numeral? (cs : List Char) : Option Numeral := do
  let (whole, fraction, rest) ← pointed? cs
  let exponent ← exponent? rest
  some ⟨whole, fraction, exponent⟩

/-- The values that are written as words, in any case. -/
def wordValue? (cs : List Char) : Option Float :=
  let word := String.ofList (cs.map Char.toLower)
  if word = "inf" ∨ word = "infinity" then some (1 / 0)
  else if word = "nan" then some (0 / 0)
  else none

/-- A float that is the whole text. -/
def float? (cs : List Char) : Option Float :=
  let (negative, cs) := sign cs
  match wordValue? cs with
  | some x => some (signed negative x)
  | none => (numeral? cs).map fun n => signed negative n.value

end BenchLog.Number
