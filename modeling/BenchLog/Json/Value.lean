/-
# JSON values

A number is kept as it is written. A text is missing if it names half of a
character only: such a text cannot be used, but it does no harm where nobody
asks for it.

Key definitions: `JsonValue`, `JsonValue.ofText`, `JsonValue.ofNat`,
`JsonValue.ofFloat`, `JsonValue.pretty`.
-/
import BenchLog.Number.Notation

namespace BenchLog

/-- A value of JSON. -/
inductive JsonValue where
  | null
  | boolean (b : Bool)
  | number (literal : List Char)
  | string (text : Option (List Char))
  | array (items : List JsonValue)
  | object (members : List (Option (List Char) × JsonValue))

namespace JsonValue

/-- Floats as numbers: as in cells, with a sign in front of positive exponents. -/
def floatStyle : Number.Style := ⟨-4, 16, true, .even⟩

/-- A text as a value. -/
def ofText (s : String) : JsonValue := .string (some s.toList)

/-- A natural number as a value. -/
def ofNat (n : Nat) : JsonValue := .number (Number.natDigits n)

/-- A float as a value. Only finite ones are numbers. -/
def ofFloat (x : Float) : JsonValue :=
  if x.isFinite then .number (floatStyle.float x) else .null

/-- An object with the members in order. -/
def ofMembers (members : List (String × JsonValue)) : JsonValue :=
  .object (members.map fun (name, v) => (some name.toList, v))

/-! ### Writing -/

/-- A character of a written text. -/
def escape (c : Char) : List Char :=
  match c with
  | '"' => ['\\', '"']
  | '\\' => ['\\', '\\']
  | '\x08' => ['\\', 'b']
  | '\x0C' => ['\\', 'f']
  | '\n' => ['\\', 'n']
  | '\r' => ['\\', 'r']
  | '\t' => ['\\', 't']
  | _ =>
    if c.toNat < 0x20 then
      let digits := Nat.toDigits 16 c.toNat
      ['\\', 'u'] ++ List.replicate (4 - digits.length) '0' ++ digits
    else
      [c]

/-- A text as it is written. -/
def quoted (cs : List Char) : List Char :=
  '"' :: (cs.flatMap escape ++ ['"'])

/-- A new line, indented by two spaces a level. -/
def newLine (level : Nat) : List Char :=
  '\n' :: List.replicate (2 * level) ' '

mutual

/-- A value with every item and member on a line of its own, at a level of indentation. -/
def pretty (level : Nat) : JsonValue → List Char
  | null => ['n', 'u', 'l', 'l']
  | boolean b => if b then ['t', 'r', 'u', 'e'] else ['f', 'a', 'l', 's', 'e']
  | number literal => literal
  | string text => quoted (text.getD [])
  | array [] => ['[', ']']
  | array (item :: items) =>
    '[' :: (newLine (level + 1) ++ pretty (level + 1) item ++ prettyItems (level + 1) items ++
      newLine level ++ [']'])
  | object [] => ['\x7b', '\x7d']
  | object ((name, v) :: members) =>
    '\x7b' :: (newLine (level + 1) ++ quoted (name.getD []) ++ [':', ' '] ++ pretty (level + 1) v ++
      prettyMembers (level + 1) members ++ newLine level ++ ['\x7d'])

/-- The items after the first. -/
def prettyItems (level : Nat) : List JsonValue → List Char
  | [] => []
  | item :: items => ',' :: (newLine level ++ pretty level item ++ prettyItems level items)

/-- The members after the first. -/
def prettyMembers (level : Nat) : List (Option (List Char) × JsonValue) → List Char
  | [] => []
  | (name, v) :: members =>
    ',' :: (newLine level ++ quoted (name.getD []) ++ [':', ' '] ++ pretty level v ++
      prettyMembers level members)

end

end JsonValue
end BenchLog
