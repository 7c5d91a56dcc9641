/-
# Texts quoted in messages

A message shows a text between double quotes. The quote, the backslash and the
usual controls have escapes of two characters; every other character that
cannot be seen on a line is written by its code point, `\u{a0}`.

Key definitions: `quoteChar`, `quote`.
-/
import BenchLog.Text.Ranges
import BenchLog.Text.HiddenCharacters

namespace BenchLog.Text

/-- Whether a character has no shape of its own on a line. -/
def isHidden (c : Char) : Bool :=
  c.toNat < 0x20 || c.toNat == 0x7F || (0x80 ≤ c.toNat && hiddenCharacters.mem c)

/-- A character of a quoted text. -/
def quoteChar (c : Char) : List Char :=
  match c with
  | '\x00' => ['\\', '0']
  | '\t' => ['\\', 't']
  | '\r' => ['\\', 'r']
  | '\n' => ['\\', 'n']
  | '\\' => ['\\', '\\']
  | '"' => ['\\', '"']
  | _ => if isHidden c then ['\\', 'u', '\x7b'] ++ Nat.toDigits 16 c.toNat ++ ['\x7d'] else [c]

/-- The text between double quotes, as messages show it. -/
def quote (cs : List Char) : List Char :=
  '"' :: (cs.flatMap quoteChar ++ ['"'])

end BenchLog.Text
