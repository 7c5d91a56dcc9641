/-
# The character classes of the log grammars

Blanks, decimal digits and word characters, each for the whole of Unicode: the
ASCII part is written out, the rest is a table. A text is trimmed of blanks,
and a text that is all blanks counts as empty.

Key definitions: `isBlank`, `isDecimalDigit`, `isWordCharacter`, `sameLetter`,
`trim`.
Key theorems: `isDecimalDigit_of_isDigit`.
-/
import BenchLog.Text.Ranges
import BenchLog.Text.DecimalDigits
import BenchLog.Text.WordCharacters

namespace BenchLog.Text

/-! ### Classes -/

/-- The blanks outside ASCII. -/
def wideBlanks : Ranges :=
  [(0x85, 0x85), (0xA0, 0xA0), (0x1680, 0x1680), (0x2000, 0x200A), (0x2028, 0x2029),
   (0x202F, 0x202F), (0x205F, 0x205F), (0x3000, 0x3000)]

/-- A blank is a character of the property White_Space. -/
def isBlank (c : Char) : Bool :=
  c == ' ' || (0x09 ≤ c.toNat && c.toNat ≤ 0x0D) || wideBlanks.mem c

/-- A decimal digit of any script. Only the ASCII digits can be read as
numbers, see `Number.digitValue?`. -/
def isDecimalDigit (c : Char) : Bool :=
  c.isDigit || (0x80 ≤ c.toNat && decimalDigits.mem c)

/-- A character that belongs to a word: a letter, a mark, a digit or a
connector such as the underscore. -/
def isWordCharacter (c : Char) : Bool :=
  c.isAlphanum || c == '_' || (0x80 ≤ c.toNat && wordCharacters.mem c)

/-- The lower-case ASCII letter that a character stands for when case does not
matter, or the character itself. Two characters outside ASCII fold to a letter
inside it: the long s and the Kelvin sign. -/
def foldLetter (c : Char) : Char :=
  if c = '\u017F' then 's' else if c = '\u212A' then 'k' else c.toLower

/-- Whether two characters are equal up to the case of ASCII letters. -/
def sameLetter (a b : Char) : Bool :=
  foldLetter a == foldLetter b

theorem isDecimalDigit_of_isDigit {c : Char} (h : c.isDigit = true) : isDecimalDigit c = true := by
  simp [isDecimalDigit, h]

/-! ### Trimming -/

/-- The text without the blanks at its front. -/
def trimStart (cs : List Char) : List Char :=
  cs.dropWhile isBlank

/-- The text without the blanks at its ends. -/
def trim (cs : List Char) : List Char :=
  (trimStart (trimStart cs).reverse).reverse

/-- Whether the text has no character but blanks. -/
def isBlankText (cs : List Char) : Bool :=
  cs.all isBlank

end BenchLog.Text
