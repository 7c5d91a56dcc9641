/-
# The lexemes of documents

Blanks and comments, keys, strings of the four kinds, and the words that stand
for numbers, dates and truth values. Each reader takes its lexeme off the front
of the text and gives the rest.

Key definitions: `Toml.skipSpace`, `Toml.skipLayout`, `Toml.endOfLine`,
`Toml.KeyPath`, `Toml.keyPath`, `Toml.string`.
-/
import BenchLog.Toml.Node
import BenchLog.Number.Reading

namespace BenchLog.Toml

/-! ### Blanks and comments -/

/-- A space or a tab. -/
def isSpace (c : Char) : Bool := c == ' ' || c == '\t'

/-- A character that may stand in comments and strings. -/
def isVisible (c : Char) : Bool :=
  c == '\t' || (0x20 ≤ c.toNat && c.toNat != 0x7F)

/-- The text after spaces and tabs. -/
def skipSpace (cs : List Char) : List Char := cs.dropWhile isSpace

/-- The text after spaces, line ends and comments; `inComment` tells whether a
comment is open. -/
def skipLayout (inComment : Bool) : List Char → List Char
  | [] => []
  | '\r' :: '\n' :: cs => skipLayout false cs
  | c :: cs =>
    if c = '\n' then skipLayout false cs
    else if inComment then
      if isVisible c then skipLayout true cs else c :: cs
    else if isSpace c then skipLayout false cs
    else if c = '#' then skipLayout true cs
    else c :: cs

/-- What follows the end of the line, in front of which a comment may stand. -/
def endOfLine (cs : List Char) : Option (List Char) :=
  let rest :=
    match skipSpace cs with
    | '#' :: cs => cs.dropWhile isVisible
    | cs => cs
  match rest with
  | [] => some []
  | '\n' :: cs => some cs
  | '\r' :: '\n' :: cs => some cs
  | _ => none

/-! ### Strings -/

/-- The character of a code point in base sixteen. -/
def codePoint? (ds : List Char) : Option Char := do
  let digits ← ds.mapM Number.hexDigit?
  let n := digits.foldl (fun n d => n * 16 + d) 0
  if n.isValidChar then some (Char.ofNat n) else none

/-- The character that a letter after a backslash stands for. -/
def escape? : Char → Option Char
  | 'b' => some '\x08'
  | 't' => some '\t'
  | 'n' => some '\n'
  | 'f' => some '\x0C'
  | 'r' => some '\r'
  | '"' => some '"'
  | '\\' => some '\\'
  | _ => none

/-- The rest of a string between double quotes; what is read has the latest
character first. -/
def basicString (read : List Char) : List Char → Option (List Char × List Char)
  | [] => none
  | '"' :: cs => some (read.reverse, cs)
  | '\\' :: 'u' :: a :: b :: c :: d :: cs => do
    basicString ((← codePoint? [a, b, c, d]) :: read) cs
  | '\\' :: 'U' :: a :: b :: c :: d :: e :: f :: g :: h :: cs => do
    basicString ((← codePoint? [a, b, c, d, e, f, g, h]) :: read) cs
  | '\\' :: c :: cs => do basicString ((← escape? c) :: read) cs
  | c :: cs => if isVisible c && c != '\\' then basicString (c :: read) cs else none

/-- The rest of a string between single quotes. -/
def literalString (read : List Char) : List Char → Option (List Char × List Char)
  | [] => none
  | '\x27' :: cs => some (read.reverse, cs)
  | c :: cs => if isVisible c then literalString (c :: read) cs else none

/-- The end of a string of several lines, of whose three quotes two have been
read beyond the first: up to two more quotes belong to the string. -/
def closeQuotes (quote : Char) (read : List Char) : List Char → List Char × List Char
  | c :: d :: cs =>
    if c = quote then
      if d = quote then ((quote :: quote :: read).reverse, cs)
      else ((quote :: read).reverse, d :: cs)
    else (read.reverse, c :: d :: cs)
  | [c] => if c = quote then ((quote :: read).reverse, []) else (read.reverse, [c])
  | [] => (read.reverse, [])

/-- Whether nothing but blanks stands in front of the next line end. -/
def isBlankToLineEnd (cs : List Char) : Bool :=
  match skipSpace cs with
  | '\n' :: _ => true
  | '\r' :: '\n' :: _ => true
  | _ => false

/-- The rest of a string of several lines between double quotes. After a
backslash at the end of a line, `folding`, blanks and line ends are left out. -/
def basicLines (folding : Bool) (read : List Char) : List Char → Option (List Char × List Char)
  | [] => none
  | '"' :: '"' :: '"' :: cs => some (closeQuotes '"' read cs)
  | '\\' :: 'u' :: a :: b :: c :: d :: cs => do
    basicLines false ((← codePoint? [a, b, c, d]) :: read) cs
  | '\\' :: 'U' :: a :: b :: c :: d :: e :: f :: g :: h :: cs => do
    basicLines false ((← codePoint? [a, b, c, d, e, f, g, h]) :: read) cs
  | '\\' :: c :: cs =>
    if isBlankToLineEnd (c :: cs) then basicLines true read cs
    else do basicLines false ((← escape? c) :: read) cs
  | '\r' :: '\n' :: cs =>
    if folding then basicLines true read cs else basicLines false ('\n' :: read) cs
  | c :: cs =>
    if folding && (isSpace c || c == '\n') then basicLines true read cs
    else if c = '\n' ∨ (isVisible c && c != '\\') then basicLines false (c :: read) cs
    else none

/-- The rest of a string of several lines between single quotes. -/
def literalLines (read : List Char) : List Char → Option (List Char × List Char)
  | [] => none
  | '\x27' :: '\x27' :: '\x27' :: cs => some (closeQuotes '\x27' read cs)
  | '\r' :: '\n' :: cs => literalLines ('\n' :: read) cs
  | c :: cs => if c = '\n' ∨ isVisible c then literalLines (c :: read) cs else none

/-- The text without a line end at its front. -/
def dropLineEnd : List Char → List Char
  | '\n' :: cs => cs
  | '\r' :: '\n' :: cs => cs
  | cs => cs

/-- A string of any kind at the front of the text. -/
def string : List Char → Option (List Char × List Char)
  | '"' :: '"' :: '"' :: cs => basicLines false [] (dropLineEnd cs)
  | '"' :: cs => basicString [] cs
  | '\x27' :: '\x27' :: '\x27' :: cs => literalLines [] (dropLineEnd cs)
  | '\x27' :: cs => literalString [] cs
  | _ => none

/-! ### Keys -/

/-- A character of a key without quotes. -/
def isKeyCharacter (c : Char) : Bool :=
  c.isAlphanum || c == '-' || c == '_'

/-- One part of a key. -/
def keyPart : List Char → Option (Key × List Char)
  | '"' :: cs => basicString [] cs
  | '\x27' :: cs => literalString [] cs
  | cs =>
    match cs.takeWhile isKeyCharacter with
    | [] => none
    | key => some (key, cs.dropWhile isKeyCharacter)

/-- The parts of a key between points, at most so many, with blanks around them. -/
def keyParts : Nat → List Char → Option (List Key × List Char)
  | 0, _ => none
  | count + 1, cs => do
    let (key, rest) ← keyPart (skipSpace cs)
    match skipSpace rest with
    | '.' :: rest => do
      let (keys, rest) ← keyParts count rest
      some (key :: keys, rest)
    | rest => some ([key], rest)

/-- How deep keys and values may be nested. -/
def depthLimit : Nat := 80

/-- A key with its parts. -/
structure KeyPath where
  /-- The tables on the way. -/
  way : List Key
  last : Key

/-- A key at the front of the text. -/
def keyPath (cs : List Char) : Option (KeyPath × List Char) := do
  let (keys, rest) ← keyParts (depthLimit - 1) cs
  let last ← keys.getLast?
  some (⟨keys.dropLast, last⟩, rest)

end BenchLog.Toml
