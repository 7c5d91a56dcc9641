/-
# Records of comma-separated fields

A record is a line of fields between commas. A field that holds a comma, a
quote or a line end is written between quotes, and a quote inside it twice; a
record whose text would be empty is written as an empty quoted field, because
readers skip empty lines. A quote inside a field that does not begin with one
is read as it is.

Key definitions: `Csv.field`, `Csv.record`, `Csv.Place`, `Csv.Reader`,
`Csv.Reader.step`, `Csv.records`.
-/
namespace BenchLog.Csv

/-! ### Writing -/

/-- Whether a character makes a field need quotes. -/
def isSpecial (c : Char) : Bool :=
  c == ',' || c == '"' || c == '\n' || c == '\r'

/-- A field as it is written. -/
def field (cs : List Char) : List Char :=
  if cs.any isSpecial then
    '"' :: (cs.flatMap (fun c => if c = '"' then ['"', '"'] else [c]) ++ ['"'])
  else
    cs

/-- A record as it is written, with the end of its line. -/
def record (fields : List (List Char)) : List Char :=
  let line := (fields.map field).intersperse [','] |>.flatten
  (if line.isEmpty then ['"', '"'] else line) ++ ['\n']

/-! ### Reading -/

/-- Where a reader stands. -/
inductive Place where
  /-- In front of a record; line ends are skipped. -/
  | recordStart
  | fieldStart
  /-- In a field without quotes, or behind its quotes. -/
  | plain
  | quoted
  /-- Behind a quote that ends the quoted part, unless another one follows. -/
  | quoteSeen
  deriving DecidableEq, Repr

/-- What has been read. All lists have the latest item first. -/
structure Reader where
  records : List (List (List Char))
  fields : List (List Char)
  current : List Char
  place : Place

namespace Reader

/-- Nothing read. -/
def initial : Reader := ⟨[], [], [], .recordStart⟩

/-- One more character in the field. -/
def push (s : Reader) (c : Char) (place : Place) : Reader :=
  { s with current := c :: s.current, place }

/-- The field is complete. -/
def endField (s : Reader) : Reader :=
  { s with fields := s.current.reverse :: s.fields, current := [], place := .fieldStart }

/-- The record is complete. -/
def endRecord (s : Reader) : Reader :=
  let fields := s.current.reverse :: s.fields
  ⟨fields.reverse :: s.records, [], [], .recordStart⟩

/-- A character outside quotes: an end, or part of the field. -/
def outside (s : Reader) (c : Char) : Reader :=
  if c = ',' then s.endField
  else if c = '\n' ∨ c = '\r' then s.endRecord
  else s.push c .plain

/-- Reading one character. -/
def step (s : Reader) (c : Char) : Reader :=
  match s.place with
  | .recordStart =>
    if c = '\n' ∨ c = '\r' then s
    else if c = '"' then { s with place := .quoted }
    else s.outside c
  | .fieldStart => if c = '"' then { s with place := .quoted } else s.outside c
  | .plain => s.outside c
  | .quoted => if c = '"' then { s with place := .quoteSeen } else s.push c .quoted
  | .quoteSeen => if c = '"' then s.push c .quoted else s.outside c

/-- All records, when the text is over. -/
def finish (s : Reader) : List (List (List Char)) :=
  (if s.place = .recordStart then s else s.endRecord).records.reverse

end Reader

/-- The text without the mark that may stand in front of a text file. -/
def dropMark : List Char → List Char
  | '\uFEFF' :: cs => cs
  | cs => cs

/-- The records of a text. -/
def records (cs : List Char) : List (List (List Char)) :=
  ((dropMark cs).foldl Reader.step .initial).finish

end BenchLog.Csv
