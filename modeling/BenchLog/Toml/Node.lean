/-
# Documents as trees

A document is a table of named nodes. How a table was written decides whether
later lines may add to it: a table with a header or between braces is complete,
one that is only named on the way to another is not.

Key definitions: `Toml.TableForm`, `Toml.Node`, `Toml.Node.fields?`,
`Toml.Node.items?`.
-/
namespace BenchLog.Toml

/-- The name of a node. -/
abbrev Key := List Char

/-- How a table came to be. -/
inductive TableForm where
  /-- It has a header of its own. -/
  | header
  /-- It is named on the way in a header. -/
  | implicit
  /-- It is named on the way in the key of a line. -/
  | dotted
  /-- It is written between braces. -/
  | inline
  deriving DecidableEq, Repr

/-- A part of a document. -/
inductive Node where
  | string (text : List Char)
  | integer (n : Int)
  | float (x : Float)
  | boolean (b : Bool)
  /-- A date, a time or both, as written. -/
  | dateTime (text : List Char)
  | array (items : List Node)
  | table (form : TableForm) (entries : List (Key × Node))
  /-- Tables under repeated headers in double brackets. -/
  | tables (items : List Node)

namespace Node

/-- The entries of a table of any form. -/
def fields? : Node → Option (List (Key × Node))
  | table _ entries => some entries
  | _ => none

/-- The items of an array of any form. -/
def items? : Node → Option (List Node)
  | array items => some items
  | tables items => some items
  | _ => none

end Node
end BenchLog.Toml
