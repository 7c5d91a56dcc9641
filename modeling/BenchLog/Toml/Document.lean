/-
# Reading documents

A document is a list of statements: a header opens a table, a header in double
brackets adds a table to an array, and a line gives a value to a key. The
statements are put together into one tree. A table is written once: a key that
goes on through a table with a header of its own, or a header for a table that
is complete, is refused, and so is everything that names a key twice.

Key definitions: `Toml.Statement`, `Toml.Section`, `Toml.assign`, `Toml.descend`,
`Toml.value`, `Toml.statements`, `Toml.assemble`, `Toml.parse`.
-/
import BenchLog.Toml.Scalar

namespace BenchLog.Toml

/-! ### Putting tables together -/

/-- The entries of a table. -/
abbrev Entries := List (Key × Node)

/-- The entries with a changed node for a key; a new key comes last. -/
def update (key : Key) (change : Option Node → Option Node) : Entries → Option Entries
  | [] => (change none).map fun node => [(key, node)]
  | (other, node) :: rest =>
    if other = key then (change (some node)).map fun node => (other, node) :: rest
    else (update key change rest).map ((other, node) :: ·)

/-- The entries without a key. -/
def remove (key : Key) (entries : Entries) : Entries :=
  entries.filter (·.1 != key)

/-- Changes the table at the end of a path. Missing tables on the way are made
in the given form. A line's key may not go through a table with a header; of an
array of tables the last one is taken. -/
def descend (form : TableForm) (act : TableForm → Entries → Option Entries) :
    List Key → TableForm → Entries → Option Entries
  | [], here, entries => act here entries
  | key :: path, _, entries =>
    let inside := descend form act path
    entries |> update key fun
      | none => (inside form []).map (.table form)
      | some (.table .inline _) => none
      | some (.table here es) =>
        if form = .dotted ∧ here = .header then none else (inside here es).map (.table here)
      | some (.tables items) =>
        match items.getLast? with
        | some (.table here es) =>
          (inside here es).map fun es => .tables (items.dropLast ++ [.table here es])
        | _ => none
      | some _ => none

/-- A value for a key. The table at the end of a key with several parts has to
be one that such keys have made. -/
def assign (key : KeyPath) (node : Node) (form : TableForm) (entries : Entries) :
    Option Entries :=
  descend .dotted
    (fun here es =>
      if (here == .dotted) == key.way.isEmpty then none
      else if es.any (·.1 == key.last) then none
      else some (es ++ [(key.last, node)]))
    key.way form entries

/-- Keys with their values. -/
abbrev Pairs := List (KeyPath × Node)

/-- The values of several keys, in a table of a form. -/
def assignAll (form : TableForm) (pairs : Pairs) (entries : Entries) : Option Entries :=
  pairs.foldlM (fun es (key, node) => assign key node form es) entries

/-! ### Values -/

mutual

/-- A value at the front of the text. `fuel` bounds the number of steps, `depth`
counts the brackets and braces around the value. -/
def value : Nat → Nat → List Char → Option (Node × List Char)
  | 0, _, _ => none
  | fuel + 1, depth, cs =>
    match cs with
    | '[' :: rest => do
      guard (depth + 1 < depthLimit)
      let (items, rest) ← elements fuel (depth + 1) rest
      some (.array items, rest)
    | '{' :: rest => do
      guard (depth + 1 < depthLimit)
      let (pairs, rest) ←
        match skipSpace rest with
        | '}' :: rest => some ([], rest)
        | rest => inlinePairs fuel (depth + 1) rest
      let entries ← assignAll .inline pairs []
      some (.table .inline entries, rest)
    | _ =>
      if cs.head? = some '"' ∨ cs.head? = some '\x27' then
        (string cs).map fun (text, rest) => (.string text, rest)
      else
        scalar cs

/-- The elements of an array up to its bracket. -/
def elements : Nat → Nat → List Char → Option (List Node × List Char)
  | 0, _, _ => none
  | fuel + 1, depth, cs =>
    match skipLayout false cs with
    | ']' :: rest => some ([], rest)
    | cs => do
      let (item, rest) ← value fuel depth cs
      match skipLayout false rest with
      | ',' :: rest => do
        let (items, rest) ← elements fuel depth rest
        some (item :: items, rest)
      | ']' :: rest => some ([item], rest)
      | _ => none

/-- The keys and values of a table up to its brace, all on one line. -/
def inlinePairs : Nat → Nat → List Char → Option (Pairs × List Char)
  | 0, _, _ => none
  | fuel + 1, depth, cs => do
    let (key, rest) ← keyPath cs
    let (node, rest) ← value fuel depth (skipSpace (← after? '=' rest))
    match skipSpace rest with
    | ',' :: rest => do
      let (pairs, rest) ← inlinePairs fuel depth rest
      some ((key, node) :: pairs, rest)
    | '}' :: rest => some ([(key, node)], rest)
    | _ => none

end

/-! ### Statements -/

/-- A statement of a document. -/
inductive Statement where
  | pair (key : KeyPath) (node : Node)
  | header (key : KeyPath)
  /-- A header in double brackets. -/
  | element (key : KeyPath)

/-- A statement at the front of the text, up to the end of its line. -/
def statement (cs : List Char) : Option (Statement × List Char) :=
  match cs with
  | '[' :: '[' :: rest => do
    let (key, rest) ← keyPath rest
    let rest ← endOfLine (← after? ']' (← after? ']' rest))
    some (.element key, rest)
  | '[' :: rest => do
    let (key, rest) ← keyPath rest
    let rest ← endOfLine (← after? ']' rest)
    some (.header key, rest)
  | _ => do
    let (key, rest) ← keyPath cs
    let rest := skipSpace (← after? '=' rest)
    let (node, rest) ← value (2 * rest.length + 2) 0 rest
    some (.pair key node, ← endOfLine rest)

/-- The statements of a text; `fuel` bounds the number of lines. -/
def statements : Nat → List Char → Option (List Statement)
  | 0, _ => none
  | fuel + 1, cs =>
    match skipSpace cs with
    | [] => some []
    | c :: rest =>
      if c = '#' ∨ c = '\n' ∨ c = '\r' then do
        statements fuel (← endOfLine (c :: rest))
      else do
        let (s, rest) ← statement (c :: rest)
        some (s :: (← statements fuel rest))

/-- A header with the pairs below it. -/
structure Section where
  /-- The header stands in double brackets. -/
  isElement : Bool
  key : KeyPath
  pairs : Pairs

/-- The pairs in front of the first header, and each header with its pairs. -/
def sections (ss : List Statement) : Pairs × List Section :=
  ss.foldr
    (fun s (pairs, others) =>
      match s with
      | .pair key node => ((key, node) :: pairs, others)
      | .header key => ([], ⟨false, key, pairs⟩ :: others)
      | .element key => ([], ⟨true, key, pairs⟩ :: others))
    ([], [])

/-- The entries with the table of a header. A table that has only been named on
the way so far keeps what is in it. -/
def addTable (key : Key) (pairs : Pairs) (entries : Entries) : Option Entries :=
  match entries.lookup key with
  | none => do
    let built ← assignAll .header pairs []
    some (entries ++ [(key, .table .header built)])
  | some (.table .implicit old) => do
    let built ← assignAll .header pairs old
    some (remove key entries ++ [(key, .table .header built)])
  | some _ => none

/-- The entries with one more table in an array of tables. -/
def addElement (key : Key) (pairs : Pairs) (entries : Entries) : Option Entries := do
  let built ← assignAll .header pairs []
  entries |> update key fun
    | none => some (.tables [.table .header built])
    | some (.tables items) => some (.tables (items ++ [.table .header built]))
    | some _ => none

/-- The document of a list of statements. -/
def assemble (ss : List Statement) : Option Entries := do
  let (pairs, others) := sections ss
  let root ← assignAll .header pairs []
  others.foldlM
    (fun entries s =>
      let add := if s.isElement then addElement else addTable
      descend .implicit (fun _ es => add s.key.last s.pairs es) s.key.way .header entries)
    root

/-- The document that is the whole text; a mark may stand in front of it. -/
def parse (cs : List Char) : Option Entries := do
  let cs :=
    match cs with
    | '\uFEFF' :: rest => rest
    | cs => cs
  assemble (← statements (cs.length + 1) cs)

end BenchLog.Toml
