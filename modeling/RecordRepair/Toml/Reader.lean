import RecordRepair.Toml.Number

/-! # Reading TOML text

* `value?` takes a value off the front of a text; arrays and inline tables go less deep than
  `depthLimit`.
* `statements?` splits a document into its headers and its key/value lines.
* `read?` builds the table of a whole document.

Loops over items and lines are bounded by the length of the document, since each takes at least one
character off. -/

namespace RecordRepair.Toml

/-- Leaves out blanks, line ends and comments, from within a comment or not. -/
def skipLayout (inComment : Bool) : List Char → List Char
  | [] => []
  | c :: rest =>
    if c = '\n' then skipLayout false rest
    else if c = '\r' ∧ rest.head? = some '\n' then skipLayout false rest
    else if inComment then if isText c then skipLayout true rest else c :: rest
    else if isBlank c then skipLayout false rest
    else if c = '#' then skipLayout true rest
    else c :: rest

/-- Takes the items of an array and its end off the front, behind `[` or a comma. -/
def arrayRest? (item? : List Char → Option (Value × List Char)) :
    Nat → List Char → Option (List Char)
  | 0, _ => none
  | bound + 1, s =>
    match skipLayout false s with
    | ']' :: rest => some rest
    | s => do
      let (_, rest) ← item? s
      match skipLayout false rest with
      | ',' :: rest => arrayRest? item? bound rest
      | ']' :: rest => some rest
      | _ => none

/-- Takes a key, its `=` and its value off the front. -/
def assignment? (item? : List Char → Option (Value × List Char)) (s : List Char) :
    Option ((Key × Value) × List Char) := do
  let (key, rest) ← key? s
  let rest ← mark? '=' rest
  let (value, rest) ← item? (skipBlanks rest)
  some ((key, value), rest)

/-- Takes the members of an inline table and its end off the front, behind the opening brace or a
comma, and adds them to those before. -/
def inlineRest? (item? : List Char → Option (Value × List Char)) (table : Table) :
    Nat → List Char → Option (List Char)
  | 0, _ => none
  | bound + 1, s => do
    let ((key, value), rest) ← assignment? item? s
    let table ← table.assign key value
    match skipBlanks rest with
    | ',' :: rest => inlineRest? item? table bound rest
    | '\x7d' :: rest => some rest
    | _ => none

/-- Takes a value without a structure off the front. -/
def scalar? : List Char → Option (Value × List Char)
  | 't' :: 'r' :: 'u' :: 'e' :: rest => some (.boolean true, rest)
  | 'f' :: 'a' :: 'l' :: 's' :: 'e' :: rest => some (.boolean false, rest)
  | s =>
    match string? s with
    | some (text, rest) => some (.string text, rest)
    | none =>
      match dateTime? s with
      | some rest => some (.dateTime, rest)
      | none => number? s

/-- Takes a value off the front, whose arrays and inline tables go at most `depth` deep. -/
def value? (bound : Nat) : Nat → List Char → Option (Value × List Char)
  | 0, s => scalar? s
  | depth + 1, s =>
    match s with
    | '[' :: rest => (arrayRest? (value? bound depth) bound rest).map fun rest => (.array, rest)
    | '\x7b' :: rest =>
      match skipBlanks rest with
      | '\x7d' :: rest => some (.inlineTable, rest)
      | rest =>
        (inlineRest? (value? bound depth) [] bound rest).map fun rest => (.inlineTable, rest)
    | s => scalar? s

/-- A line of a document that says something. -/
inductive Statement where
  | assign (key : Key) (value : Value)
  | tableHeader (key : Key)
  | rowHeader (key : Key)

/-- Takes a statement off the front, without the end of its line. -/
def statement? (bound : Nat) : List Char → Option (Statement × List Char)
  | '[' :: '[' :: rest => do
    let (key, rest) ← key? rest
    let rest ← mark? ']' (← mark? ']' rest)
    some (.rowHeader key, rest)
  | '[' :: rest => do
    let (key, rest) ← key? rest
    let rest ← mark? ']' rest
    some (.tableHeader key, rest)
  | s => do
    let ((key, value), rest) ← assignment? (value? bound (depthLimit - 1)) s
    some (.assign key value, rest)

/-- The statements of a document, one a line, with empty lines and comments left out. -/
def statementsWithin? (bound : Nat) : Nat → List Char → Option (List Statement)
  | 0, s => if s = [] then some [] else none
  | lines + 1, s =>
    if s = [] then some []
    else
      match lineEnd? s with
      | some rest => statementsWithin? bound lines rest
      | none => do
        let (statement, rest) ← statement? bound (skipBlanks s)
        let statements ← statementsWithin? bound lines (← lineEnd? rest)
        some (statement :: statements)

/-- The statements of a document, behind the byte order mark that it may begin with. -/
def statements? (text : String) : Option (List Statement) :=
  let s := text.toList
  let s := if s.head? = some '\ufeff' then s.tail else s
  statementsWithin? s.length s.length s

/-- A document in the course of being built: its table, and the path of the last header. -/
structure Document where
  table : Table
  header : List String

/-- Takes one more statement into account. -/
def Document.step (document : Document) : Statement → Option Document
  | .assign key value =>
    (document.table.assignWithin document.header key value).map fun table =>
      { document with table }
  | .tableHeader key =>
    (document.table.openTable key).map fun table => ⟨table, key.path ++ [key.name]⟩
  | .rowHeader key =>
    (document.table.openRow key).map fun table => ⟨table, key.path ++ [key.name]⟩

/-- The table of a document. -/
def read? (text : String) : Option Table := do
  let statements ← statements? text
  let document ← statements.foldlM Document.step ⟨[], []⟩
  some document.table

end RecordRepair.Toml
