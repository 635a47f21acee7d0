/-! # TOML tables

A TOML document builds one table out of key/value lines and headers.

* `Value` is what a key is given.  What stands inside an array or an inline table is checked when it
  is read and not kept.
* `Node` is an entry of a table: a value, a table, or an array of tables, of which only the last can
  still grow.
* `Table.assign`, `Table.openTable` and `Table.openRow` are the ways in which a table grows.  They
  refuse to define anything twice, and to add by dotted keys to a table that a header defined. -/

namespace RecordRepair.Toml

/-- What a key is given. -/
inductive Value where
  | string (text : String)
  | integer (value : Int)
  | float (value : Float)
  | boolean (value : Bool)
  | dateTime
  | array
  | inlineTable

/-- How a table came into being. -/
inductive Origin where
  /-- By a header of its own. -/
  | header
  /-- By the header of a table within it. -/
  | implied
  /-- By a dotted key. -/
  | dotted
deriving DecidableEq, Repr

/-- An entry of a table. -/
inductive Node where
  | value (value : Value)
  | table (origin : Origin) (entries : List (String × Node))
  /-- An array of tables, with the entries of the last one. -/
  | rows (last : List (String × Node))

/-- The entries of a table in the order of their definition. -/
abbrev Table := List (String × Node)

/-- A key with the tables that lead to it. -/
structure Key where
  path : List String
  name : String
deriving DecidableEq, Repr

namespace Table

/-- Puts a node in the place of the one that a key has. -/
def replace (table : Table) (key : String) (node : Node) : Table :=
  table.map fun entry => if entry.1 = key then (key, node) else entry

/-- Changes the table at the end of a path, given how it came into being.  Tables that are missing
on the way come into being as `made`; dotted keys do not go through tables that have a header. -/
def alter (made : Origin) (change : Origin → Table → Option Table) :
    List String → Origin → Table → Option Table
  | [], origin, table => change origin table
  | key :: path, _, table =>
    match table.lookup key with
    | none => do
      let inner ← alter made change path made []
      some (table ++ [(key, .table made inner)])
    | some (.value _) => none
    | some (.rows last) => do
      let inner ← alter made change path .header last
      some (table.replace key (.rows inner))
    | some (.table origin inner) =>
      if made = .dotted ∧ origin = .header then none
      else do
        let inner ← alter made change path origin inner
        some (table.replace key (.table origin inner))

/-- Gives a key a value.  A dotted key leads to a table made by dotted keys, a plain key stays in a
table that is not. -/
def assign (table : Table) (key : Key) (value : Value) : Option Table :=
  alter .dotted (fun origin table =>
    if origin = .dotted ↔ key.path = [] then none
    else if (table.lookup key.name).isSome then none
    else some (table ++ [(key.name, .value value)])) key.path .header table

/-- Begins the table of a header.  A table implied by an earlier header gets its own header now, and
with it its place among the entries. -/
def openTable (table : Table) (key : Key) : Option Table :=
  alter .implied (fun _ table =>
    match table.lookup key.name with
    | none => some (table ++ [(key.name, .table .header [])])
    | some (.table .implied inner) =>
      some (table.filter (fun entry => entry.1 ≠ key.name) ++ [(key.name, .table .header inner)])
    | _ => none) key.path .header table

/-- Begins a further table in the array of a header. -/
def openRow (table : Table) (key : Key) : Option Table :=
  alter .implied (fun _ table =>
    match table.lookup key.name with
    | none => some (table ++ [(key.name, .rows [])])
    | some (.rows _) => some (table.replace key.name (.rows []))
    | _ => none) key.path .header table

/-- Gives a key a value in the table of the last header. -/
def assignWithin (table : Table) (header : List String) (key : Key) (value : Value) :
    Option Table :=
  alter .implied (fun _ inner => assign inner key value) header .header table

end Table

end RecordRepair.Toml
