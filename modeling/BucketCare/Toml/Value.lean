/-!
# TOML documents

The values of a TOML document, and how a document grows key by key and header by header. A table
remembers how it came to be, because that decides whether it may be opened or extended again: a
table may have one header, a table made by dotted keys may only be extended by dotted keys, and a
table written between braces is closed.

## Main definitions

* `Value` — the values of a document
* `Shape` — how a table came to be
* `Table.alter` — a table changed at the end of a path
* `Table.insert` — a table with one more key
* `Table.openHeader`, `Table.openElement` — a table with one more header
-/

namespace BucketCare.Toml

/-- How a table came to be. -/
inductive Shape where
  /-- Written between braces. -/
  | braces
  /-- Opened by a header, or the document itself. -/
  | header
  /-- On the way to another header. -/
  | implied
  /-- Made by dotted keys. -/
  | dotted
  deriving DecidableEq, Repr, Inhabited

/-- The values of a document. -/
inductive Value where
  | text (value : String)
  | integer (value : Int)
  /-- A number with a fraction or an exponent, as it is written. -/
  | float (written : String)
  | boolean (value : Bool)
  /-- A date, a time, or both, as it is written. -/
  | date (written : String)
  /-- A list; it grows if its elements have headers. -/
  | array (grows : Bool) (items : List Value)
  | table (shape : Shape) (entries : List (String × Value))
  deriving Repr, Inhabited

/-- A table: how it came to be, and its entries. -/
abbrev Table := Shape × List (String × Value)

namespace Table

/-- The document without content. -/
def empty : Table := (.header, [])

/-- The value of a key. -/
def get? (table : Table) (key : String) : Option Value := table.2.lookup key

/-- The entries with another value for a key that is among them. -/
def replace (key : String) (value : Value) : List (String × Value) → List (String × Value)
  | [] => []
  | (k, v) :: rest => if k = key then (k, value) :: rest else (k, v) :: replace key value rest

/-- A list with its last element changed; none if there is no element. -/
def changeLast {α : Type} (change : α → Option α) : List α → Option (List α)
  | [] => none
  | [x] => (change x).map ([·])
  | x :: y :: rest => (changeLast change (y :: rest)).map (x :: ·)

/-- A table may be passed on the way to a key or a header. Dotted keys pass only tables that have no
header of their own. -/
def passable (byDots : Bool) : Shape → Bool
  | .braces => false
  | .header => !byDots
  | .implied | .dotted => true

/-- A table with the table at the end of a path changed. Tables that are missing on the way are
made; a path through a list that grows passes its last element. -/
def alter (byDots : Bool) (change : Table → Option Table) : List String → Table → Option Table
  | [], table => change table
  | key :: path, (shape, entries) =>
    match entries.lookup key with
    | none => do
      let (s, es) ← alter byDots change path (if byDots then .dotted else .implied, [])
      return (shape, entries ++ [(key, .table s es)])
    | some (.table s es) =>
      if passable byDots s then do
        let (s, es) ← alter byDots change path (s, es)
        return (shape, replace key (.table s es) entries)
      else none
    | some (.array true items) => do
      let items ← changeLast (fun
        | .table s es => (alter byDots change path (s, es)).map fun (s, es) => .table s es
        | _ => none) items
      return (shape, replace key (.array true items) entries)
    | some _ => none

/-- A table with one more entry. -/
def add (key : String) (value : Value) (table : Table) : Option Table :=
  if (table.get? key).isSome then none else some (table.1, table.2 ++ [(key, value)])

/-- A table with one more entry behind the tables that the dots of its key pass. The last of them
must be made by dotted keys. -/
def insert (path : List String) (key : String) (value : Value) (table : Table) : Option Table :=
  alter true (fun table =>
    if path.isEmpty || table.1 = .dotted then add key value table else none) path table

/-- A table with a header for the table at a path and a key: it must be new, or known only as a
table on the way to another header. -/
def openHeader (path : List String) (key : String) (table : Table) : Option Table :=
  alter false (fun (shape, entries) =>
    match entries.lookup key with
    | none => some (shape, entries ++ [(key, .table .header [])])
    | some (.table .implied es) => some (shape, replace key (.table .header es) entries)
    | some _ => none) path table

/-- A table with a header for one more element of the list at a path and a key. -/
def openElement (path : List String) (key : String) (table : Table) : Option Table :=
  alter false (fun (shape, entries) =>
    match entries.lookup key with
    | none => some (shape, entries ++ [(key, .array true [.table .header []])])
    | some (.array true items) =>
      some (shape, replace key (.array true (items ++ [.table .header []])) entries)
    | some _ => none) path table

/-- A table with one more entry in the table that a header has opened. -/
def insertBelow (header path : List String) (key : String) (value : Value) (table : Table) :
    Option Table :=
  alter false (insert path key value) header table

end Table

end BucketCare.Toml
