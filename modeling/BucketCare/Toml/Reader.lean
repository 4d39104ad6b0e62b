import BucketCare.Toml.Text

/-!
# Reading TOML

A document is read expression by expression: comments, headers, and keys with values. Lists and
tables nest up to a limit, and so do the parts of a key.

## Main definitions

* `readKey` — a key with the keys before its dots
* `readValue` — a value, nested up to a depth
* `readDocument` — the table of a document
-/

namespace BucketCare.Toml

/-- The number of levels that is too many, for values and for the parts of a key. -/
def depthLimit : Nat := 80

/-- The text behind the blanks at its start. -/
def skipSpaces (cs : List Char) : List Char := cs.dropWhile isSpace

/-- The text behind a comment, if there is one: everything up to a control. -/
def skipComment (cs : List Char) : List Char :=
  match cs with
  | '#' :: rest => rest.dropWhile isPlain
  | cs => cs

/-- The end of a line with a value or a header: blanks, a comment if there is one, and a line end
or the end of the text. -/
def endLine (cs : List Char) : Option (List Char) :=
  match skipComment (skipSpaces cs) with
  | [] => some []
  | rest => lineEnd? rest

/-- The text behind blanks, comments and line ends; a comment must end with its line. The number
bounds the lines. -/
def skipLines : Nat → List Char → Option (List Char)
  | 0, _ => none
  | fuel + 1, cs =>
    match skipSpaces cs with
    | '#' :: rest => (lineEnd? (rest.dropWhile isPlain)).bind (skipLines fuel)
    | rest =>
      match lineEnd? rest with
      | some rest => skipLines fuel rest
      | none => if rest.head? = some '\r' then none else some rest

/-- The text behind blanks, comments and line ends. -/
def skipBlankLines (cs : List Char) : Option (List Char) := skipLines (cs.length + 1) cs

/-- A character of a key without quotation marks. -/
def isBare (c : Char) : Bool :=
  isDigit c || ('a' ≤ c && c ≤ 'z') || ('A' ≤ c && c ≤ 'Z') || c == '_' || c == '-'

/-- A part of a key. -/
def readPart (cs : List Char) : Option (String × List Char) :=
  match readLine cs with
  | some reading => some reading
  | none =>
    let name := cs.takeWhile isBare
    if name.isEmpty then none else some (String.ofList name, cs.dropWhile isBare)

/-- The parts of a key, with blanks around them and dots between them. The number bounds the
parts. -/
def readParts : Nat → List Char → Option (List String × List Char)
  | 0, _ => none
  | fuel + 1, cs => do
    let (part, rest) ← readPart (skipSpaces cs)
    match skipSpaces rest with
    | '.' :: rest =>
      let (parts, rest) ← readParts fuel rest
      return (part :: parts, rest)
    | rest => return ([part], rest)

/-- A key: the parts before its last dot, and its last part. -/
def readKey (cs : List Char) : Option ((List String × String) × List Char) := do
  let (parts, rest) ← readParts (depthLimit - 1) cs
  return ((parts.dropLast, ← parts.getLast?), rest)

/-- A key, an equals sign, and what a reader makes of the text behind it and its blanks. -/
def readPair (readOne : List Char → Option (Value × List Char)) (cs : List Char) :
    Option (((List String × String) × Value) × List Char) := do
  let (key, rest) ← readKey cs
  let rest ← expect '=' rest
  let (value, rest) ← readOne (skipSpaces rest)
  return ((key, value), rest)

/-- The items of a list, behind its opening bracket or a comma. The number bounds the items. -/
def readItems (readOne : List Char → Option (Value × List Char)) :
    Nat → List Char → Option (List Value × List Char)
  | 0, _ => none
  | fuel + 1, cs => do
    match ← skipBlankLines cs with
    | ']' :: rest => return ([], rest)
    | rest =>
      let (value, rest) ← readOne rest
      match ← skipBlankLines rest with
      | ',' :: rest =>
        let (values, rest) ← readItems readOne fuel rest
        return (value :: values, rest)
      | ']' :: rest => return ([value], rest)
      | _ => none

/-- The entries of a table between braces, behind its first brace or a comma. A comma must be
followed by an entry. The number bounds the entries. -/
def readEntries (readOne : List Char → Option (Value × List Char)) :
    Nat → Table → List Char → Option (Table × List Char)
  | 0, _, _ => none
  | fuel + 1, table, cs => do
    let (((path, key), value), rest) ← readPair readOne cs
    let table ← table.insert path key value
    match skipSpaces rest with
    | ',' :: rest => readEntries readOne fuel table rest
    | '\x7d' :: rest => return (table, rest)
    | _ => none

/-- A table between braces, behind its first brace. -/
def readBraces (readOne : List Char → Option (Value × List Char)) (cs : List Char) :
    Option (Table × List Char) :=
  match skipSpaces cs with
  | '\x7d' :: rest => some ((.braces, []), rest)
  | _ => readEntries readOne (cs.length + 1) (.braces, []) cs

/-- A value that holds no other. -/
def readScalar (cs : List Char) : Option (Value × List Char) :=
  match cs with
  | 't' :: 'r' :: 'u' :: 'e' :: rest => some (.boolean true, rest)
  | 'f' :: 'a' :: 'l' :: 's' :: 'e' :: rest => some (.boolean false, rest)
  | c :: _ =>
    if c = double ∨ c = single then (readText cs).map fun (s, rest) => (.text s, rest)
    else readNumber cs
  | [] => none

/-- A value, where lists and tables may nest up to a depth. -/
def readValue : (depth : Nat) → List Char → Option (Value × List Char)
  | 0, cs => readScalar cs
  | depth + 1, cs =>
    match cs with
    | '[' :: rest =>
      (readItems (readValue depth) (rest.length + 1) rest).map fun (items, rest) =>
        (.array false items, rest)
    | '\x7b' :: rest =>
      (readBraces (readValue depth) rest).map fun ((shape, entries), rest) =>
        (.table shape entries, rest)
    | cs => readScalar cs

/-- A document as far as it is read: its table, and the header that is open. -/
structure Draft where
  table : Table
  header : List String

/-- A header, behind its first bracket, and the line it ends. -/
def readHeader (draft : Draft) (cs : List Char) : Option (Draft × List Char) :=
  match cs with
  | '[' :: rest => do
    let ((path, key), rest) ← readKey rest
    let rest ← endLine (← expect ']' (← expect ']' rest))
    return (⟨← draft.table.openElement path key, path ++ [key]⟩, rest)
  | cs => do
    let ((path, key), rest) ← readKey cs
    let rest ← endLine (← expect ']' rest)
    return (⟨← draft.table.openHeader path key, path ++ [key]⟩, rest)

/-- A key with its value, and the line it ends. -/
def readEntry (draft : Draft) (cs : List Char) : Option (Draft × List Char) := do
  let (((path, key), value), rest) ← readPair (readValue (depthLimit - 1)) cs
  let rest ← endLine rest
  return ({ draft with table := ← draft.table.insertBelow draft.header path key value }, rest)

/-- The expressions of a document. The number bounds them. -/
def readExpressions : Nat → Draft → List Char → Option Table
  | 0, _, _ => none
  | fuel + 1, draft, cs => do
    match skipSpaces cs with
    | [] => return draft.table
    | '#' :: rest => readExpressions fuel draft (← endLine ('#' :: rest))
    | '\n' :: rest => readExpressions fuel draft rest
    | '\r' :: rest => readExpressions fuel draft (← expect '\n' rest)
    | '[' :: rest =>
      let (draft, rest) ← readHeader draft rest
      readExpressions fuel draft rest
    | rest =>
      let (draft, rest) ← readEntry draft rest
      readExpressions fuel draft rest

/-- The text behind a mark of byte order. -/
def skipMark (cs : List Char) : List Char :=
  match cs with
  | '\ufeff' :: rest => rest
  | cs => cs

/-- The table of a document. -/
def readDocument (s : String) : Option Table :=
  let cs := skipMark s.toList
  readExpressions (cs.length + 1) ⟨.empty, []⟩ cs

end BucketCare.Toml
