import BucketCare.Text.Blank

/-!
# JSON documents

The documents that are printed, and their written form with one item to a line and two spaces for
each level.

## Main definitions

* `Json` — a document of texts, lists and records
* `Json.pretty` — its written form
-/

namespace BucketCare

/-- A document of texts, lists and records. -/
inductive Json where
  /-- No value. -/
  | null
  /-- A text. -/
  | text (value : String)
  /-- A list. -/
  | list (items : List Json)
  /-- A record, its fields in the order they are written. -/
  | record (fields : List (String × Json))
  deriving Repr, Inhabited

namespace Json

/-- The two hexadecimal digits, in lower case, of a number below 256. -/
def hexPair (n : Nat) : List Char := [Nat.digitChar (n / 16), Nat.digitChar (n % 16)]

/-- The form of a character inside a quoted text: the quotation mark, the backslash and the control
characters below the space are escaped. -/
def escape (c : Char) : List Char :=
  if c = '\x22' then ['\\', '\x22']
  else if c = '\\' then ['\\', '\\']
  else if c = '\x08' then ['\\', 'b']
  else if c = '\t' then ['\\', 't']
  else if c = '\n' then ['\\', 'n']
  else if c = '\x0c' then ['\\', 'f']
  else if c = '\r' then ['\\', 'r']
  else if c.toNat < 0x20 then ['\\', 'u', '0', '0'] ++ hexPair c.toNat
  else [c]

/-- A text between quotation marks. -/
def quote (s : String) : String :=
  String.ofList (['\x22'] ++ s.toList.flatMap escape ++ ['\x22'])

/-- A line break and the indentation of a level. -/
def newline (level : Nat) : String := "\n" ++ String.ofList (List.replicate (2 * level) ' ')

/-- Written items between two brackets, one to a line; brackets without items stay together. -/
def enclose (opening closing : String) (level : Nat) (items : List String) : String :=
  if items.isEmpty then opening ++ closing
  else opening ++ newline (level + 1) ++ (("," ++ newline (level + 1)).intercalate items) ++
    newline level ++ closing

mutual

/-- The written form of a document at a level of indentation. -/
def render (level : Nat) : Json → String
  | null => "null"
  | text value => quote value
  | list items => enclose "[" "]" level (renderItems (level + 1) items)
  | record fields => enclose "\x7b" "\x7d" level (renderFields (level + 1) fields)

/-- The written forms of the items of a list. -/
def renderItems (level : Nat) : List Json → List String
  | [] => []
  | item :: items => render level item :: renderItems level items

/-- The written forms of the fields of a record. -/
def renderFields (level : Nat) : List (String × Json) → List String
  | [] => []
  | (name, value) :: fields =>
    (quote name ++ ": " ++ render level value) :: renderFields level fields

end

/-- The written form of a document. -/
def pretty (document : Json) : String := document.render 0

end Json

end BucketCare
