import BucketCare.Text.Blank
import BucketCare.Text.Ranges

/-!
# Showing values

How values are shown for diagnostics: a string as a literal between quotation marks, and the value
of an option without giving a secret away. In a literal, characters that cannot be seen and marks
that would join the character before them are written by their number.

## Main definitions

* `Text.quote` — the literal of a string
* `isSensitive` — the option names whose values are secrets
* `mask` — the two first characters of a value and its length
* `sanitize` — the printable form of an option's value
-/

namespace BucketCare.Text

/-- The hexadecimal digits of a number, in lower case. -/
def hexLower (n : Nat) : List Char := Nat.toDigits 16 n

/-- A character written by its number. -/
def escapeNumber (c : Char) : List Char := ['\\', 'u', '\x7b'] ++ hexLower c.toNat ++ ['\x7d']

/-- The form of a character inside a literal. -/
def quoteChar (c : Char) : List Char :=
  if c = '\x00' then ['\\', '0']
  else if c = '\t' then ['\\', 't']
  else if c = '\r' then ['\\', 'r']
  else if c = '\n' then ['\\', 'n']
  else if c = '\x22' then ['\\', '\x22']
  else if c = '\\' then ['\\', '\\']
  else if 0x20 ≤ c.toNat && c.toNat < 0x7F then [c]
  else if inRanges c.toNat Ranges.joining || inRanges c.toNat Ranges.unprinted then
    escapeNumber c
  else [c]

/-- The literal of a string. -/
def quote (s : String) : String :=
  String.ofList (['\x22'] ++ s.toList.flatMap quoteChar ++ ['\x22'])

end BucketCare.Text

namespace BucketCare.Masking

/-- An option whose name holds one of these words has a secret for its value. -/
def sensitiveWords : List String := ["secret", "password", "token", "access_key", "session"]

/-- The option holds a secret. Case does not matter. -/
def isSensitive (name : String) : Bool :=
  sensitiveWords.any fun word => Text.hasPiece word.toList (Text.lowerAscii name).toList

/-- How an empty value is shown. -/
def emptyMark : String := "\"\""

/-- The two first characters of a value, stars, and the number of its characters. -/
def mask (value : String) : String :=
  if value.isEmpty then emptyMark
  else String.ofList (value.toList.take 2) ++ s!"********** ({value.length} chars)"

/-- The value of an option as it may be printed. -/
def sanitize (name value : String) : String :=
  if value.isEmpty then emptyMark else if isSensitive name then mask value else value

end BucketCare.Masking
