/-!
# Percent encoding

A string as the bytes of its UTF-8 form, where a letter, a digit and the marks `-`, `_`, `.` and
`~` stand for themselves and any other byte is a percent sign with two hexadecimal digits in
upper case.

## Main definitions

* `encode` — the percent-encoded form of a string
* `decode?` — the string that has a percent-encoded form
-/

namespace BucketCare.Text.Percent

/-- The characters that stand for themselves. -/
def isUnreserved (b : UInt8) : Bool :=
  let n := b.toNat
  (0x30 ≤ n && n ≤ 0x39) || (0x41 ≤ n && n ≤ 0x5A) || (0x61 ≤ n && n ≤ 0x7A) ||
    n == 0x2D || n == 0x5F || n == 0x2E || n == 0x7E

/-- The upper-case hexadecimal digit of a number below sixteen. -/
def hexDigit (n : Nat) : Char := Char.ofNat (if n < 10 then 0x30 + n else 0x37 + n)

/-- The number that a hexadecimal digit, in either case, stands for. -/
def hexValue? (c : Char) : Option Nat :=
  let n := c.toNat
  if 0x30 ≤ n && n ≤ 0x39 then some (n - 0x30)
  else if 0x41 ≤ n && n ≤ 0x46 then some (n - 0x37)
  else if 0x61 ≤ n && n ≤ 0x66 then some (n - 0x57)
  else none

/-- The written form of one byte. -/
def encodeByte (b : UInt8) : List Char :=
  if isUnreserved b then [Char.ofNat b.toNat]
  else ['%', hexDigit (b.toNat / 16), hexDigit (b.toNat % 16)]

/-- The percent-encoded form of a string. -/
def encode (s : String) : String := String.ofList (s.toUTF8.toList.flatMap encodeByte)

/-- The bytes that a percent-encoded text stands for; a percent sign must be followed by two
hexadecimal digits, and any other character must be ASCII. -/
def decodeBytes? : List Char → Option (List UInt8)
  | [] => some []
  | '%' :: a :: b :: rest => do
    let high ← hexValue? a
    let low ← hexValue? b
    return UInt8.ofNat (16 * high + low) :: (← decodeBytes? rest)
  | c :: rest =>
    if c = '%' ∨ 0x80 ≤ c.toNat then none else (decodeBytes? rest).map (UInt8.ofNat c.toNat :: ·)

/-- The string that has a percent-encoded form, if the bytes are UTF-8. -/
def decode? (s : String) : Option String := do
  String.fromUTF8? (ByteArray.mk (← decodeBytes? s.toList).toArray)

end BucketCare.Text.Percent
