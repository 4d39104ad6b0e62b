/-!
# Rounded quotients, decimals and sizes in bytes

Exact quotients of natural numbers, rounded to a whole number or to a fixed number of decimal
places. A half goes to the even neighbour.

A number of bytes is written with two decimal places and in the largest unit, from bytes to
terabytes in steps of 1024, that leaves at least one. It is first taken to double precision, which
is exact below 2 ^ 53; a negative number stays in bytes.

## Main definitions

* `roundDiv` — a quotient rounded to the nearest whole number
* `fixed` — a quotient with a fixed number of decimal places
* `Binary` — the numbers `m · 2 ^ e`, and `Binary.nearest`, the one with at most 53 bits that is
  nearest to a quotient
* `ByteSize.display` — the written form of a number of bytes
-/

namespace BucketCare.Decimal

/-- A quotient rounded to the nearest whole number; a half goes to the even neighbour. -/
def roundDiv (num den : Nat) : Nat :=
  let q := num / den
  let twice := 2 * (num % den)
  if twice < den then q else if den < twice then q + 1 else q + q % 2

/-- A quotient written with a fixed number of decimal places. -/
def fixed (places num den : Nat) : String :=
  let scaled := roundDiv (num * Nat.pow 10 places) den
  let whole := toString (scaled / Nat.pow 10 places)
  let digits := toString (scaled % Nat.pow 10 places)
  if places = 0 then whole
  else whole ++ "." ++ String.ofList (List.replicate (places - digits.length) '0') ++ digits

/-- A number `mantissa · 2 ^ exponent`. -/
structure Binary where
  mantissa : Nat
  exponent : Int
  deriving DecidableEq, Repr, Inhabited

namespace Binary

/-- The number of significant bits of a double-precision number. -/
def bits : Nat := 53

/-- The numerator of the number as a quotient. -/
def num (x : Binary) : Nat := x.mantissa * Nat.pow 2 x.exponent.toNat

/-- The denominator of the number as a quotient. -/
def den (x : Binary) : Nat := Nat.pow 2 (-x.exponent).toNat

/-- The quotient `num / den` in units of `2 ^ exponent`, again as a quotient. -/
def inUnits (num den : Nat) (exponent : Int) : Nat × Nat :=
  (num * Nat.pow 2 (-exponent).toNat, den * Nat.pow 2 exponent.toNat)

/-- The number with at most 53 significant bits that is nearest to a quotient, a tie going to the
even mantissa. Exponents are not bounded. -/
def nearest (num den : Nat) : Binary :=
  if num = 0 then ⟨0, 0⟩
  else
    let guess : Int := (num.log2 : Int) - (den.log2 : Int) - ((bits - 1 : Nat) : Int)
    let (n, d) := inUnits num den guess
    let exponent := if n / d < Nat.pow 2 (bits - 1) then guess - 1 else guess
    let (n, d) := inUnits num den exponent
    ⟨roundDiv n d, exponent⟩

/-- The nearest number to a whole number. -/
def ofNat (n : Nat) : Binary := nearest n 1

/-- The nearest number to a sum. -/
def add (x y : Binary) : Binary := nearest (x.num * y.den + y.num * x.den) (x.den * y.den)

/-- The nearest number to a quotient of two numbers, the second not zero. -/
def div (x y : Binary) : Binary := nearest (x.num * y.den) (x.den * y.num)

/-- The number with a fixed number of decimal places. -/
def fixed (places : Nat) (x : Binary) : String := Decimal.fixed places x.num x.den

end Binary

namespace ByteSize

/-- The units, each 1024 times the one before. -/
def units : List String := ["B", "KB", "MB", "GB", "TB"]

/-- A quotient in the largest of some units that leaves at least one. -/
def inUnit (num den : Nat) : List String → String
  | [] => fixed 2 num den
  | [unit] => fixed 2 num den ++ " " ++ unit
  | unit :: next :: larger =>
    if 1024 * den ≤ num then inUnit num (1024 * den) (next :: larger)
    else fixed 2 num den ++ " " ++ unit

/-- The written form of a number of bytes. -/
def display (bytes : Int) : String :=
  let size := Binary.ofNat bytes.natAbs
  if bytes < 0 then "-" ++ size.fixed 2 ++ " B" else inUnit size.num size.den units

end ByteSize

end BucketCare.Decimal
