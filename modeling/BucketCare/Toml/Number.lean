import BucketCare.Toml.Value

/-!
# Numbers and dates in TOML

The written forms of integers, floating-point numbers, dates and times. Each reader takes the text
from some place on, and gives a value and the text behind it.

## Main definitions

* `readInteger` — an integer in base ten, sixteen, eight or two
* `readFloat` — a number with a fraction or an exponent, an infinity or a number that is none
* `readDate` — a date, a time, or both
* `readNumber` — any of these
-/

namespace BucketCare.Toml

/-- A digit in base ten. -/
def isDigit (c : Char) : Bool := '0' ≤ c && c ≤ '9'

/-- A digit in base sixteen. -/
def isHexDigit (c : Char) : Bool := isDigit c || ('a' ≤ c && c ≤ 'f') || ('A' ≤ c && c ≤ 'F')

/-- The number that a digit stands for. -/
def digitValue (c : Char) : Nat :=
  if isDigit c then c.toNat - 48 else if 'a' ≤ c then c.toNat - 87 else c.toNat - 55

/-- The number that digits in some base stand for. -/
def digitsValue (base : Nat) (digits : List Char) : Nat :=
  digits.foldl (fun n c => n * base + digitValue c) 0

/-- The digits at the start of a text. A single underscore may stand between two of them. -/
def moreDigits (digit : Char → Bool) : List Char → List Char × List Char
  | '_' :: c :: rest =>
    if digit c then
      let (digits, rest) := moreDigits digit rest
      (c :: digits, rest)
    else ([], '_' :: c :: rest)
  | c :: rest =>
    if digit c then
      let (digits, rest) := moreDigits digit rest
      (c :: digits, rest)
    else ([], c :: rest)
  | [] => ([], [])

/-- One digit or more. -/
def someDigits (digit : Char → Bool) : List Char → Option (List Char × List Char)
  | [] => none
  | c :: rest =>
    if digit c then
      let (digits, rest) := moreDigits digit rest
      some (c :: digits, rest)
    else none

/-- A sign, if there is one, as whether it is a minus sign. -/
def readSign : List Char → Bool × List Char
  | '+' :: rest => (false, rest)
  | '-' :: rest => (true, rest)
  | rest => (false, rest)

/-- A whole number in base ten with its sign: a zero, or digits that do not begin with one. -/
def readDecimal (cs : List Char) : Option ((Bool × List Char) × List Char) :=
  let (minus, rest) := readSign cs
  match rest with
  | '0' :: rest => some ((minus, ['0']), rest)
  | rest => (someDigits isDigit rest).map fun (digits, rest) => ((minus, digits), rest)

/-- The least number of 64 bits. -/
def leastInteger : Int := -(Nat.pow 2 63 : Nat)

/-- The greatest number of 64 bits. -/
def greatestInteger : Int := (Nat.pow 2 63 : Nat) - 1

/-- A number of 64 bits with its sign. -/
def bounded (n : Int) : Option Int :=
  if leastInteger ≤ n ∧ n ≤ greatestInteger then some n else none

/-- An integer. -/
def readInteger : List Char → Option (Int × List Char)
  | '0' :: 'x' :: rest => based 16 isHexDigit rest
  | '0' :: 'o' :: rest => based 8 (fun c => '0' ≤ c && c ≤ '7') rest
  | '0' :: 'b' :: rest => based 2 (fun c => c == '0' || c == '1') rest
  | cs => do
    let ((minus, digits), rest) ← readDecimal cs
    let n : Int := digitsValue 10 digits
    return (← bounded (if minus then -n else n), rest)
where
  /-- An integer behind the mark of its base. -/
  based (base : Nat) (digit : Char → Bool) (cs : List Char) : Option (Int × List Char) := do
    let (digits, rest) ← someDigits digit cs
    return (← bounded (digitsValue base digits), rest)

/-- An exponent: its mark, a sign if there is one, and digits. -/
def readExponent : List Char → Option (Int × List Char)
  | c :: rest =>
    if c = 'e' ∨ c = 'E' then do
      let (minus, rest) := readSign rest
      let (digits, rest) ← someDigits isDigit rest
      let n : Int := digitsValue 10 digits
      return (if minus then -n else n, rest)
    else none
  | [] => none

/-- The digits behind a point. -/
def readFraction : List Char → Option (List Char × List Char)
  | '.' :: rest => someDigits isDigit rest
  | _ => none

/-- A quotient is at or past the middle between the greatest number of double precision and the
next power of two, so that it rounds to infinity. -/
def overflows (num den : Nat) : Bool :=
  decide ((Nat.pow 2 1024 - Nat.pow 2 970) * den ≤ num)

/-- Digits with a power of ten behind them round to infinity. Powers far from the bound are decided
by the number of digits. -/
def isInfinite (digits : List Char) (exponent : Int) : Bool :=
  let n := digitsValue 10 digits
  let size : Int := (toString n).length + exponent
  if n = 0 ∨ size < 300 then false
  else if 320 < size then true
  else overflows (n * Nat.pow 10 exponent.toNat) (Nat.pow 10 (-exponent).toNat)

/-- The text between a place and a later one. -/
def written (start rest : List Char) : String :=
  String.ofList (start.take (start.length - rest.length))

/-- A number with a fraction, an exponent or both. One that rounds to the positive infinity is
refused. -/
def readDecimalFloat (cs : List Char) : Option (String × List Char) := do
  let ((minus, whole), rest) ← readDecimal cs
  let (fraction, exponent, rest) ←
    match readExponent rest with
    | some (exponent, rest) => some ([], exponent, rest)
    | none => do
      let (fraction, rest) ← readFraction rest
      match readExponent rest with
      | some (exponent, rest) => some (fraction, exponent, rest)
      | none => some (fraction, 0, rest)
  if !minus && isInfinite (whole ++ fraction) (exponent - fraction.length) then none
  else return (written cs rest, rest)

/-- An infinity or a number that is none. -/
def readSpecialFloat (cs : List Char) : Option (String × List Char) :=
  match (readSign cs).2 with
  | 'i' :: 'n' :: 'f' :: rest | 'n' :: 'a' :: 'n' :: rest => some (written cs rest, rest)
  | _ => none

/-- A floating-point number. -/
def readFloat (cs : List Char) : Option (String × List Char) :=
  readDecimalFloat cs <|> readSpecialFloat cs

/-- Two digits that stand for a number within bounds. -/
def twoDigits (least greatest : Nat) : List Char → Option (Nat × List Char)
  | a :: b :: rest =>
    if isDigit a && isDigit b then
      let n := digitsValue 10 [a, b]
      if least ≤ n ∧ n ≤ greatest then some (n, rest) else none
    else none
  | _ => none

/-- Four digits. -/
def fourDigits : List Char → Option (Nat × List Char)
  | a :: b :: c :: d :: rest =>
    if [a, b, c, d].all isDigit then some (digitsValue 10 [a, b, c, d], rest) else none
  | _ => none

/-- One character. -/
def expect (c : Char) : List Char → Option (List Char)
  | d :: rest => if c = d then some rest else none
  | [] => none

/-- The days of a month. -/
def monthDays (year month : Nat) : Nat :=
  if month = 2 then
    if year % 4 = 0 ∧ (year % 100 ≠ 0 ∨ year % 400 = 0) then 29 else 28
  else if month ∈ [4, 6, 9, 11] then 30 else 31

/-- A day. -/
def readDay (cs : List Char) : Option (List Char) := do
  let (year, rest) ← fourDigits cs
  let (month, rest) ← twoDigits 1 12 (← expect '-' rest)
  let (_, rest) ← twoDigits 1 (monthDays year month) (← expect '-' rest)
  return rest

/-- A time of day, with a fraction of a second if there is one. -/
def readClock (cs : List Char) : Option (List Char) := do
  let (_, rest) ← twoDigits 0 23 cs
  let (_, rest) ← twoDigits 0 59 (← expect ':' rest)
  let (_, rest) ← twoDigits 0 60 (← expect ':' rest)
  match rest with
  | '.' :: c :: more => return if isDigit c then more.dropWhile isDigit else rest
  | _ => return rest

/-- A time zone, if there is one. -/
def readZone (cs : List Char) : List Char :=
  match cs with
  | c :: rest =>
    if c = 'Z' ∨ c = 'z' then rest
    else if c = '+' ∨ c = '-' then
      let zone := do
        let (_, rest) ← twoDigits 0 23 rest
        let (_, rest) ← twoDigits 0 59 (← expect ':' rest)
        return rest
      zone.getD cs
    else cs
  | [] => []

/-- The time behind a day, if there is one. -/
def readTimeOfDay (cs : List Char) : List Char :=
  match cs with
  | c :: rest =>
    if c = 'T' ∨ c = 't' ∨ c = ' ' then ((readClock rest).map readZone).getD cs else cs
  | [] => []

/-- A date, a time, or both. -/
def readDate (cs : List Char) : Option (String × List Char) := do
  let rest ← (readDay cs).map readTimeOfDay <|> readClock cs
  return (written cs rest, rest)

/-- A number or a date. -/
def readNumber (cs : List Char) : Option (Value × List Char) :=
  ((readDate cs).map fun (s, rest) => (Value.date s, rest)) <|>
    ((readFloat cs).map fun (s, rest) => (Value.float s, rest)) <|>
      (readInteger cs).map fun (n, rest) => (Value.integer n, rest)

end BucketCare.Toml
