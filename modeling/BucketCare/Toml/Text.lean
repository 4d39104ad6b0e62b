import BucketCare.Toml.Number

/-!
# Texts in TOML

A text has four written forms: between double quotation marks with escapes, between single ones
without, and each of these over several lines between three marks.

## Main definitions

* `readText` — a text in any of the four forms
* `writeText` — a text in the plainest form that can hold it
-/

namespace BucketCare.Toml

/-- The double quotation mark. -/
def double : Char := '\x22'

/-- The single quotation mark. -/
def single : Char := '\x27'

/-- A character that may stand in a text as it is: no control other than the tabulator. -/
def isPlain (c : Char) : Bool := c == '\t' || (0x20 ≤ c.toNat && c.toNat ≠ 0x7F)

/-! ## Reading -/

/-- The character that a number stands for, if it is one. -/
def charOf? (n : Nat) : Option Char := if n.isValidChar then some (Char.ofNat n) else none

/-- A character written by a number of hexadecimal digits. -/
def readCode (width : Nat) (cs : List Char) : Option (Char × List Char) :=
  let digits := cs.take width
  if digits.length = width ∧ digits.all isHexDigit then
    (charOf? (digitsValue 16 digits)).map fun c => (c, cs.drop width)
  else none

/-- The character that a mark behind a backslash stands for. -/
def escapeOf? : Char → Option Char
  | 'b' => some '\x08'
  | 't' => some '\t'
  | 'n' => some '\n'
  | 'f' => some '\x0c'
  | 'r' => some '\r'
  | '\\' => some '\\'
  | c => if c = double then some double else none

/-- What follows a backslash in a text with escapes. -/
def readEscape : List Char → Option (Char × List Char)
  | 'u' :: rest => readCode 4 rest
  | 'U' :: rest => readCode 8 rest
  | c :: rest => (escapeOf? c).map fun c => (c, rest)
  | [] => none

/-- A text on one line with escapes, behind its opening mark. The number bounds the characters. -/
def readBasic : Nat → List Char → Option (List Char × List Char)
  | 0, _ => none
  | fuel + 1, cs =>
    match cs with
    | [] => none
    | c :: rest =>
      if c = double then some ([], rest)
      else if c = '\\' then do
        let (c, rest) ← readEscape rest
        let (text, rest) ← readBasic fuel rest
        return (c :: text, rest)
      else if isPlain c then (readBasic fuel rest).map fun (text, rest) => (c :: text, rest)
      else none

/-- A text on one line without escapes, behind its opening mark. -/
def readLiteral : List Char → Option (List Char × List Char)
  | [] => none
  | c :: rest =>
    if c = single then some ([], rest)
    else if isPlain c then (readLiteral rest).map fun (text, rest) => (c :: text, rest)
    else none

/-- The text behind a line end, if there is a line end. -/
def lineEnd? : List Char → Option (List Char)
  | '\n' :: rest => some rest
  | '\r' :: '\n' :: rest => some rest
  | _ => none

/-- A blank within a line. -/
def isSpace (c : Char) : Bool := c == ' ' || c == '\t'

/-- A line end behind a backslash is dropped, with the blanks and line ends around it. -/
def skipBreak? (cs : List Char) : Option (List Char) :=
  (lineEnd? (cs.dropWhile isSpace)).map blanks
where
  /-- The text behind blanks and line ends. -/
  blanks : List Char → List Char
    | '\n' :: rest => blanks rest
    | '\r' :: '\n' :: rest => blanks rest
    | c :: rest => if isSpace c then blanks rest else c :: rest
    | [] => []

/-- Some quotation marks and the text behind them. -/
def marks (mark : Char) (cs : List Char) : Nat × List Char :=
  ((cs.takeWhile (· == mark)).length, cs.dropWhile (· == mark))

/-- The quotation marks inside a text over several lines: up to two are part of the text; with
three to five it ends, and those before the last three are part of it. The answer holds the marks
that are part of the text, and whether it goes on. -/
def innerMarks (count : Nat) : Option (Nat × Bool) :=
  if count < 3 then some (count, true)
  else if count < 6 then some (count - 3, false)
  else none

/-- A text over several lines, behind its opening marks. Line ends are read as line feeds; `escape`
reads what follows a backslash, if that has a meaning. The number bounds the characters. -/
def readLines (mark : Char) (escapes : Bool) : Nat → List Char → Option (List Char × List Char)
  | 0, _ => none
  | fuel + 1, cs =>
    match cs with
    | [] => none
    | c :: rest =>
      if c = mark then do
        let (count, rest) := marks mark cs
        let (inside, goesOn) ← innerMarks count
        if goesOn then
          let (text, rest) ← readLines mark escapes fuel rest
          return (List.replicate inside mark ++ text, rest)
        else return (List.replicate inside mark, rest)
      else if escapes && c == '\\' then
        match skipBreak? rest with
        | some rest => readLines mark escapes fuel rest
        | none => do
          let (c, rest) ← readEscape rest
          let (text, rest) ← readLines mark escapes fuel rest
          return (c :: text, rest)
      else match lineEnd? cs with
        | some rest =>
          (readLines mark escapes fuel rest).map fun (text, rest) => ('\n' :: text, rest)
        | none =>
          if isPlain c then
            (readLines mark escapes fuel rest).map fun (text, rest) => (c :: text, rest)
          else none

/-- A text over several lines, behind its opening marks; a line end right behind them is dropped. -/
def readBlock (mark : Char) (escapes : Bool) (cs : List Char) : Option (List Char × List Char) :=
  let cs := (lineEnd? cs).getD cs
  readLines mark escapes (cs.length + 1) cs

/-- A text on one line, between quotation marks of either kind. -/
def readLine : List Char → Option (String × List Char)
  | c :: rest =>
    if c = double then
      (readBasic (rest.length + 1) rest).map fun (text, rest) => (String.ofList text, rest)
    else if c = single then
      (readLiteral rest).map fun (text, rest) => (String.ofList text, rest)
    else none
  | [] => none

/-- A text in any of the four forms. -/
def readText : List Char → Option (String × List Char)
  | a :: b :: c :: rest =>
    if (a = double ∨ a = single) ∧ a = b ∧ b = c then
      (readBlock a (a == double) rest).map fun (text, rest) => (String.ofList text, rest)
    else readLine (a :: b :: c :: rest)
  | cs => readLine cs

/-! ## Writing -/

/-- The greatest number of equal marks in a row, where `run` marks stand right before. -/
def longestRun (mark : Char) : (run : Nat) → List Char → Nat
  | run, [] => run
  | run, c :: rest =>
    if c = mark then longestRun mark (run + 1) rest else max run (longestRun mark 0 rest)

/-- A text with a control other than the tabulator and the line feed. -/
def needsCodes (cs : List Char) : Bool :=
  cs.any fun c => c != '\t' && c != '\n' && (c.toNat < 0x20 || c.toNat == 0x7F)

/-- The four digits of a character's number, in upper case. -/
def fourHex (n : Nat) : List Char :=
  [n / 4096 % 16, n / 256 % 16, n / 16 % 16, n % 16].map fun d => (Nat.digitChar d).toUpper

/-- The escape of a character that cannot stand in a text with escapes as it is. -/
def escape? (c : Char) : Option (List Char) :=
  match c with
  | '\x08' => some ['\\', 'b']
  | '\t' => some ['\\', 't']
  | '\n' => some ['\\', 'n']
  | '\x0c' => some ['\\', 'f']
  | '\r' => some ['\\', 'r']
  | '\\' => some ['\\', '\\']
  | c =>
    if c = double then some ['\\', double]
    else if c.toNat < 0x20 ∨ c.toNat = 0x7F then some (['\\', 'u'] ++ fourHex c.toNat)
    else none

/-- The body of a text with escapes on one line. -/
def basicBody (cs : List Char) : List Char := cs.flatMap fun c => (escape? c).getD [c]

/-- The body of a text with escapes over several lines: line feeds stand as they are, and of double
quotation marks in a row two may stand; `run` of them stand right before. -/
def blockBody (run : Nat) : List Char → List Char
  | [] => []
  | c :: rest =>
    if c = double then
      if run < 2 then c :: blockBody (run + 1) rest else ['\\', double] ++ blockBody 0 rest
    else if c = '\n' then c :: blockBody 0 rest
    else (escape? c).getD [c] ++ blockBody 0 rest

/-- A text between marks over several lines. It begins on a line of its own if it has several. -/
def block (mark : Char) (text body : List Char) : List Char :=
  let three := [mark, mark, mark]
  three ++ (if '\n' ∈ text then ['\n'] else []) ++ body ++ three

/-- The forms a text is written in. -/
inductive Form where
  /-- On one line with escapes. -/
  | basic
  /-- On one line without escapes. -/
  | literal
  /-- Over several lines with escapes. -/
  | basicBlock
  /-- Over several lines without escapes. -/
  | literalBlock
  deriving DecidableEq, Repr

/-- The plainest form that can hold a text: on one line rather than several, and with escapes if
none is needed, or if no form does without. -/
def formOf (cs : List Char) : Form :=
  let codes := needsCodes cs
  let backslash := cs.contains '\\'
  let several := cs.contains '\n'
  let doubles := longestRun double 0 cs
  let singles := longestRun single 0 cs
  if !codes && !backslash && doubles == 0 && !several then .basic
  else if !codes && singles == 0 && !several then .literal
  else if !codes && !backslash && decide (doubles ≤ 2) then .basicBlock
  else if !codes && decide (singles ≤ 2) then .literalBlock
  else if several then .basicBlock
  else .basic

/-- The written form of a text. -/
def writeText (s : String) : String :=
  let cs := s.toList
  String.ofList <| match formOf cs with
    | .basic => double :: basicBody cs ++ [double]
    | .literal => single :: cs ++ [single]
    | .basicBlock => block double cs (blockBody 0 cs)
    | .literalBlock => block single cs cs

end BucketCare.Toml
