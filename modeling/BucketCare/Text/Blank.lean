/-!
# Blank characters and lines

Which characters count as white space, how white space is trimmed from both ends of a text, and
how a text is cut into lines. Texts are lists of characters here; `String` wrappers stand at the
end of the file.

## Main definitions

* `isBlank` — the Unicode property `White_Space`
* `trim` — a text without the blanks at its two ends
* `lines` — the lines of a text, ended by a line feed or by a carriage return and a line feed
-/

namespace BucketCare.Text

/-- The Unicode property `White_Space`. -/
def isBlank (c : Char) : Bool :=
  let n := c.toNat
  (9 ≤ n && n ≤ 13) || n == 0x20 || n == 0x85 || n == 0xA0 || n == 0x1680 ||
    (0x2000 ≤ n && n ≤ 0x200A) || n == 0x2028 || n == 0x2029 || n == 0x202F || n == 0x205F ||
    n == 0x3000

/-- A text without the blanks at its start. -/
def trimLeft (cs : List Char) : List Char := cs.dropWhile isBlank

/-- A text without the blanks at its end. -/
def trimRight (cs : List Char) : List Char := (trimLeft cs.reverse).reverse

/-- A text without the blanks at its two ends. -/
def trim (cs : List Char) : List Char := trimRight (trimLeft cs)

/-- The line whose characters were read in reverse: a carriage return before the line feed
belongs to the line end. -/
def closeLine : List Char → List Char
  | '\r' :: before => before.reverse
  | before => before.reverse

/-- The lines of a text, where `before` holds the characters of the current line in reverse.
A text that ends without a line feed has its rest as a last line, and a carriage return at the
end of that rest stays. -/
def linesFrom (before : List Char) : List Char → List (List Char)
  | [] => if before.isEmpty then [] else [before.reverse]
  | c :: rest =>
    if c = '\n' then closeLine before :: linesFrom [] rest else linesFrom (c :: before) rest

/-- The lines of a text. Each line feed ends a line, together with a carriage return before it;
no empty line follows a final line feed. -/
def lines (cs : List Char) : List (List Char) := linesFrom [] cs

/-- The pieces of a text between the occurrences of a character; a text without one is a single
piece, and there is always at least one piece. -/
def splitAt (mark : Char) : List Char → List (List Char)
  | [] => [[]]
  | c :: rest =>
    if c = mark then [] :: splitAt mark rest
    else match splitAt mark rest with
      | [] => [[c]]
      | piece :: pieces => (c :: piece) :: pieces

/-- The pieces of a string between the occurrences of a character. -/
def pieces (mark : Char) (s : String) : List String := (splitAt mark s.toList).map String.ofList

/-- A string's digits in base ten, with zeros in front up to a width. -/
def padZero (width : Nat) (n : Nat) : String :=
  let digits := toString n
  String.ofList (List.replicate (width - digits.length) '0') ++ digits

/-- A string moved to the right end of a field of some width. -/
def padLeft (width : Nat) (s : String) : String :=
  String.ofList (List.replicate (width - s.length) ' ') ++ s

/-- Upper-case letters of the alphabet `A` to `Z` made lower case, and no other character. -/
def lowerAscii (s : String) : String := String.ofList (s.toList.map Char.toLower)

/-- A text begins with another. -/
def beginsWith : (start text : List Char) → Bool
  | [], _ => true
  | _ :: _, [] => false
  | a :: as, b :: bs => a == b && beginsWith as bs

/-- A text holds another as a contiguous piece. -/
def hasPiece (piece : List Char) : List Char → Bool
  | [] => piece.isEmpty
  | c :: rest => beginsWith piece (c :: rest) || hasPiece piece rest

end BucketCare.Text
