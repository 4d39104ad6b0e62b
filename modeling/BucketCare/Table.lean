import BucketCare.Text.Blank
import BucketCare.Text.Ranges

/-!
# Tables

Tables of text with a border around every row. A cell may have several lines; a column is as wide
as its widest line, in columns of a terminal.

## Main definitions

* `Text.columns` — the columns of a terminal that a text takes
* `Table.render` — the written form of a table with some headings
-/

namespace BucketCare.Text

/-- The columns of a character. Controls take none. -/
def charColumns (c : Char) : Nat :=
  let n := c.toNat
  if n < 0x20 then 0
  else if n < 0x7F then 1
  else if n < 0xA0 then 0
  else if inRanges n Ranges.flat then 0
  else if inRanges n Ranges.wide then 2
  else 1

/-- The columns of a text. -/
def columns (s : String) : Nat := s.toList.foldl (fun total c => total + charColumns c) 0

end BucketCare.Text

namespace BucketCare.Table

/-- The lines of a cell. -/
def cellLines (cell : String) : List String := Text.pieces '\n' cell

/-- The columns of a cell's widest line. -/
def cellColumns (cell : String) : Nat := ((cellLines cell).map Text.columns).foldl max 0

/-- The widths of the columns of a table, from its rows. -/
def widths : List (List String) → List Nat
  | [] => []
  | row :: rows =>
    rows.foldl (fun widths row => widths.zipWith max (row.map cellColumns)) (row.map cellColumns)

/-- The border between two rows. -/
def border (widths : List Nat) : String :=
  "+" ++ String.join (widths.map fun w => String.ofList (List.replicate (w + 2) '-') ++ "+")

/-- One line of a row, its cells filled up to the widths of their columns. -/
def line (widths : List Nat) (cells : List String) : String :=
  "|" ++ String.join (widths.zipWith (fun w cell =>
    " " ++ cell ++ String.ofList (List.replicate (w - Text.columns cell) ' ') ++ " |") cells)

/-- The lines of a row: as many as its tallest cell has. -/
def rowLines (widths : List Nat) (row : List String) : List String :=
  let cells := row.map cellLines
  let height := (cells.map List.length).foldl max 0
  (List.range height).map fun i => line widths (cells.map fun lines => (lines[i]?).getD "")

/-- The lines of a table. -/
def lines (headings : List String) (rows : List (List String)) : List String :=
  let all := headings :: rows
  let widths := widths all
  border widths :: all.flatMap fun row => rowLines widths row ++ [border widths]

/-- The written form of a table, without a line end behind its last border. -/
def render (headings : List String) (rows : List (List String)) : String :=
  "\n".intercalate (lines headings rows)

end BucketCare.Table
