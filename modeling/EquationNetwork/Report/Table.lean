import EquationNetwork.Text.Lines
import EquationNetwork.Text.Width

/-!
# Framed tables

A table is a list of rows of cells, the header first. It is drawn in a frame with rounded corners
and a rule between all rows. Cells are aligned to the left with a space on each side; a column is
as wide as its widest line, and a row as high as its highest cell.
-/

namespace EquationNetwork.Report

/-- The rows of a table, each with the same number of cells. -/
abbrev Table := List (List String)

namespace Table

/-- The lines of a cell. -/
def cellLines (cell : String) : List (List Char) := Text.pieces '\n' cell.toList

/-- The columns that a cell takes. -/
def cellWidth (cell : String) : Nat :=
  ((cellLines cell).map Text.lineWidth).foldl max 0

/-- The width of each column. -/
def widths : Table → List Nat
  | [] => []
  | [row] => row.map cellWidth
  | row :: rows => List.zipWith max (row.map cellWidth) (widths rows)

/-! ## Drawing -/

/-- A line of a cell in its column. -/
def pad (width : Nat) (line : List Char) : List Char :=
  ' ' :: line ++ List.replicate (width - Text.lineWidth line + 1) ' '

/-- Parts of a line between a left end, separators and a right end. -/
def between (left separator right : Char) (parts : List (List Char)) : List Char :=
  left :: (List.intercalate [separator] parts ++ [right])

/-- A horizontal line of the frame. -/
def rule (left crossing right : Char) (widths : List Nat) : List Char :=
  between left crossing right (widths.map fun width => List.replicate (width + 2) '─')

/-- The lines of a row. Cells that are not as high as the row are filled with empty lines. -/
def rowLines (widths : List Nat) (row : List String) : List (List Char) :=
  let cells := row.map cellLines
  let height := (cells.map List.length).foldl max 0
  (List.range height).map fun i =>
    between '│' '│' '│' (List.zipWith (fun width cell => pad width (cell.getD i [])) widths cells)

/-- All lines of the table. -/
def drawLines (table : Table) : List (List Char) :=
  let columns := table.widths
  let body := List.intercalate [rule '├' '┼' '┤' columns] (table.map (rowLines columns))
  rule '╭' '┬' '╮' columns :: (body ++ [rule '╰' '┴' '╯' columns])

/-- The drawing of the table; its last line is not ended. -/
def draw (table : Table) : String := String.ofList (Text.unlines table.drawLines)

end Table

end EquationNetwork.Report
