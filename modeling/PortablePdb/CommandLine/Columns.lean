import PortablePdb.CommandLine.Wrap
import PortablePdb.Text.Blank

namespace PortablePdb.CommandLine

/-- The side of a column at which its cells stand. -/
inductive Align where
  | left
  | right
  deriving DecidableEq, Repr

namespace Columns

/-- The limit of the width of a column. -/
def maxWidth : Nat := 0xFFFF

/-- The lines of a cell. -/
abbrev Cell := List (List Char)

/-- The cell with a text. -/
def cell (text : String) : Cell :=
  Text.split '\n' text.toList

/-- The width of the widest line of a cell, up to the limit. -/
def cellWidth (cell : Cell) : Nat :=
  min maxWidth ((cell.map Text.width).foldl max 0)

/-- The lines of a cell, those that are wider than the limit broken. -/
def cellLines (cell : Cell) : List (List Char) :=
  cell.flatMap (Wrap.wrap maxWidth)

/-- A line filled up with blanks to a width. -/
def fill (align : Align) (width : Nat) (line : List Char) : List Char :=
  let blanks := List.replicate (width - Text.width line) ' '
  match align with
  | .left => line ++ blanks
  | .right => blanks ++ line

/-- The widths of columns, from the cells of each row. -/
def widths (rows : List (List Cell)) : List Nat :=
  rows.foldl (fun widths row => List.zipWith max widths (row.map cellWidth))
    ((rows.headD []).map fun _ => 0)

/-- The lines of a row, as many as its tallest cell has. -/
def rowLines (columns : List (Align × Nat)) (row : List Cell) : List String :=
  let cells := row.map cellLines
  let height := (cells.map List.length).foldl max 0
  (List.range height).map fun i =>
    let parts := List.zipWith (fun (align, width) lines => fill align width (lines.getD i []))
      columns cells
    String.ofList (Text.trimEnd (List.intercalate [' ', ' '] parts))

/-- The lines of a table, its header first. -/
def lines (header : List (String × Align)) (rows : List (List String)) : List String :=
  let cells := (header.map (·.1) :: rows).map fun row => row.map cell
  let columns := (header.map (·.2)).zip (widths cells)
  cells.flatMap (rowLines columns)

theorem width_fill (align : Align) (width : Nat) (line : List Char) :
    Text.width (fill align width line) = max width (Text.width line) := by
  cases align <;> simp only [fill, Text.width_append_blanks, Text.width_blanks_append] <;> omega

end Columns

end PortablePdb.CommandLine
