import GrantCatalog.Text.Columns

/-!
# Tables

A table is drawn with ASCII lines: a frame around it, a double rule under the header, and a rule
between any two rows. Every column is as wide as the widest line in it, with a blank on either
side; a line feed in a cell starts another line of the row.

`GrantCatalog.Table.render` gives the lines without a final line feed.
-/

namespace GrantCatalog

/-- A header and rows with as many cells. -/
structure Table where
  /-- The titles of the columns. -/
  header : List String
  /-- The rows. -/
  rows : List (List String)
  deriving DecidableEq, Repr, Inhabited

namespace Table

/-- The lines of a cell. -/
def cellLines (cell : String) : List (List Char) := cell.toList.splitOn '\n'

/-- The width of a cell: that of its widest line. -/
def cellWidth (cell : String) : Nat :=
  (cellLines cell).foldl (fun w line => max w (Text.columns line)) 0

/-- The greater one of two widths in each column. -/
def maxWidths (ws : List Nat) (row : List String) : List Nat :=
  List.zipWith max ws (row.map cellWidth)

/-- The widths of the columns. -/
def widths (t : Table) : List Nat := t.rows.foldl maxWidths (t.header.map cellWidth)

/-- A horizontal rule: its ends, what it is drawn with, and what it has between two columns. -/
def rule (ends fill between : Char) (ws : List Nat) : List Char :=
  ends :: [between].intercalate (ws.map fun w => .replicate (w + 2) fill) ++ [ends]

/-- One line of a cell, filled up to the width of the column. -/
def padded (w : Nat) (line : List Char) : List Char :=
  ' ' :: line ++ .replicate (w - Text.columns line) ' ' ++ [' ']

/-- The lines of a row. -/
def rowLines (ws : List Nat) (row : List String) : List (List Char) :=
  let cells := row.map cellLines
  let height := cells.foldl (fun h lines => max h lines.length) 0
  (List.range height).map fun i =>
    '|' :: ['|'].intercalate (List.zipWith (fun w lines => padded w (lines.getD i [])) ws cells)
      ++ ['|']

/-- The lines of a table. -/
def lines (t : Table) : List (List Char) :=
  let ws := t.widths
  [rule '+' '-' '+' ws] ++ rowLines ws t.header ++ [rule '+' '=' '=' ws]
    ++ [rule '|' '-' '+' ws].intercalate (t.rows.map (rowLines ws)) ++ [rule '+' '-' '+' ws]

/-- **The text of a table.** -/
def render (t : Table) : String := .ofList (['\n'].intercalate t.lines)

end Table

end GrantCatalog
