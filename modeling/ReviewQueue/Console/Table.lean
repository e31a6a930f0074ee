import ReviewQueue.Text.Blank
import ReviewQueue.Text.Upper
import ReviewQueue.Text.Width

/-! Tables in plain text.

Every column is as wide as its widest cell, cells are filled with blanks on the right, and two
blanks follow each. A cell of several lines makes a row of several lines. -/

namespace ReviewQueue.Console

/-- A table: the names of its columns, and its rows. -/
structure Table where
  headers : List String
  rows : List (List String)
  deriving DecidableEq, Repr

namespace Table

/-- The lines of a cell. -/
def cellLines (cell : String) : List String :=
  (cell.toList.splitOn '\n').map .ofList

/-- The name of a column as it is shown. -/
def title (name : String) : String :=
  Text.upper (.ofList (name.toList.map fun c => if c = '_' then ' ' else c))

/-- A row with exactly as many cells as there are columns. -/
def fitRow (columns : Nat) (row : List String) : List String :=
  row ++ List.replicate (columns - row.length) ""

/-- The lines that a row is shown as, each a list of cells. -/
def rowLines (columns : Nat) (row : List String) : List (List String) :=
  let cells := (fitRow columns row).map fun c => cellLines (Text.trimmed c)
  let height := cells.foldl (fun h lines => max h lines.length) 1
  (List.range height).map fun i => cells.map fun lines => lines[i]?.getD ""

/-- The widths of the columns. -/
def widths (columns : Nat) (lines : List (List String)) : List Nat :=
  (List.range columns).map fun i =>
    lines.foldl (fun w cells => max w (Text.width (cells[i]?.getD ""))) 0

/-- One line of the table. -/
def lineText (widths : List Nat) (cells : List String) : List Char :=
  (List.zip widths cells).flatMap fun (w, cell) =>
    cell.toList ++ List.replicate (w - Text.width cell + 2) ' '

/-- The text of a table. -/
def text (t : Table) : String :=
  let columns := t.rows.foldl (fun n row => max n row.length) t.headers.length
  let lines := (t.headers.map title :: t.rows).flatMap (rowLines columns)
  let ws := widths columns lines
  .ofList (lines.flatMap fun cells => lineText ws cells ++ ['\n'])

end Table
end ReviewQueue.Console
