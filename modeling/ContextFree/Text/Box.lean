import ContextFree.Text.Width

/-!
# Boxed tables

A table is drawn in a frame with rounded corners, the first row set apart from the others:

    ╭────┬─────────────╮
    │    │ Productions │
    ├────┼─────────────┤
    │ →S │ a | SS      │
    ╰────┴─────────────╯

Cells stand to the left, with one blank on either side, and a column is as wide as the widest
line of its cells. A cell may have several lines; a row is then as high as its highest cell.
-/

namespace ContextFree

namespace Text

def cellLines (cell : String) : List String :=
  (cell.toList.splitOnP (· = '\n')).map String.ofList

def largest (ns : List Nat) : Nat := ns.foldl max 0

/-- The width of each column, the number of columns being that of the first row. -/
def columnWidths (rows : List (List String)) : List Nat :=
  (List.range (rows.headD []).length).map fun j =>
    largest (rows.flatMap fun row => (cellLines (row.getD j "")).map width)

def horizontalRule (left crossing right : String) (widths : List Nat) : String :=
  left ++ crossing.intercalate (widths.map fun w => "".pushn '─' (w + 2)) ++ right

/-- One line of a cell, filled up to the width of its column. -/
def padded (w : Nat) (line : String) : String := line.pushn ' ' (w - width line)

def rowLines (widths : List Nat) (row : List String) : List String :=
  let cells := row.map cellLines
  (List.range (largest (cells.map (·.length)))).map fun i =>
    "│ " ++ " │ ".intercalate (widths.zipWith (fun w cell => padded w (cell.getD i "")) cells) ++
      " │"

/-- The table of the given rows, the first of which is its heading. -/
def boxed (rows : List (List String)) : String :=
  let widths := columnWidths rows
  "\n".intercalate <|
    [horizontalRule "╭" "┬" "╮" widths] ++
    (rows.take 1).flatMap (rowLines widths) ++
    [horizontalRule "├" "┼" "┤" widths] ++
    (rows.drop 1).flatMap (rowLines widths) ++
    [horizontalRule "╰" "┴" "╯" widths]

end Text

end ContextFree
