import TreeNav.Text.Pieces
import TreeNav.Text.Width

/-!
Tables in a box with rounded corners. A column is as wide as its widest cell, with a blank
on either side of it. A cell of several lines makes its row as many lines high. Other
borders, alignments and limits to the width are left out.
-/
namespace TreeNav.BoxTable

/-- The lines of a cell. A cell without a line end has one. -/
def linesOf (content : String) : List String :=
  (Text.pieces '\n' content.toList).map String.ofList

/-- The largest of some numbers, or zero. -/
def largest (numbers : List Nat) : Nat := numbers.foldl max 0

/-- The width of a cell, which is that of its widest line. -/
def cellWidth (content : String) : Nat := largest ((linesOf content).map Text.displayWidth)

/-- The widths of the columns, counted in terminal columns. -/
def columnWidths : List (List String) → List Nat
  | [] => []
  | [row] => row.map cellWidth
  | row :: rows => List.zipWith max (row.map cellWidth) (columnWidths rows)

/-- A text repeated. -/
def times (n : Nat) (text : String) : String := String.join (List.replicate n text)

/-- A horizontal line with the given ends and crossings. -/
def rule (left crossing right : String) (widths : List Nat) : String :=
  left ++ String.intercalate crossing (widths.map fun w => times (w + 2) "─") ++ right

/-- A line of a cell filled up with blanks to the width of its column. -/
def fill (width : Nat) (content : String) : String :=
  " " ++ content ++ times (width - Text.displayWidth content) " " ++ " "

/-- One line across all columns. -/
def line (widths : List Nat) (contents : List String) : String :=
  "│" ++ String.intercalate "│" (List.zipWith fill widths contents) ++ "│"

/-- The lines of a row. Cells with fewer lines than others end in empty ones. -/
def rowLines (widths : List Nat) (row : List String) : List String :=
  let cells := row.map linesOf
  (List.range (largest (cells.map List.length))).map fun i =>
    line widths (cells.map fun lines => lines.getD i "")

/-- The text of a table with a line under its headings. -/
def render (headings : List String) (rows : List (List String)) : String :=
  let widths := columnWidths (headings :: rows)
  String.intercalate "\n" <|
    [rule "╭" "┬" "╮" widths] ++ rowLines widths headings ++ [rule "├" "┼" "┤" widths] ++
    rows.flatMap (rowLines widths) ++ [rule "╰" "┴" "╯" widths]

end TreeNav.BoxTable
