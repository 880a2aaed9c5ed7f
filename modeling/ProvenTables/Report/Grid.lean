import ProvenTables.Text.Width

/-!
# Framed tables

A header and rows of texts in a frame. A text may have several lines, and a column is as wide as its
widest line.
-/

namespace ProvenTables

/-- A header and rows of texts that are drawn as a table. -/
structure Grid where
  header : List String
  rows : List (List String)

namespace Grid

/-- The lines of the text in a cell. -/
def cellLines (s : String) : List (List Char) := Text.splitBy (· == '\n') s.toList

/-- The width of a cell: that of its widest line. -/
def cellWidth (s : String) : Nat := ((cellLines s).map Text.width).foldl max 0

/-- The widths of columns that are at least as wide as the cells of a row. -/
def widen (widths : List Nat) (row : List String) : List Nat :=
  List.zipWith (fun w s => max w (cellWidth s)) widths row

/-- The widths of the columns, each at least one. -/
def widths (g : Grid) : List Nat := (g.header :: g.rows).foldl widen (g.header.map fun _ => 1)

/-- A text filled up with blanks, with a blank on either side. -/
def padded (width : Nat) (cs : List Char) : String :=
  String.ofList (' ' :: (cs ++ List.replicate (width - Text.width cs + 1) ' '))

/-- The lines of a row, as many as its highest cell has. -/
def rowLines (widths : List Nat) (row : List String) : List String :=
  let cells := row.map cellLines
  let height := (cells.map List.length).foldl max 0
  (List.range height).map fun i =>
    "│" ++ "┆".intercalate (List.zipWith (fun w c => padded w (c.getD i [])) widths cells) ++ "│"

/-- A line across the grid: its ends, what it is made of and where it meets the columns. -/
def rule (widths : List Nat) (left fill cross right : String) : String :=
  left ++ cross.intercalate (widths.map fun w => String.join (List.replicate (w + 2) fill)) ++ right

/-- The lines of a drawn table. -/
def lines (g : Grid) : List String :=
  let ws := g.widths
  [rule ws "╭" "─" "┬" "╮"] ++ rowLines ws g.header ++ [rule ws "╞" "═" "╪" "╡"] ++
    List.intercalate [rule ws "├" "╌" "┼" "┤"] (g.rows.map (rowLines ws)) ++
    [rule ws "╰" "─" "┴" "╯"]

/-- The text of a drawn table. -/
def render (g : Grid) : String := "\n".intercalate g.lines

end Grid

end ProvenTables
