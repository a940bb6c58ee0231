import MessageHarvest.Layout.Line

/-!
# Tables

A table has a title, a header and rows. Each column is as wide as its widest cell. A cell whose
text has several lines takes several lines of the table.
-/

namespace MessageHarvest.Layout

/-- A table; each row has a cell for each one of the header. -/
structure Table where
  title : List Char
  header : List (List Char)
  rows : List (List (List Char))
  deriving DecidableEq, Repr

namespace Table

/-! ## Widths -/

/-- The width of the widest line of a text. -/
def measure (text : List Char) : Nat :=
  ((Text.splitBy Text.endsLine (printable text)).map CellWidth.total).foldl max 0

/-- The width of each column. -/
def widths (t : Table) : List Nat :=
  t.rows.foldl (fun ws row => List.zipWith max ws (row.map measure)) (t.header.map measure)

/-- The width of a table with columns of these widths. -/
def totalWidth (ws : List Nat) : Nat :=
  ws.foldr (fun w rest => w + 3 + rest) 1

/-! ## Lines -/

/-- What stands between the cells of a line, and at its ends. -/
structure Borders where
  left : Char
  between : Char
  right : Char

/-- A line of cells. -/
def joinCells (b : Borders) (cells : List (List Char)) : List Char :=
  b.left :: [b.between].intercalate cells ++ [b.right]

/-- A line that parts rows. -/
def rule (b : Borders) (stroke : Char) (ws : List Nat) : List Char :=
  joinCells b (ws.map fun w => List.replicate (w + 2) stroke)

/-- The lines of a cell, all of the same width. -/
def cellLines (width : Nat) (text : List Char) : List (List Char) :=
  (lines .ellipsis width text).map (pad width)

/-- The lines of a row. A cell that has fewer lines than another is empty below. -/
def rowLines (b : Borders) (ws : List Nat) (row : List (List Char)) : List (List Char) :=
  let blocks := List.zipWith (fun w text => (w, cellLines w text)) ws row
  let height := (blocks.map fun block => block.2.length).foldl max 1
  (List.range height).map fun i =>
    joinCells b (blocks.map fun (w, cell) => ' ' :: cell.getD i (blanks w) ++ [' '])

/-- A line in the middle of so many cells. -/
def center (width : Nat) (line : List Char) : List Char :=
  let line := Text.trimEnd line
  pad width (blanks ((width - CellWidth.total line) / 2) ++ line)

/-- The lines of the title over a table of this width. -/
def titleLines (width : Nat) (title : List Char) : List (List Char) :=
  (lines .fold width title).map (center width)

/-- The lines of a table. -/
def render (t : Table) : List (List Char) :=
  let ws := t.widths
  titleLines (totalWidth ws) t.title ++
    [rule ⟨'┏', '┳', '┓'⟩ '━' ws] ++
    rowLines ⟨'┃', '┃', '┃'⟩ ws t.header ++
    [rule ⟨'┡', '╇', '┩'⟩ '━' ws] ++
    t.rows.flatMap (rowLines ⟨'│', '│', '│'⟩ ws) ++
    [rule ⟨'└', '┴', '┘'⟩ '─' ws]

end Table

end MessageHarvest.Layout
