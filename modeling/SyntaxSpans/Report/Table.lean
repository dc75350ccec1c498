import SyntaxSpans.Report.Cell

/-!
# Tables in a terminal

Rows of cells under a heavy header, each column as wide as its widest cell asks for.
-/

namespace SyntaxSpans

structure Table where
  headers : List Text
  rows : List (List Text)

namespace Table

def widths (rows : List (List Text)) : List Nat :=
  rows.foldl (fun ws row => List.zipWith max ws (row.map Cell.measured))
    (((rows.head?).getD []).map Cell.measured)

/-- One line of a row: the cells, which fill their columns, between bars. -/
def cellLine (bar : Char) (cells : List Text) : Text :=
  bar :: cells.flatMap (fun cell => ' ' :: cell ++ [' ', bar]) ++ ['\n']

/-- The lines of a row; cells with fewer lines than others are filled up with empty ones. -/
def rowLines (bar : Char) (widths : List Nat) (row : List Text) : Text :=
  let cells := List.zipWith (fun w cell => (w, Cell.layout w cell)) widths row
  let height := (cells.map (·.2.length)).foldl max 1
  (List.range height).flatMap fun i =>
    cellLine bar (cells.map fun (w, lines) => (lines[i]?).getD (Text.blanks w))

def rule (left line cross right : Char) (widths : List Nat) : Text :=
  let bars := widths.map fun w => List.replicate (w + 2) line
  left :: [cross].intercalate bars ++ [right, '\n']

def render (t : Table) : Text :=
  let header := t.headers.map Cell.withoutControls
  let rows := t.rows.map (·.map Cell.withoutControls)
  let ws := widths (header :: rows)
  rule '┏' '━' '┳' '┓' ws ++ rowLines '┃' ws header ++ rule '┡' '━' '╇' '┩' ws
    ++ rows.flatMap (rowLines '│' ws) ++ rule '└' '─' '┴' '┘' ws

end Table

end SyntaxSpans
