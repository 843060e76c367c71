import ReportDesk.Display.Arrangement
import ReportDesk.Report.Status
import ReportDesk.Workbook.Solve

/-!
# The tables of the command line
-/

namespace ReportDesk.Display

/-!
## Tables drawn with lines

A column is as wide as its widest line, unless the table would grow too wide;
then long lines are wrapped.  Only the header is ruled off; the corners are
round.  Every character counts as one place.
-/

inductive Alignment where
  | left
  | center
  | right
deriving DecidableEq, Repr

structure Grid where
  columns : List (String × Alignment)
  rows : List (List String)

namespace Grid

def spaces (n : Nat) : String :=
  String.ofList (List.replicate n ' ')

/--
A line at its place in a column; an odd place in the middle goes to the left.
-/
def align (alignment : Alignment) (width : Nat) (line : List Char) : String :=
  let free := width - line.length
  let text := String.ofList line
  match alignment with
  | .left => text ++ spaces free
  | .right => spaces free ++ text
  | .center => spaces ((free + 1) / 2) ++ text ++ spaces (free / 2)

def linesOf (text : String) : List (List Char) :=
  Text.splitAt '\n' text.toList

def totalWidth : Nat := 120

def room (g : Grid) : Nat :=
  totalWidth - (3 * g.columns.length + 1)

def widths (g : Grid) : List Nat :=
  let rows := g.columns.map Prod.fst :: g.rows
  GridColumn.widths g.room <| g.columns.zipIdx.map fun (_, index) =>
    rows.flatMap fun row => linesOf (row.getD index "")

def rule (widths : List Nat) (left stroke joint right : String) : String :=
  let strokes :=
    widths.map fun width => String.join (List.replicate (width + 2) stroke)
  left ++ String.intercalate joint strokes ++ right

def rowLines (g : Grid) (widths : List Nat) (row : List String) : List String :=
  let cells := (g.columns.zip widths).zipIdx.map fun ((column, width), index) =>
    ((linesOf (row.getD index "")).flatMap (wrap width)).map
      (align column.2 width)
  let height := (cells.map List.length).foldl max 1
  let filled := (cells.zip widths).map fun (lines, width) =>
    lines ++ List.replicate (height - lines.length) (spaces width)
  (List.range height).map fun line =>
    "│ " ++ String.intercalate " ┆ "
      (filled.map fun lines => lines.getD line "") ++ " │"

def lines (g : Grid) : List String :=
  let widths := g.widths
  [rule widths "╭" "─" "┬" "╮"] ++ g.rowLines widths (g.columns.map Prod.fst) ++
    [rule widths "╞" "═" "╪" "╡"] ++ g.rows.flatMap (g.rowLines widths) ++
    [rule widths "╰" "─" "┴" "╯"]

def render (g : Grid) : String :=
  String.intercalate "\n" g.lines

end Grid

/-! ## Overviews -/

def solvedRowCells (row : Workbook.SolvedRow) : List (List String) :=
  let id := (row.id.map RowId.text).getD ""
  match row.values with
  | [] => [[id, "-", "nothing solved"]]
  | values => values.map fun (column, value) => [id, column, value]

def solvedGrid (rows : List Workbook.SolvedRow) : Grid where
  columns := [("Row", .right), ("Column", .left), ("Value", .left)]
  rows := rows.flatMap solvedRowCells

def dependencyGrid (counts : List Workbook.ColumnDependencies) : Grid where
  columns := [("Column", .left), ("Dependencies", .right), ("Formula", .left)]
  rows := counts.map fun c => [c.column, Nat.repr c.dependencies, c.formula]

def functionGrid : Grid where
  columns := [("Function", .left), ("Operands", .left), ("Description", .left)]
  rows := Formula.Function.all.map fun f => [f.name, f.arity.text, f.summary]

def flagText (value : Bool) : String :=
  if value then "yes" else "-"

def statusGrid : Grid where
  columns :=
    [("Status", .left), ("Editable", .center), ("Send", .center),
     ("Submit", .center), ("Refresh", .center), ("Final", .center)]
  rows := Report.Status.all.map fun status =>
    [status.text, flagText status.isEditable, flagText status.canBeSent,
     flagText status.canBeSubmitted, flagText status.canBeRefreshed,
     flagText status.isFinalized]

end ReportDesk.Display
