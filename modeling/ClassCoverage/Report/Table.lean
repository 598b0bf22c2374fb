import ClassCoverage.Report.Calendar
import ClassCoverage.Report.Context
import ClassCoverage.Text.Width

/-! The text report: a boxed table with one row for each class, and the totals below it. A cell
whose text has several lines makes its row as high. -/
namespace ClassCoverage.Report.Table

abbrev Cell := List (List Char)

abbrev Row := List Cell

/-- An empty cell has no line at all. -/
def cell (text : String) : Cell := SourceStats.linesOf text.toList

def cellWidth (cell : Cell) : Nat := (cell.map Text.columns).foldl max 0

def rowHeight (row : Row) : Nat := (row.map fun cell => max 1 cell.length).foldl max 0

def columnWidths : List Row → List Nat
  | [] => []
  | row :: rest =>
    let below := columnWidths rest
    let widths := row.map cellWidth
    if below.isEmpty then widths else List.zipWith max widths below

def padded (width : Nat) (text : List Char) : String :=
  String.ofList (text ++ List.replicate (width - Text.columns text) ' ')

/-- One line of a row, between the vertical strokes of the box. -/
def rowLine (widths : List Nat) (row : Row) (line : Nat) : String :=
  let fields := List.zipWith (fun width cell => padded width (cell.getD line [])) widths row
  "│ " ++ Text.join " │ " fields ++ " │\n"

def rowText (widths : List Nat) (row : Row) : String :=
  String.join ((List.range (rowHeight row)).map (rowLine widths row))

def rule (widths : List Nat) (left middle right : String) : String :=
  left ++ Text.join middle (widths.map fun width =>
    String.ofList (List.replicate (width + 2) '─')) ++
    right ++ "\n"

def boxed (titles : Row) (rows : List Row) : String :=
  let widths := columnWidths (titles :: rows)
  rule widths "┌" "┬" "┐" ++ rowText widths titles ++ rule widths "├" "┼" "┤" ++
    String.join (rows.map (rowText widths)) ++ rule widths "└" "┴" "┘"

def fraction (covered valid : Nat) (rate : Float) : String :=
  s!"{covered}/{valid} ({percent rate}%)"

def titles : Row := ["Class", "Lines", "Branches", "Complexity", "Source"].map cell

def classRow (summary : ClassSummary) : Row :=
  [cell summary.name,
    cell (fraction summary.linesCovered summary.linesValid summary.lineRate),
    cell (fraction summary.branchesCovered summary.branchesValid summary.branchRate),
    cell (match summary.stats with
      | some stats => toString stats.complexity
      | none => "-"),
    cell (match summary.source with
      | some location => location.relative
      | none => "(no source available)")]

def totals (store : Store) : String :=
  let lines := fraction store.linesCovered store.totalLines store.lineRate
  let branches := fraction store.branchesCovered store.totalBranches store.branchRate
  s!"\nTotal: {store.size} classes, lines {lines}, branches {branches}\n"

def render (context : Context) : String :=
  "Coverage report generated " ++ Calendar.text context.generatedAt ++ "\n\n" ++
    boxed titles (context.classes.map classRow) ++ totals context.store

end ClassCoverage.Report.Table
