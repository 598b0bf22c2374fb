import ClassCoverage.Report.Calendar
import ClassCoverage.Report.Context

/-! The report as an HTML page. A page is a list of pieces; attribute values and texts are escaped
where they are written, and only the style sheet is written as it is. -/
namespace ClassCoverage.Report.Html

inductive Piece where
  | start (name : String) (attributes : List (String × String))
  | finish (name : String)
  | text (content : String)
  | verbatim (content : String)
  deriving DecidableEq, Repr

abbrev Markup := List Piece

def escapeChar : Char → List Char
  | '&' => "&amp;".toList
  | '<' => "&lt;".toList
  | '>' => "&gt;".toList
  | '"' => "&quot;".toList
  | char => [char]

def escape (text : String) : String := Text.onChars (Text.substitute escapeChar) text

def attributeText (pair : String × String) : String :=
  " " ++ pair.1 ++ "=\"" ++ escape pair.2 ++ "\""

def Piece.write : Piece → String
  | .start name attributes => "<" ++ name ++ String.join (attributes.map attributeText) ++ ">"
  | .finish name => "</" ++ name ++ ">"
  | .text content => escape content
  | .verbatim content => content

def write (markup : Markup) : String := String.join (markup.map Piece.write)

def element (name : String) (attributes : List (String × String)) (inner : Markup) : Markup :=
  .start name attributes :: inner ++ [.finish name]

def styleLines : List String := [
  "",
  "body \x7b",
  "    font-family: -apple-system, BlinkMacSystemFont, \"Segoe UI\", Roboto, Helvetica, Arial, sans-serif;",
  "    margin: 0;",
  "    background-color: #f6f7f9;",
  "    color: #222;",
  "    padding: 20px;",
  "\x7d",
  "h1, h2 \x7b",
  "    text-align: center;",
  "\x7d",
  ".totals \x7b",
  "    text-align: center;",
  "    font-size: 1.1em;",
  "\x7d",
  "table \x7b",
  "    width: 90%;",
  "    margin: 20px auto;",
  "    border-collapse: collapse;",
  "    background-color: white;",
  "    box-shadow: 0 2px 12px rgba(0,0,0,0.08);",
  "\x7d",
  "th, td \x7b",
  "    border: 1px solid #ddd;",
  "    padding: 8px 10px;",
  "    text-align: left;",
  "\x7d",
  "th \x7b",
  "    background-color: #2f6f4f;",
  "    color: white;",
  "\x7d",
  "tr:nth-child(even) \x7b",
  "    background-color: #fafafa;",
  "\x7d",
  "td.number \x7b",
  "    text-align: right;",
  "    font-variant-numeric: tabular-nums;",
  "\x7d",
  "td.missing \x7b",
  "    color: #999;",
  "    font-style: italic;",
  "\x7d"]

def styleSheet : String := String.join (styleLines.map fun line => line ++ "\n")

/-- A whole page that declares its character set. -/
def page (title charset : String) (body : Markup) : Markup :=
  .verbatim "<!DOCTYPE html>" :: element "html" [("lang", "en")]
    (element "head" []
      ([.start "meta" [("charset", charset)],
        .start "meta" [("name", "viewport"),
        ("content", "width=device-width, initial-scale=1.0")]] ++
        element "title" [] [.text title] ++ element "style" [] [.verbatim styleSheet]) ++
      element "body" [] (element "h1" [] [.text title] ++ body))

/-- Red below `bad` percent, yellow below `good`, green from there on. -/
def cellStyle (percent bad good : Nat) : String :=
  let hue := if percent < bad then 0 else if percent < good then 60 else 120
  s!"background-color: hsl({hue}, 100%, 85%);"

def explanationList (explanations : List (String × String)) : Markup :=
  element "h2" [] [.text "Columns"] ++
    element "ul" [] (explanations.flatMap fun (column, explanation) =>
      element "li" [] (element "strong" [] [.text column, .text ": "] ++ [.text explanation]))

def badCoverage : Nat := 50

def goodCoverage : Nat := 80

def rateCell (covered valid : Nat) (rate : Float) : Markup :=
  let share := percent rate
  element "td" [("class", "number"), ("style", cellStyle share badCoverage goodCoverage)]
    [.text (toString share), .text "% (", .text (toString covered), .text "/",
      .text (toString valid), .text ")"]

def numberCell (number : Nat) : Markup :=
  element "td" [("class", "number")] [.text (toString number)]

def missingCell (words : String) : Markup := element "td" [("class", "missing")] [.text words]

def statsCells : Option SourceStats → Markup
  | some stats => numberCell stats.complexity ++ numberCell stats.lines
  | none => missingCell "-" ++ missingCell "-"

def sourceCell : Option SourceLocation → Markup
  | some location => element "td" [] [.text location.relative]
  | none => missingCell "no source available"

def classRow (summary : ClassSummary) : Markup :=
  element "tr" []
    (element "td" [] [.text summary.name] ++
      rateCell summary.linesCovered summary.linesValid summary.lineRate ++
      rateCell summary.branchesCovered summary.branchesValid summary.branchRate ++
      statsCells summary.stats ++ sourceCell summary.source)

def columnTitles : List String :=
  ["Class", "Lines", "Branches", "Complexity", "Source lines", "Source file"]

def packageTable (package : String) (classes : List ClassSummary) : Markup :=
  element "table" []
    (element "caption" [] [.text (if package.isEmpty then "(default package)" else package)] ++
      element "thead" [] (element "tr" [] (columnTitles.flatMap fun title =>
        element "th" [] [.text title])) ++
      element "tbody" [] (classes.flatMap classRow))

def explanations : List (String × String) :=
  [("Lines", "instrumented lines executed at least once"),
    ("Branches", "branch arms taken at least once"),
    ("Complexity", "one plus the decision points found in the source file"),
    ("Source lines", "physical lines of the resolved source file")]

/-- A percentage in bold, and the counts it comes from. -/
def total (covered valid : Nat) (rate : Float) : Markup :=
  element "strong" [] [.text (toString (percent rate)), .text "%"] ++
    [.text " (", .text (toString covered), .text "/", .text (toString valid), .text ")"]

def body (context : Context) : Markup :=
  let store := context.store
  element "p" [("class", "totals")]
      (.text "Line coverage: " :: total store.linesCovered store.totalLines store.lineRate ++
        .text " · Branch coverage: " :: total store.branchesCovered
          store.totalBranches store.branchRate) ++
    element "p" [("class", "totals")]
      [.text "Generated ", .text (Calendar.text context.generatedAt)] ++
    context.packages.flatMap (fun (package, classes) => packageTable package classes) ++
    explanationList explanations

def render (context : Context) : String :=
  write (page "Coverage Report" context.encoding (body context))

end ClassCoverage.Report.Html
