import ClassCoverage.Report.Context

/-! Reports in XML. The document is a list of tags, one on each line; attribute values and texts are
escaped where they are written and nowhere else. -/
namespace ClassCoverage.Report.Xml

abbrev Attributes := List (String × String)

inductive Tag where
  | start (depth : Nat) (name : String) (attributes : Attributes)
  | whole (depth : Nat) (name : String) (attributes : Attributes)
  | text (depth : Nat) (name : String) (content : String)
  | finish (depth : Nat) (name : String)
  deriving DecidableEq, Repr

def escapeChar : Char → List Char
  | '&' => "&amp;".toList
  | '<' => "&lt;".toList
  | '>' => "&gt;".toList
  | '"' => "&quot;".toList
  | '\'' => "&apos;".toList
  | char => [char]

def escape (text : String) : String := Text.onChars (Text.substitute escapeChar) text

def attributeText (pair : String × String) : String :=
  " " ++ pair.1 ++ "=\"" ++ escape pair.2 ++ "\""

def attributesText (attributes : Attributes) : String :=
  String.join (attributes.map attributeText)

def indent (depth : Nat) : String := String.ofList (List.replicate (2 * depth) ' ')

def Tag.line : Tag → String
  | .start depth name attributes =>
    indent depth ++ "<" ++ name ++ attributesText attributes ++ ">\n"
  | .whole depth name attributes =>
    indent depth ++ "<" ++ name ++ attributesText attributes ++ "/>\n"
  | .text depth name content =>
    indent depth ++ "<" ++ name ++ ">" ++ escape content ++ "</" ++ name ++ ">\n"
  | .finish depth name => indent depth ++ "</" ++ name ++ ">\n"

def rateText (rate : Float) : String := Decimal.fixed 4 rate

def version : String := "0.1.0"

def coverageAttributes (context : Context) : Attributes :=
  let store := context.store
  [("line-rate", rateText store.lineRate), ("branch-rate", rateText store.branchRate),
    ("lines-covered", toString store.linesCovered), ("lines-valid", toString store.totalLines),
    ("branches-covered", toString store.branchesCovered),
    ("branches-valid", toString store.totalBranches),
    ("complexity", toString context.totalComplexity), ("version", version),
    ("timestamp", toString context.generatedAt)]

def declaration (context : Context) : String :=
  "<?xml version=\"1.0\" encoding=\"" ++ escape context.encoding ++ "\"?>\n"

def lineTag (record : Record) (counter : LineCounter) : Tag :=
  let arms := record.branches.filter fun branch => branch.line = counter.line
  let common := [("number", toString counter.line), ("hits", toString counter.hits)]
  if arms.isEmpty then .whole 6 "line" (common ++ [("branch", "false")])
  else
    let taken := arms.countP BranchCounter.taken
    .whole 6 "line" (common ++ [("branch", "true"),
      ("condition-coverage", s!"{percent (ratio taken arms.length)}% ({taken}/{arms.length})")])

def classTags (record : Option Record) (summary : ClassSummary) : List Tag :=
  let complexity := match summary.stats with
    | some stats => stats.complexity
    | none => 0
  let lines := match record with
    | some record => record.lines.map (lineTag record)
    | none => []
  [.start 4 "class" [("name", summary.name), ("filename", summary.fileName),
      ("line-rate", rateText summary.lineRate), ("branch-rate", rateText summary.branchRate),
      ("complexity", toString complexity)],
    .start 5 "lines" []] ++ lines ++ [.finish 5 "lines", .finish 4 "class"]

def complexities (classes : List ClassSummary) : List Nat :=
  classes.filterMap fun summary => summary.stats.map SourceStats.complexity

def packageTags (store : Store) (package : String) (classes : List ClassSummary) : List Tag :=
  let total (count : ClassSummary → Nat) := (classes.map count).sum
  [.start 2 "package" [("name", package),
      ("line-rate", rateText (ratio (total (·.linesCovered)) (total (·.linesValid)))),
      ("branch-rate", rateText (ratio (total (·.branchesCovered)) (total (·.branchesValid)))),
      ("complexity", toString ((complexities classes).foldl max 0))],
    .start 3 "classes" []] ++
    classes.flatMap (fun summary => classTags (store.get? summary.name) summary) ++
    [.finish 3 "classes", .finish 2 "package"]

/-- The different roots that sources were found under. -/
def sourceRoots (context : Context) : List String :=
  distinct (context.classes.filterMap fun summary => summary.source.map fun source =>
    source.root.spelling)

def tags (context : Context) : List Tag :=
  [.start 0 "coverage" (coverageAttributes context), .start 1 "sources" []] ++
    (sourceRoots context).map (.text 2 "source") ++
    [.finish 1 "sources", .start 1 "packages" []] ++
    context.packages.flatMap (fun (package, classes) =>
    packageTags context.store package classes) ++
    [.finish 1 "packages", .finish 0 "coverage"]

def render (context : Context) : String :=
  declaration context ++ String.join ((tags context).map Tag.line)

/-- The root element alone. -/
def renderSummary (context : Context) : String :=
  declaration context ++ (Tag.whole 0 "coverage" (coverageAttributes context)).line

end ClassCoverage.Report.Xml
