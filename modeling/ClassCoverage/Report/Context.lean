import ClassCoverage.Store
import ClassCoverage.Report.Format
import ClassCoverage.SourceLookup
import ClassCoverage.SourceStats

/-! What every report shows: one summary for each class of a store, in name order, grouped by
package. A source file is read once however many classes share it. -/
namespace ClassCoverage.Report

structure ClassSummary where
  name : String
  package : String
  source : Option SourceLocation
  stats : Option SourceStats
  linesValid : Nat
  linesCovered : Nat
  branchesValid : Nat
  branchesCovered : Nat
  deriving DecidableEq, Repr

namespace ClassSummary

def lineRate (summary : ClassSummary) : Float := ratio summary.linesCovered summary.linesValid

def branchRate (summary : ClassSummary) :
    Float := ratio summary.branchesCovered summary.branchesValid

/-- The source file found, or the one the class name stands for. -/
def fileName (summary : ClassSummary) : String :=
  match summary.source with
  | some location => location.relative
  | none => ClassName.sourceFile summary.name ClassName.sourceExtension

def ofRecord (record : Record) (source : Option SourceLocation) (stats : Option SourceStats) :
    ClassSummary where
  name := record.name
  package := record.packageName
  source := source
  stats := stats
  linesValid := record.lines.length
  linesCovered := record.linesCovered
  branchesValid := record.branches.length
  branchesCovered := record.branchesCovered

end ClassSummary

/-- The statistics of a file that was to be read, if it could be. -/
def statsOf (content : Except Fault Bytes) : Option SourceStats :=
  content.toOption.map fun bytes => SourceStats.ofText (Utf8.decodeLossy bytes)

/-- What is known about the source files read so far. -/
abbrev StatsCache := List (List Path.Part × Option SourceStats)

section
variable (find : Record → Option SourceLocation) (read : Path → Except Fault Bytes)

def cachedStats (path : Path) (cache : StatsCache) : Option SourceStats × StatsCache :=
  match cache.lookup path.parts with
  | some stats => (stats, cache)
  | none =>
    let stats := statsOf (read path)
    (stats, (path.parts, stats) :: cache)

def summarizeRecord (record : Record) (cache : StatsCache) : ClassSummary × StatsCache :=
  match find record with
  | none => (.ofRecord record none none, cache)
  | some location =>
    let (stats, cache) := cachedStats read location.path cache
    (.ofRecord record (some location) stats, cache)

def summarizeRecords : List Record → StatsCache → List ClassSummary
  | [], _ => []
  | record :: rest, cache =>
    let (summary, cache) := summarizeRecord find read record cache
    summary :: summarizeRecords rest cache

/-- Summaries of classes whose source files are found and read in these ways. -/
def summarizeWith (store : Store) : List ClassSummary := summarizeRecords find read store.records []

end

def summarize (store : Store) (lookup : SourceLookup) (disk : Disk) : List ClassSummary :=
  summarizeWith (lookup.resolveRecord disk) disk.read store

/-- Puts a text at its place in byte order, unless it is there already. -/
def insertText (text : String) : List String → List String
  | [] => [text]
  | other :: rest =>
    if text < other then text :: other :: rest
    else if text = other then other :: rest
    else other :: insertText text rest

/-- The different texts of a list in byte order. -/
def distinct (texts : List String) : List String := texts.foldr insertText []

/-- A moment in milliseconds after the start of 1970. -/
abbrev Moment := Int

structure Context where
  store : Store
  classes : List ClassSummary
  encoding : String
  generatedAt : Moment

namespace Context

/-- Classes grouped by package, packages in byte order and classes in name order. -/
def packages (context : Context) : List (String × List ClassSummary) :=
  (distinct (context.classes.map ClassSummary.package)).map fun package =>
    (package, context.classes.filter fun summary => summary.package = package)

/-- Adds the complexity of a source file in the place of what is known of it. -/
def countFile (files : List (List Path.Part × Nat)) (summary : ClassSummary) :
    List (List Path.Part × Nat) :=
  match summary.source, summary.stats with
  | some location, some stats =>
    let parts := location.path.parts
    (parts, stats.complexity) :: files.filter fun file => file.1 ≠ parts
  | _, _ => files

/-- The complexities of the different source files, added up. -/
def totalComplexity (context : Context) : Nat :=
  ((context.classes.foldl countFile []).map Prod.snd).sum

end Context
end ClassCoverage.Report
