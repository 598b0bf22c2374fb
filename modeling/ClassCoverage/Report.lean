import ClassCoverage.Charset
import ClassCoverage.Metadata.File
import ClassCoverage.Report.Html
import ClassCoverage.Report.Table
import ClassCoverage.Report.Xml

/-! Report runs. Formats and encoding are looked at before any data is read, and nothing is written
unless the data could be loaded. -/
namespace ClassCoverage.Report

def render (format : Format) (context : Context) : String :=
  match format with
  | .html => Html.render context
  | .xml => Xml.render context
  | .summaryXml => Xml.renderSummary context
  | .txt => Table.render context

/-- Writes one document into a directory. -/
def writeFormat [Charset.Coders] (charset : Charset) (context : Context) (directory : Path)
    (format : Format) : Action Path := do
  let path := directory.join ⟨format.fileName⟩
  Action.change "write report" path (·.write path (charset.encode (render format context).toList))
  return path

/-- Writes documents in the given order, in the encoding of the context. -/
def renderAll [Charset.Coders] (context : Context) (formats : List Format) (directory : Path) :
    Action (List Path) := do
  let charset ← Action.ofExcept id (Charset.ofReportLabel context.encoding)
  Action.change "create report directory" directory (·.makeDirectories directory)
  formats.mapM (writeFormat charset context directory)

structure Options where
  metadataFile : Path := Metadata.usualFile
  sourceRoots : List Path := [⟨"src/main/java"⟩]
  outputDirectory : Path := ⟨"target/jarcov/site"⟩
  formats : List String := []
  encoding : String := Charset.defaultLabel
  alternates : List String := [".as", ".mxml"]
  dispatch : Dispatch := .all
  deriving DecidableEq, Repr

/-- The label documents declare: the one given, unless it is blank. -/
def declaredLabel (label : String) : String :=
  if (Text.trim Text.isBlank label.toList).isEmpty then Charset.defaultLabel else label

/-- Renders the selected reports and answers the files written. -/
def run [Charset.Coders] (options : Options) (now : Moment) : Action (List Path) := do
  let requested ← Action.ofExcept id (Format.ofNames options.formats)
  let _ ← Action.ofExcept id (Charset.ofReportLabel options.encoding)
  let selected := options.dispatch.select requested
  if selected.isEmpty then return []
  match ← Metadata.load options.metadataFile with
  | none => return []
  | some store =>
    let disk ← get
    let lookup :=
      { SourceLookup.ofExisting options.sourceRoots disk with alternates := options.alternates }
    let context := {
      store := store
      classes := summarize store lookup disk
      encoding := declaredLabel options.encoding
      generatedAt := now }
    renderAll context selected options.outputDirectory

end ClassCoverage.Report
