import ClassCoverage.Check
import ClassCoverage.CommandLine.Command
import ClassCoverage.Instrument
import ClassCoverage.Report
import ClassCoverage.Rewriter.Program
import ClassCoverage.Settings

/-! What a command does according to its arguments and the settings. An argument counts more than a
setting, a list of arguments replaces the list of the settings, and what neither of them says is as
usual. -/
namespace ClassCoverage.CommandLine

def metadataFile (argument : Option Path) (settings : Settings) : Path :=
  (argument.or settings.general.metadataFile).getD Metadata.usualFile

/-- The list of the arguments, unless there is none. -/
def chosen {α : Type} (arguments fallback : List α) : List α :=
  if arguments.isEmpty then fallback else arguments

/-- What is to be instrumented. -/
structure TargetLists where
  archives : List Path := []
  archiveSets : List ArchiveSet := []
  classDirectories : List Path := []
  deriving DecidableEq, Repr

namespace TargetLists

def isEmpty (lists : TargetLists) : Bool :=
  lists.archives.isEmpty && lists.archiveSets.isEmpty && lists.classDirectories.isEmpty

def usual : TargetLists := { classDirectories := [⟨"target/classes"⟩] }

def ofArguments (arguments : InstrumentArguments) : TargetLists where
  archives := arguments.archives
  archiveSets := arguments.archiveSets.map fun base => { baseDirectory := some base }
  classDirectories := arguments.classDirectories

def ofSettings (settings : InstrumentSettings) : TargetLists where
  archives := settings.archives
  archiveSets := settings.archiveSets
  classDirectories := settings.classDirectories

/-- The first of two that names any target. -/
def orElse (lists fallback : TargetLists) : TargetLists := if lists.isEmpty then fallback else lists

end TargetLists

def usualOutputDirectory : Path := ⟨"target/jarcov/classes"⟩

/-- The program that rewrites classes. There is no usual one. -/
def rewriterProgram (arguments : InstrumentArguments) (settings : InstrumentSettings) :
    Except Failure Program :=
  match arguments.rewriter.or settings.rewriter with
  | some path =>
    .ok { path := path, arguments := chosen arguments.rewriterArguments settings.rewriterArguments }
  | none =>
    .error (.setting "No class rewriter configured. Pass --rewriter or set instrument.rewriter")

def instrumentOptions (arguments : InstrumentArguments) (settings : Settings) :
    Instrument.Options :=
  let own := settings.instrument
  let lists :=
    (TargetLists.ofArguments arguments).orElse ((TargetLists.ofSettings own).orElse .usual)
  let inPlace := arguments.inPlace || own.inPlace.getD false
  { archives := lists.archives
    archiveSets := lists.archiveSets
    classDirectories := lists.classDirectories
    outputDirectory :=
      if inPlace then none
      else some ((arguments.outputDirectory.or own.outputDirectory).getD usualOutputDirectory)
    metadataFile := metadataFile arguments.metadataFile settings
    merge := !arguments.noMerge && own.merge.getD true
    keepDirectoryEntries := arguments.keepDirectoryEntries || own.keepDirectoryEntries.getD false
    jobs := (arguments.jobs.or own.jobs).getD 1 }

structure MergeOptions where
  searchPath : Path
  fileName : String
  output : Path
  deriving DecidableEq, Repr

def mergeOptions (arguments : MergeArguments) (settings : Settings) : MergeOptions where
  searchPath := (arguments.searchPath.or settings.merge.searchPath).getD ⟨"."⟩
  fileName := (arguments.fileName.or settings.merge.fileName).getD Metadata.usualName
  output := (arguments.output.or settings.merge.output).getD (metadataFile none settings)

def checkOptions (arguments : CheckArguments) (settings : Settings) : Check.Options where
  metadataFile := metadataFile arguments.metadataFile settings
  dataFiles := chosen arguments.dataFiles settings.check.dataFiles
  minimums := {
    line := arguments.minimumLine.or settings.check.minimumLine
    branch := arguments.minimumBranch.or settings.check.minimumBranch }

def reportOptions (arguments : ReportArguments) (settings : Settings) :
    Except Failure Report.Options := do
  let own := settings.report
  let usual : Report.Options := {}
  let dispatch ← match arguments.dispatch.or own.dispatch with
    | some name => Report.Dispatch.ofName name
    | none => pure usual.dispatch
  return {
    metadataFile := metadataFile arguments.metadataFile settings
    sourceRoots := chosen arguments.sourceRoots (chosen own.sourceRoots usual.sourceRoots)
    outputDirectory := (arguments.outputDirectory.or own.outputDirectory).getD usual.outputDirectory
    formats := chosen arguments.formats own.formats
    encoding := (arguments.encoding.or own.encoding).getD usual.encoding
    alternates := own.alternates.getD usual.alternates
    dispatch := dispatch }

end ClassCoverage.CommandLine
