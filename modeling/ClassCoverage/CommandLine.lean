import ClassCoverage.Aggregate
import ClassCoverage.Archive.Format
import ClassCoverage.CommandLine.Options

/-! Running the program on its arguments: what it prints, how it ends, and what it says about a
failure. -/
namespace ClassCoverage.CommandLine

/-- The library that the program is built with. -/
instance (priority := low) library : Archive.Library := Archive.plainLibrary

/-- The coders that the program is built with. -/
instance (priority := low) coders : Charset.Coders := Charset.asciiCoders

/-- What a run depends on besides the disk. Programs see the disk as it is at the start. -/
structure Surroundings where
  launcher : Disk → Launcher
  machine : Instrument.Machine := {}
  now : Report.Moment := 0

/-- Runs work on a disk with an empty store at the start. -/
def ofWork {α : Type} (work : Work Unit α) : Action α := do
  let (result, shop) :=
    work.run.run { disk := ← get, bench := { store := .empty, memory := () } }
  set shop.disk
  Action.ofExcept id result

def runInstrument (around : Surroundings) (arguments : InstrumentArguments) (settings : Settings) :
    Action String := do
  let program ← Action.ofExcept id (rewriterProgram arguments settings.instrument)
  let rewriter := program.rewriter (around.launcher (← get))
  let _ ← ofWork (Instrument.run around.machine (instrumentOptions arguments settings) rewriter)
  return ""

def runMerge (arguments : MergeArguments) (settings : Settings) : Action String := do
  let options := mergeOptions arguments settings
  match ← Aggregate.run options.searchPath options.fileName options.output with
  | .nothing => return ""
  | .merged files classes =>
    return s!"Merged {files} metadata files ({classes} classes) into {options.output.spelling}\n"

def runCheck (arguments : CheckArguments) (settings : Settings) : Action String := do
  match ← Check.run (checkOptions arguments settings) with
  | .skipped => return ""
  | .passed line branch => return s!"Coverage OK: line {line}%, branch {branch}%\n"

def runReport (around : Surroundings) (arguments : ReportArguments) (settings : Settings) :
    Action String := do
  let options ← Action.ofExcept id (reportOptions arguments settings)
  let written ← Report.run options around.now
  return String.join (written.map fun path => path.spelling ++ "\n")

/-- Runs a command and answers what it prints. -/
def run (around : Surroundings) (command : Command) (settings : Settings) : Action String :=
  match command with
  | .instrument arguments => runInstrument around arguments settings
  | .merge arguments => runMerge arguments settings
  | .check arguments => runCheck arguments settings
  | .report arguments => runReport around arguments settings

/-- How a run of the program ended. -/
structure Ending where
  status : Nat
  output : String := ""
  report : String := ""
  deriving DecidableEq, Repr

def versionText : String := "jarcov 0.1.0\n"

def helpText : String :=
  "Coverage instrumentation, merging, checking and reporting for JVM class files\n\n" ++
  "Usage: jarcov [--config <CONFIG>] [--verbose] <COMMAND>\n\n" ++
  "Commands:\n" ++
  "  instrument  Rewrite class files in archives and class directories to record coverage\n" ++
  "  merge       Merge every metadata file found under a directory into one\n" ++
  "  check       Fail if line or branch coverage is below a minimum\n" ++
  "  report      Render coverage reports\n"

def Refusal.message : Refusal → String
  | unknownArgument => "unexpected argument"
  | unknownCommand => "unrecognized command"
  | noCommand => "a command is needed"
  | nothingGiven => "a command is needed"
  | noValue => "an argument needs a value"
  | badValue => "an argument has an invalid value"
  | surplusValue => "an argument takes no value"
  | conflict => "arguments cannot be used together"
  | help => helpText
  | version => versionText

/-- Help and the version are no errors, everything else ends with status 2. -/
def ofRefusal : Refusal → Ending
  | .help => { status := 0, output := helpText }
  | .version => { status := 0, output := versionText }
  | refusal => { status := 2, report := s!"error: {refusal.message}\n" }

/-- A failure with what led to it, followed by one line for each piece of advice. -/
def errorReport (front : List String) (failure : Failure) : String :=
  "Error: " ++ Text.join ": " (front ++ failure.message :: failure.causes) ++ "\n" ++
    String.join (failure.advice.map fun advice => "  - " ++ advice ++ "\n")

/-- Runs the program on its arguments. -/
def perform (around : Surroundings) (arguments : List String) : StateM Disk Ending := do
  match Invocation.ofArguments arguments with
  | .error refusal => return ofRefusal refusal
  | .ok invocation =>
    match ← (Settings.load invocation.common.config).run with
    | .error failure =>
      return { status := 1, report := errorReport ["Failed to load configuration"] failure }
    | .ok loaded =>
      let settings := (loaded.map Prod.snd).getD {}
      match ← (run around invocation.command settings).run with
      | .error failure => return { status := 1, report := errorReport [] failure }
      | .ok output => return { status := 0, output := output }

end ClassCoverage.CommandLine
