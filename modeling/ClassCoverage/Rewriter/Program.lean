import ClassCoverage.Rewriter
import ClassCoverage.Rewriter.RecordFile

/-! Rewriters that are programs. A program gets the class on its input. It exits with 0 after
writing the new class to its output and a record to a file, and with 3 if it left the class alone;
anything else is a failure. -/
namespace ClassCoverage

/-- How a program ended. -/
inductive ExitStatus where
  | exited (code : Nat)
  | killed (signal : Nat)
  deriving DecidableEq, Repr

def signalNames : List String :=
  ["HUP", "INT", "QUIT", "ILL", "TRAP", "ABRT", "BUS", "FPE", "KILL", "USR1",
    "SEGV", "USR2", "PIPE",
    "ALRM", "TERM", "STKFLT", "CHLD", "CONT", "STOP", "TSTP", "TTIN", "TTOU", "URG", "XCPU", "XFSZ",
    "VTALRM", "PROF", "WINCH", "IO", "PWR", "SYS"]

def ExitStatus.message : ExitStatus → String
  | .exited code => s!"exit status: {code}"
  | .killed signal =>
    s!"signal: {signal}" ++
      match signalNames[signal - 1]? with
      | some name => s!" (SIG{name})"
      | none => ""

/-- How much of the class on its input a program took. One that ends early closes its input. -/
inductive Intake where
  | whole
  | closedEarly
  | broken (fault : Fault)
  deriving DecidableEq, Repr

/-- What a program that ran left behind. -/
structure ProgramRun where
  status : ExitStatus
  output : Bytes
  errors : Bytes
  record : Except Fault Bytes
  intake : Intake := .whole

/-- A program runs if there is a file for its record and it can be started. It is `lost` if it could
not be waited for. -/
inductive Launch where
  | unprepared (fault : Fault)
  | notFound
  | refused (fault : Fault)
  | lost (fault : Fault)
  | finished (run : ProgramRun)

/-- A program with the arguments it is always given. -/
structure Program where
  path : Path
  arguments : List String := []
  deriving DecidableEq, Repr

/-- How a program behaves when it is offered an entry, and the file it is told to write records
to. -/
structure Launcher where
  recordFile : Path
  launch : Program → (entry : String) → Bytes → Launch

namespace Program

variable {σ : Type}

/-- The record in the content of a record file. A record without a name is one of the entry. -/
def recordOf (entry : String) (content : Bytes) : Rewriting σ Record := do
  if content.all RecordFile.isBlank then
    throw (.rewriter entry "rewriter reported success but wrote no coverage record")
  match RecordFile.read content with
  | .error fault => throw (.rewriter entry ("invalid coverage record: " ++ fault.message))
  | .ok record =>
    if record.name.isEmpty then return { record with name := ← Rewriting.classNameOf entry }
    else return record

def skippedCode : Nat := 3

/-- What a run of a program means for the class it was offered. -/
def conclude (recordFile : Path) (entry : String) (bytes : Bytes) (run : ProgramRun) :
    Rewriting σ Rewritten := do
  if run.status = .exited 0 then
    match run.record with
    | .error fault => throw (.io "read rewriter record" (some recordFile) (some fault))
    | .ok content =>
      Rewriting.register (← recordOf entry content)
      return ⟨run.output, true⟩
  else if run.status = .exited skippedCode then return ⟨bytes, false⟩
  else
    let complaint := String.ofList (Text.trim Text.isBlank (Utf8.decodeLossy run.errors))
    throw (.rewriter entry (s!"rewriter exited with {run.status.message}: " ++ complaint))

/-- The failure of a program that could not be given the class or waited for. -/
def disturbed (entry : String) (fault : Fault) : Failure :=
  .rewriter entry s!"I/O with rewriter failed: {fault.message}"

/-- The rewriter that runs a program for every class. -/
def rewriter (launcher : Launcher) (program : Program) : Rewriter σ := fun entry bytes =>
  match launcher.launch program entry bytes with
  | .unprepared fault =>
    throw (.io "create record file" (some launcher.recordFile.directory) (some fault))
  | .notFound =>
    throw (.rewriter entry (s!"rewriter program '{program.path.spelling}' not found. " ++
      "Please ensure it is installed and in your PATH."))
  | .refused fault =>
    throw (.rewriter entry s!"failed to start '{program.path.spelling}': {fault.message}")
  | .lost fault => throw (disturbed entry fault)
  | .finished run =>
    match run.intake with
    | .broken fault => throw (disturbed entry fault)
    | _ => conclude launcher.recordFile entry bytes run

end Program
end ClassCoverage
