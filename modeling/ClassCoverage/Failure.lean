import ClassCoverage.Disk
import ClassCoverage.Metadata

/-! Failed operations: what failed, on what, and why. Each kind has its own wording and its own
advice, and an archive failure says where the archive was preserved. -/
namespace ClassCoverage

/-- `wrapped` is any other failure that stopped the rewriting of an archive. A `cause` is the
wording of a fault found by a reader of some other format. -/
inductive Failure where
  | io (operation : String) (path : Option Path) (fault : Option Fault)
  | archive (path : Path) (backup : Option Path) (message : String) (cause : Option String)
  | wrapped (path : Path) (backup : Path) (failure : Failure)
  | metadata (path : Option Path) (message : String) (cause : Option String)
  | conflict (className : String) (message : String)
  | rewriter (entry : String) (message : String)
  | configuration (path : Option Path) (message : String) (cause : Option String)
  | threshold (metric : String) (expected : Nat) (actual : Nat)
  deriving DecidableEq, Repr

namespace Failure

def ofConflict (conflict : Conflict) : Failure :=
  .conflict conflict.className conflict.mismatch.message

def ofProblem (path : Path) (problem : Metadata.Problem) : Failure :=
  .metadata (some path) problem.message none

def setting (message : String) : Failure := .configuration none message none

/-- A fault met where no operation was named. -/
def ofFault (fault : Fault) : Failure := .io "file operation" none (some fault)

def ofPayloadFault (fault : Metadata.PayloadFault) : Failure :=
  .metadata none ("Failed to encode/decode coverage data: " ++ fault.message) (some fault.message)

/-- A text that is not TOML, with what the reader says about it. -/
def ofToml (fault : String) : Failure :=
  .configuration none ("Failed to parse TOML: " ++ fault) (some fault)

/-- A text that is not JSON, with what the reader says about it. -/
def ofJson (fault : String) : Failure :=
  .metadata none ("Failed to parse/serialize JSON: " ++ fault) (some fault)

def traversal (root : Path) (fault : Fault) : Failure :=
  .io "directory traversal" (some root) (some fault)

/-- The name of the kind of failure. -/
def kind : Failure → String
  | io .. => "IoError"
  | archive .. => "ArchiveError"
  | wrapped .. => "ArchiveError"
  | metadata .. => "MetadataError"
  | conflict .. => "MergeConflict"
  | rewriter .. => "RewriteError"
  | configuration .. => "ConfigError"
  | threshold .. => "ThresholdError"

def archiveMessage (path : Path) (backup : Option Path) (message : String) : String :=
  s!"Failed to rewrite archive '{path.spelling}': {message}" ++
    match backup with
    | some copy => s!" (original preserved at '{copy.spelling}')"
    | none => ""

/-- The text of `label` with the path it is about, if there is one. -/
def located (label : String) (preposition : String) (path : Option Path) : String :=
  match path with
  | some path => s!"{label} {preposition}'{path.spelling}'"
  | none => label

def message : Failure → String
  | io operation path fault =>
    located ("IO error during '" ++ operation ++ "'") "at " path ++
      match fault with
      | some fault => s!": {fault.message}"
      | none => ""
  | archive path backup message _ => archiveMessage path backup message
  | wrapped path backup failure => archiveMessage path (some backup) failure.message
  | metadata path message _ => located "Corrupt coverage metadata" "" path ++ ": " ++ message
  | conflict className message =>
    s!"Cannot merge coverage records for class '{className}': {message}"
  | rewriter entry message => s!"Class rewriter failed on '{entry}': {message}"
  | configuration path message _ => located "Configuration error" "in " path ++ ": " ++ message
  | threshold metric expected actual =>
    s!"Expected a {metric} coverage of at least {expected}% but got {actual}%"

/-- What the failure was caused by, the nearest cause first. -/
def causes : Failure → List String
  | io _ _ fault => fault.toList.map Fault.message
  | archive _ _ _ cause => cause.toList
  | wrapped _ _ failure => failure.message :: failure.causes
  | metadata _ _ cause => cause.toList
  | configuration _ _ cause => cause.toList
  | conflict .. => []
  | rewriter .. => []
  | threshold .. => []

def archiveAdvice (backup : Option Path) : List String :=
  "Check that the archive is a valid zip/jar file" ::
    backup.toList.map fun copy =>
      s!"The original archive was preserved at '{copy.spelling}'; copy it back before retrying"

def advice : Failure → List String
  | io operation _ _ =>
    ["Check that the path exists and is accessible", "Verify you have the necessary permissions"] ++
      if Text.contains "read".toList operation.toList ||
        Text.contains "open".toList operation.toList
      then ["Ensure the file is not locked by another process"] else []
  | archive _ backup _ _ => archiveAdvice backup
  | wrapped _ backup _ => archiveAdvice (some backup)
  | metadata .. =>
    ["Delete the metadata file and re-run instrumentation",
      "Ensure the file was written by a compatible jarcov version"]
  | conflict className _ =>
    [s!"Metadata for '{className}' was produced from different bytecode",
      "Remove stale metadata files and instrument again"]
  | rewriter .. =>
    ["Check that the class rewriter program is installed and executable",
      "Run the rewriter on the entry by hand to see its diagnostics"]
  | configuration .. =>
    ["Check the configuration file syntax", "Verify all required fields are present",
      "Ensure the file is valid TOML format"]
  | threshold metric _ _ =>
    [s!"Add tests that exercise uncovered {metric} paths",
      "Lower the configured minimum if the target is unrealistic"]

/-- Says where the copy of an archive was left. Failures of another kind become archive failures. -/
def withBackup (failure : Failure) (path backup : Path) : Failure :=
  match failure with
  | archive own _ message cause => .archive own (some backup) message cause
  | wrapped own _ failure => .wrapped own backup failure
  | other => .wrapped path backup other

/-- Where the copy of an archive was left. -/
def backup? : Failure → Option Path
  | archive _ backup _ _ => backup
  | wrapped _ backup _ => some backup
  | _ => none

@[simp] theorem backup?_withBackup (failure : Failure) (path copy : Path) :
    (failure.withBackup path copy).backup? = some copy := by
  cases failure <;> rfl

@[simp] theorem kind_withBackup (failure : Failure) (path copy : Path) :
    (failure.withBackup path copy).kind = "ArchiveError" := by
  cases failure <;> rfl

/-- Is this a failure of the configuration? -/
def isConfiguration : Failure → Bool
  | configuration .. => true
  | _ => false

end Failure

/-- A step on a disk. What it did before a failure stays done. -/
abbrev Action := ExceptT Failure (StateM Disk)

namespace Action

/-- Runs a step that changes the disk, naming the operation and path if it fails. -/
def change (operation : String) (path : Path) (step : Disk → Except Fault Disk) : Action Unit := do
  match step (← get) with
  | .ok disk => set disk
  | .error fault => throw (.io operation (some path) (some fault))

/-- Runs a step that only looks at the disk. -/
def look {α : Type} (operation : String) (path : Path)
    (step : Disk → Except Fault α) : Action α := do
  match step (← get) with
  | .ok value => return value
  | .error fault => throw (.io operation (some path) (some fault))

def ofExcept {ε α : Type} (wrap : ε → Failure) : Except ε α → Action α
  | .ok value => pure value
  | .error problem => throw (wrap problem)

end Action
end ClassCoverage
