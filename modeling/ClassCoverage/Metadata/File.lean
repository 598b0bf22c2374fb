import ClassCoverage.Failure

/-! Metadata files on a disk. A file is replaced by renaming a complete temporary file over it, so
that at every step its path holds either what it held before or the whole new store. -/
namespace ClassCoverage.Metadata

/-- The name metadata files have unless another one is asked for. -/
def usualName : String := "coverage.dat"

def usualFile : Path := ⟨"target/jarcov/coverage.dat"⟩

/-- One operation of a save. -/
inductive SaveStep where
  | makeDirectories (directory : Path)
  | create (directory file : Path)
  | append (file : Path) (bytes : Bytes)
  | sync (file : Path)
  | rename (old new : Path)
  | syncDirectory (directory : Path)

namespace SaveStep

def run : SaveStep → Disk → Except Fault Disk
  | makeDirectories directory, disk => disk.makeDirectories directory
  | create _ file, disk => disk.write file []
  | append file bytes, disk => do
    let written ← disk.read file
    disk.write file (written ++ bytes)
  | sync _, disk => .ok disk
  | rename old new, disk => disk.rename old new
  | syncDirectory _, disk => .ok disk

def operation : SaveStep → String
  | makeDirectories _ => "create metadata directory"
  | create .. => "create temporary metadata file"
  | append .. => "write temporary metadata file"
  | sync _ => "write temporary metadata file"
  | rename .. => "replace metadata file"
  | syncDirectory _ => "sync metadata directory"

def path : SaveStep → Path
  | makeDirectories directory => directory
  | create directory _ => directory
  | append file _ => file
  | sync file => file
  | rename _ new => new
  | syncDirectory directory => directory

def perform (step : SaveStep) : Action Unit := Action.change step.operation step.path step.run

end SaveStep

def temporaryName (number : String) : String := ".tmp" ++ number

/-- What is done once the directory of the file is there. -/
def saveSteps (temporary path : Path) (bytes : Bytes) : List SaveStep :=
  [.create path.directory temporary, .append temporary bytes, .sync temporary,
    .rename temporary path,
    .syncDirectory path.directory]

/-- Writes a store to a file. A temporary file does not outlive a failure. -/
def save (store : Store) (path : Path) : Action Unit := do
  SaveStep.perform (.makeDirectories path.directory)
  let disk ← get
  let temporary := path.directory.join ⟨disk.freshName path.directory temporaryName⟩
  try (saveSteps temporary path (encode store)).forM SaveStep.perform
  catch failure =>
    modify fun disk => (disk.removeFile temporary).toOption.getD disk
    throw failure

/-- The store in a file, or nothing if there is no file. -/
def load (path : Path) : Action (Option Store) := do
  if (← get).exists? path then
    let bytes ← Action.look "read coverage metadata" path (·.read path)
    Action.ofExcept (Failure.ofProblem path) ((decode bytes).map some)
  else return none

def loadOrEmpty (path : Path) : Action Store := return (← load path).getD .empty

/-- Adds up the stores in files, passing over those that do not exist. -/
def mergeFiles (paths : List Path) : Action Store :=
  paths.foldlM (fun sum path => do
    match ← load path with
    | some store => Action.ofExcept Failure.ofConflict (sum.merge store)
    | none => return sum) .empty

/-- What a file holds, if it is asked for. -/
def existing (path : Path) (merge : Bool) : Action (Option Store) :=
  if merge then load path else return none

/-- A store added to the one that is there already. -/
def addTo (existing : Option Store) (store : Store) : Action Store :=
  match existing with
  | some existing => Action.ofExcept Failure.ofConflict (existing.merge store)
  | none => return store

/-- Saves a store, added to what the file holds if `merge` is set. Answers what was written. -/
def persist (store : Store) (path : Path) (merge : Bool) : Action Store := do
  let sum ← addTo (← existing path merge) store
  save sum path
  return sum

end ClassCoverage.Metadata
