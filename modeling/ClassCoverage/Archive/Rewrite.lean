import ClassCoverage.Archive
import ClassCoverage.Course
import ClassCoverage.Text.Quoted

/-! Rewriting archives in their place. An archive is moved aside to a safety copy and built anew
from it, entry by entry. The copy goes away only when the new archive is complete, and only then do
the records of its classes reach the store. -/
namespace ClassCoverage.Archive

structure Options where
  keepDirectoryEntries : Bool := false
  deriving DecidableEq, Repr

/-- What became of the entries of one archive. -/
structure Summary where
  classes : Nat := 0
  transformed : Nat := 0
  copied : Nat := 0
  directoriesSkipped : Nat := 0
  deriving DecidableEq, Repr

/-- What is said of archives that are not in the format. -/
def formatComplaint : String := "<zip>"

def damaged (path : Path) (operation : String) : Failure :=
  .archive path none ("failed to " ++ operation ++ ": " ++ formatComplaint) (some formatComplaint)

/-- A new archive as far as it has been built. -/
structure Built where
  entries : List Entry := []
  summary : Summary := {}

/-- A step of the building. What was built before a failure stays built. -/
abbrev Rebuilding := ExceptT Failure (StateT Built Course)

def add (entry : Entry) (count : Summary → Summary) : Rebuilding Unit :=
  modify fun built => ⟨built.entries ++ [entry], count built.summary⟩

/-- Carries an entry over as it is. -/
def carryOver (entry : Entry) : Rebuilding Unit :=
  add entry.carriedOver fun summary => { summary with copied := summary.copied + 1 }

/-- Offers a class to the rewriter. -/
def offer (name : String) (content : Bytes) : Rebuilding Rewritten :=
  .mk fun built => .offer name content fun result => pure (result, built)

/-- Offers a class to the rewriter, and adds what becomes of it. -/
def rebuildClass [Library] (path : Path) (entry : Entry) (stored : Bytes) : Rebuilding Unit := do
  if !Entry.isReadable entry.head then throw (damaged path "open class entry")
  match Entry.content entry.head stored with
  | .error fault => throw (.io "read class entry" (some path) (some fault))
  | .ok content =>
    modify fun built =>
      { built with summary := { built.summary with classes := built.summary.classes + 1 } }
    let rewritten ← offer entry.name content
    if rewritten.transformed then
      add (Entry.withContent entry.head rewritten.bytes) fun summary =>
        { summary with transformed := summary.transformed + 1 }
    else carryOver entry

/-- Adds what becomes of one entry of the old archive. -/
def rebuildEntry [Library] (path : Path) (options : Options) (entry : Entry) : Rebuilding Unit :=
  match entry.stored with
  | none => throw (damaged path "read entry")
  | some stored =>
    if entry.isDirectory then
      if options.keepDirectoryEntries then carryOver entry
      else modify fun built => { built with
        summary := { built.summary with directoriesSkipped := built.summary.directoriesSkipped +
          1 } }
    else if ClassName.isClassFile entry.name then rebuildClass path entry stored
    else carryOver entry

/-- Builds a whole archive. The failure, if there is one, comes with what was built before it. -/
def rebuild [Library] (path : Path) (options : Options) (entries : List Entry) :
    Course (Except Failure Unit × Built) :=
  (entries.forM (rebuildEntry path options)).run.run {}

def safetyName (fileName number : String) : String := "." ++ fileName ++ "." ++ number ++ ".orig"

/-- The full path of a path, from the root of the disk on. -/
def absolute (disk : Disk) (path : Path) : Path :=
  Path.join ⟨"/" ++ Text.join "/" disk.workPlace⟩ path

/-- A path next to an archive that nothing is found under yet. -/
def safetyPath (path : Path) (disk : Disk) : Path :=
  absolute disk (path.directory.join
    ⟨disk.freshName path.directory (safetyName (path.fileName?.getD ""))⟩)

/-- Has the name of the safety copy room in a directory? Its number has six characters. -/
def hasRoom (path : Path) : Bool :=
  (safetyName (path.fileName?.getD "") "XXXXXX").utf8ByteSize ≤ Disk.nameLimit

/-- Creates an empty file for the safety copy of an archive. A fault names the file. -/
def makeSafetyFile (path : Path) (disk : Disk) : Except Fault Disk :=
  let copy := safetyPath path disk
  (if hasRoom path then disk.write copy [] else .error .nameTooLong).mapError fun fault =>
    .described (fault.message ++ " at path " ++ Text.quotedFully copy.spelling)

/-- Creates the file that the safety copy of an archive goes to. Answers its path. -/
def createSafetyFile (path : Path) : Course Path :=
  .act "create archive safety copy" path.directory (makeSafetyFile path) fun result =>
    .ofAnswer "create archive safety copy" path.directory (result.map (safetyPath path))

/-- Copies an archive to a file and removes it. -/
def moveTo (path copy : Path) : Course Unit := do
  let content ← Course.see "copy archive" path (·.read path)
  Course.change "copy archive" path (·.fill copy content)
  Course.change "remove original archive" path (·.removeFile path)

/-- Moves an archive aside. Answers the path of the copy. The copy of an archive that is still there
goes away again. -/
def moveAside (path : Path) : Course Path := do
  let copy ← createSafetyFile path
  tryCatch (moveTo path copy) fun failure => do
    Course.changeIfPossible "drop archive safety copy" copy (·.removeFile copy)
    throw failure
  return copy

/-- Builds the archive at a path anew from its copy. The store is that of the records of this
archive alone. -/
def rewriteFrom [Library] (path copy : Path) (options : Options) : Course Summary := do
  let content ← Course.see "open archive copy" copy (·.read copy)
  match Library.read? content with
  | none => throw (damaged path "read archive")
  | some entries =>
    Course.change "create archive" path (·.write path [])
    let (result, built) ← rebuild path options entries
    match result with
    | .error failure =>
      Course.changeIfPossible "leave archive" path (·.fill path (Library.write built.entries))
      throw failure
    | .ok () =>
      Course.change "flush archive" path (·.fill path (Library.write built.entries))
      if Library.fits built.entries then return built.summary
        else throw (damaged path "finish archive")

/-- Replaces the archive at a path by what is built from its copy, and joins the records of its
classes to a store. -/
def replace [Library] (path copy : Path) (options : Options) (store : Store) : Course Summary := do
  Course.setStore .empty
  let summary ← rewriteFrom path copy options
  match store.merge (← Course.store) with
  | .error conflict => throw (.ofConflict conflict)
  | .ok sum =>
    Course.setStore sum
    return summary

/-- Rewrites the archive at a path in place. As long as it is not replaced, the store stays as it
was before, and after a failure the copy of the archive is kept. -/
def course [Library] (path : Path) (options : Options) : Course Summary := do
  if !(← Course.disk).isFile path then
    throw (.archive path none "archive does not exist or is not a regular file" none)
  let copy ← moveAside path
  let store ← Course.store
  let summary ← tryCatch (replace path copy options store) fun failure => do
    Course.setStore store
    throw (failure.withBackup path copy)
  Course.change "remove archive safety copy" path (·.removeFile copy)
  return summary

def rewrite [Library] {σ : Type} (path : Path) (rewriter : Rewriter σ) (options : Options)
    (system : System := {}) : Work σ Summary :=
  (course path options).carryOut rewriter system

end ClassCoverage.Archive
