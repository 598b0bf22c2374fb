import ClassCoverage.Scan

/-! The targets of an instrumentation: archives by name, archives found in directories, and
directories of loose classes. What is reached by several paths is one target, under the path that
mentions it first. -/
namespace ClassCoverage

/-- A directory to be searched for archives. It can be left out here, but not when it is used. -/
structure ArchiveSet where
  baseDirectory : Option Path := none
  deriving DecidableEq, Repr

inductive Target where
  | archive (path : Path)
  | directory (path : Path)
  deriving DecidableEq, Repr

namespace Target

def path : Target → Path
  | archive path => path
  | directory path => path

/-- What a path stands for: the parts of the place it leads to, from the root of the disk, or else
its own parts. A path that leads nowhere can still stand for a place, such as one that goes on
behind a file. -/
def identity (disk : Disk) (path : Path) : List Path.Part :=
  match disk.canonical? path with
  | some place => .root :: place.map .name
  | none => path.parts

/-- Keeps of all items with the same key the first one. -/
def firstOfEach {α κ : Type} [DecidableEq κ] (key : α → κ) : List α → List α
  | [] => []
  | item :: rest => item :: (firstOfEach key rest).filter fun other => key other ≠ key item

def ofArchives (disk : Disk) (paths : List Path) : List Target :=
  (paths.filter disk.isFile).map .archive

/-- The archives below the directory of a set. A set whose directory is not there has none. -/
def ofSet (set : ArchiveSet) : Action (List Target) := do
  match set.baseDirectory with
  | none => throw (.setting "Missing base directory for archive set")
  | some base =>
    if (← get).isDirectory base then
      return (← Scan.collectMatching Scan.isArchive base).map .archive
    else return []

/-- All targets, in the order of their first mention. -/
def collect (archives : List Path) (sets : List ArchiveSet) (classDirectories : List Path) :
    Action (List Target) := do
  let disk ← get
  let found := (← sets.mapM ofSet).flatten
  let mentioned := ofArchives disk archives ++ found ++ classDirectories.map .directory
  return firstOfEach (fun target => identity disk target.path) mentioned

end Target
end ClassCoverage
