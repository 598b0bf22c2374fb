import ClassCoverage.Course
import ClassCoverage.Scan

/-! Rewriting trees of loose class files. Every file below the source is written to the same place
below the destination, classes by way of the rewriter. Where both are one directory, only the
classes that the rewriter transforms are written. -/
namespace ClassCoverage.ClassTree

/-- What became of the files of one tree. -/
structure Summary where
  classes : Nat := 0
  transformed : Nat := 0
  copied : Nat := 0
  deriving DecidableEq, Repr

def headerSize : Nat := 8

/-- Is a file of this size offered to the rewriter? A class file with nothing behind its header is
not. -/
def isOffered (relative : String) (size : Nat) : Bool :=
  ClassName.isClassFile relative && headerSize < size

/-- Are these two places, found for two paths, one directory? Paths that lead nowhere are compared
by their parts. -/
def samePlace (one other : Path) : Option Place → Option Place → Bool
  | some here, some there => here == there
  | _, _ => one.parts == other.parts

def sameDirectory (disk : Disk) (one other : Path) : Bool :=
  samePlace one other (disk.canonical? one) (disk.canonical? other)

/-- How many directories deep a scan goes: as deep as the disk is, and as deep as the longest path
leads. What others make meanwhile lies deeper only if it has no path. -/
def reach (disk : Disk) : Nat := max disk.root.height Disk.pathLimit + 1

/-- What is found by way of one entry of a directory, where `inside` is what is found in a directory
within it. -/
def visit (below : Place) (inside : Place → Course (List Place)) (entry : String × Bool) :
    Course (List Place) :=
  if Scan.isExcluded entry.1 then return []
  else if entry.2 then inside (below ++ [entry.1])
  else return [below ++ [entry.1]]

/-- The files of one directory and of those below it, each of which is looked at by itself. -/
def walk (source : Path) (top : Place) : (depth : Nat) → (below : Place) → Course (List Place)
  | 0, _ => return []
  | depth + 1, below => do
    let entries ←
      Course.see "directory traversal" (Scan.pathTo source below) (·.entries (top ++ below))
    entries.foldlM (fun files entry => return files ++
      (← visit below (walk source top depth) entry)) []

/-- Scans a source as `Scan.collectFiles` does, but directory by directory. No directory is ever
moved, so that the source is only followed once. -/
def scan (source : Path) : Course (List Path) := do
  let disk ← Course.disk
  if disk.isFile source then return [source]
  let top ← Course.ofAnswer "directory traversal" source (disk.resolve source)
  return (← walk source top (reach disk) []).map (Scan.pathTo source)

def prepareParent (target : Path) : Course Unit :=
  match target.parent? with
  | some parent => .change "create output directory" parent (·.makeDirectories parent)
  | none => pure ()

/-- Fills a file with what is in another one now. -/
def fillFrom (file target : Path) (disk : Disk) : Except Fault Disk :=
  match disk.read file with
  | .ok content => disk.fill target content
  | .error _ => .ok disk

/-- Copies a file. The target is emptied first, and with it the file if they are one. -/
def copyFile (file target : Path) : Course Unit := do
  prepareParent target
  let _ ← Course.see "copy file" target (·.read file)
  Course.change "copy file" target (·.write target [])
  Course.change "copy file" target (fillFrom file target)

def writeClass (target : Path) (bytes : Bytes) : Course Unit := do
  prepareParent target
  Course.write "write class file" target bytes

/-- Offers one class file to the rewriter, and writes what it makes of it. -/
def rewriteClass (inPlace : Bool) (relative : String) (target : Path) (content : Bytes) :
    Course Rewritten := do
  let rewritten ← Course.ask relative content
  if rewritten.transformed || !inPlace then writeClass target rewritten.bytes
  return rewritten

/-- Takes one file to its place in the destination, and counts it. -/
def rewriteFile (source destination : Path) (inPlace : Bool) (summary : Summary) (file : Path) :
    Course Summary := do
  let relative := file.relativeTo source
  let target := destination.join ⟨relative⟩
  let size ← Course.see "stat class file" file (·.size file)
  if isOffered relative size then
    let content ← Course.see "read class file" file (·.read file)
    let rewritten ← rewriteClass inPlace relative target content
    let summary := { summary with classes := summary.classes + 1 }
    if rewritten.transformed then return { summary with transformed := summary.transformed + 1 }
    else return { summary with copied := summary.copied + 1 }
  else
    if !inPlace then copyFile file target
    return { summary with copied := summary.copied + 1 }

/-- Rewrites the tree below `source` into `destination`. A source that is no directory has no
files. -/
def course (source destination : Path) : Course Summary := do
  if !(← Course.disk).isDirectory source then return {}
  let here := (← Course.disk).canonical? source
  let there := (← Course.disk).canonical? destination
  let files ← scan source
  files.foldlM (rewriteFile source destination (samePlace source destination here there)) {}

def rewrite {σ : Type} (source destination : Path) (rewriter : Rewriter σ) : Work σ Summary :=
  (course source destination).carryOut rewriter

end ClassCoverage.ClassTree
