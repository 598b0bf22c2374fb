import ClassCoverage.Record
import ClassCoverage.Disk

/-! Finding the source file of a class. Candidate names come before roots: the first candidate
that is a file under some root is taken, under the first such root. -/
namespace ClassCoverage

structure SourceLocation where
  root : Path
  relative : String
  deriving DecidableEq, Repr

def SourceLocation.path (location : SourceLocation) : Path := location.root.join ⟨location.relative⟩

structure SourceLookup where
  roots : List Path := []
  alternates : List String := [".as", ".mxml"]
  deriving DecidableEq, Repr

namespace SourceLookup

/-- Keeps the roots that are directories. -/
def ofExisting (roots : List Path) (disk : Disk) : SourceLookup :=
  { roots := roots.filter disk.isDirectory }

/-- The file itself, and in the place of its extension each alternate in turn. -/
def candidates (lookup : SourceLookup) (file : String) : List String :=
  file :: match Text.stripSuffix? ClassName.sourceExtension.toList file.toList with
    | some stem => lookup.alternates.map fun extension => String.ofList stem ++ extension
    | none => []

def findInRoots (lookup : SourceLookup) (disk : Disk) (relative : String) : Option SourceLocation :=
  (lookup.roots.find? fun root => disk.isFile (root.join ⟨relative⟩)).map fun root =>
    { root := root, relative := relative }

def resolveFile (lookup : SourceLookup) (disk : Disk) (file : String) : Option SourceLocation :=
  (lookup.candidates file).findSome? (lookup.findInRoots disk)

def resolve (lookup : SourceLookup) (disk : Disk) (className : String) : Option SourceLocation :=
  lookup.resolveFile disk (ClassName.sourceFile className ClassName.sourceExtension)

/-- Plain file names stay in the directory they are looked for in. -/
def isPlain (hint : String) : Bool :=
  let chars := hint.toList
  !chars.isEmpty && !chars.contains '/' && !chars.contains '\\' && !Text.contains "..".toList chars

/-- The file a record hints at, in the directory of its package. -/
def hintedFile? (record : Record) : Option String := do
  let hint ← record.sourceFile
  if !isPlain hint then none
  let package := record.packageName
  return if package.isEmpty then hint
    else package.map ClassName.dotToSlash ++ "/" ++ hint

/-- A file found through the hint comes before one found through the name. -/
def resolveRecord (lookup : SourceLookup) (disk : Disk) (record : Record) : Option SourceLocation :=
  ((hintedFile? record).bind (lookup.resolveFile disk)).or (lookup.resolve disk record.name)

end SourceLookup
end ClassCoverage
