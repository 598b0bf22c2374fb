import ClassCoverage.Decimal
import ClassCoverage.Disk.Listing
import ClassCoverage.Path

/-! A disk: one tree of directories and files, and the directory relative paths start from. Every
operation either answers with the new disk or with a fault and no change. -/
namespace ClassCoverage

inductive Fault where
  | notFound
  | notPermitted
  | busy
  | exists
  | notDirectory
  | isDirectory
  | nameTooLong
  | invalidText
  | invalidChecksum
  | described (text : String)
  deriving DecidableEq, Repr

def Fault.message : Fault → String
  | .notFound => "No such file or directory (os error 2)"
  | .notPermitted => "Permission denied (os error 13)"
  | .busy => "Device or resource busy (os error 16)"
  | .exists => "File exists (os error 17)"
  | .notDirectory => "Not a directory (os error 20)"
  | .isDirectory => "Is a directory (os error 21)"
  | .nameTooLong => "File name too long (os error 36)"
  | .invalidText => "stream did not contain valid UTF-8"
  | .invalidChecksum => "Invalid checksum"
  | .described text => text

structure Disk where
  root : Listing
  ordered : root.Ordered
  workPlace : Place

namespace Disk

instance : Inhabited Disk := ⟨⟨.empty, trivial, []⟩⟩

def at? (disk : Disk) (place : Place) : Option Node := disk.root.at? place

def setAt (disk : Disk) (node : Node) (inner : node.Ordered) (place : Place) : Disk :=
  { disk with
    root := disk.root.setAt node place
    ordered := Listing.ordered_setAt inner disk.ordered }

def eraseAt (disk : Disk) (place : Place) : Disk :=
  { disk with root := disk.root.eraseAt place, ordered := Listing.ordered_eraseAt disk.ordered }

def putFile (disk : Disk) (content : Bytes) (place : Place) : Disk :=
  disk.setAt (.file content) trivial place

/-- Follows path segments from a directory. Only the last of them may lead to a file. -/
def follow (root : Listing) : (place : Place) → List String → Except Fault Place
  | place, [] => .ok place
  | place, segment :: rest =>
    match segment with
    | "" => follow root place rest
    | "." => follow root place rest
    | ".." => follow root place.dropLast rest
    | name =>
      match root.at? (place ++ [name]) with
      | none => .error .notFound
      | some (.directory _) => follow root (place ++ [name]) rest
      | some (.file _) => if rest = [] then .ok (place ++ [name]) else .error .notDirectory

def start (disk : Disk) (path : Path) : Place := if path.isAbsolute then [] else disk.workPlace

/-- The place an existing file or directory lies at, whatever the spelling of the path. -/
def resolve (disk : Disk) (path : Path) : Except Fault Place :=
  if path.spelling.isEmpty then .error .notFound
  else follow disk.root (disk.start path) path.segments

def node? (disk : Disk) (path : Path) : Option Node :=
  match disk.resolve path with
  | .ok place => disk.at? place
  | .error _ => none

def isFile (disk : Disk) (path : Path) : Bool :=
  match disk.node? path with
  | some (.file _) => true
  | _ => false

def isDirectory (disk : Disk) (path : Path) : Bool :=
  match disk.node? path with
  | some (.directory _) => true
  | _ => false

def exists? (disk : Disk) (path : Path) : Bool := (disk.node? path).isSome

def canonical? (disk : Disk) (path : Path) : Option Place := (disk.resolve path).toOption

/-- What the directory at a place lists. -/
def entries (disk : Disk) (place : Place) : Except Fault (List (String × Bool)) :=
  match disk.at? place with
  | some (.directory listing) => .ok listing.entries
  | some (.file _) => .error .notDirectory
  | none => .error .notFound

/-- The directory a path leads to without its last segment, and that segment. -/
def resolveLast (disk : Disk) (path : Path) (segments : List String) :
    Except Fault (Place × String) :=
  match segments.getLast? with
  | none => .error .notFound
  | some name => do
    if path.spelling.isEmpty then throw .notFound
    let place ← follow disk.root (disk.start path) (segments.dropLast ++ ["."])
    return (place, name)

def read (disk : Disk) (path : Path) : Except Fault Bytes := do
  match disk.at? (← disk.resolve path) with
  | some (.file content) => return content
  | some (.directory _) => throw .isDirectory
  | none => throw .notFound

def size (disk : Disk) (path : Path) : Except Fault Nat := (disk.read path).map List.length

/-- Creates or replaces a file in a directory that is there already. -/
def write (disk : Disk) (path : Path) (content : Bytes) : Except Fault Disk := do
  let (place, name) ← disk.resolveLast path path.segments
  if name = "" || name = "." || name = ".." then throw .isDirectory
  match disk.at? (place ++ [name]) with
  | some (.directory _) => throw .isDirectory
  | _ => return disk.putFile content (place ++ [name])

/-- How many bytes a name can have. -/
def nameLimit : Nat := 255

/-- How many bytes a path can have. -/
def pathLimit : Nat := 4096

/-- Writes over the beginning of a file. What is gone by now is not written to any more. -/
def fill (disk : Disk) (path : Path) (content : Bytes) : Except Fault Disk :=
  match disk.resolve path with
  | .error _ => .ok disk
  | .ok place =>
    match disk.at? place with
    | some (.file old) => .ok (disk.putFile (content ++ old.drop content.length) place)
    | _ => .ok disk

def makeDirectory (disk : Disk) (path : Path) : Except Fault Disk := do
  let segments := (path.segments.reverse.dropWhile (· = "")).reverse
  if segments = [] then throw (if path.isAbsolute then .exists else .notFound)
  let (place, name) ← disk.resolveLast path segments
  if name = "." || name = ".." then throw .exists
  match disk.at? (place ++ [name]) with
  | some _ => throw .exists
  | none => return disk.setAt (.directory .empty) trivial (place ++ [name])

/-- Creates a directory and the missing ones above it. The depth bounds the length of the path. -/
def makeDirectoriesWithin : (depth : Nat) → Disk → Path → Except Fault Disk
  | 0, disk, _ => .ok disk
  | depth + 1, disk, path =>
    if path.spelling.isEmpty then .ok disk
    else match disk.makeDirectory path with
      | .ok made => .ok made
      | .error .notFound =>
        match path.parent? with
        | none => .error .notFound
        | some parent => do
          let above ← makeDirectoriesWithin depth disk parent
          match above.makeDirectory path with
          | .ok made => return made
          | .error fault => if above.isDirectory path then return above else throw fault
      | .error fault => if disk.isDirectory path then .ok disk else .error fault

def makeDirectories (disk : Disk) (path : Path) : Except Fault Disk :=
  makeDirectoriesWithin (path.spelling.length + 1) disk path

def removeFile (disk : Disk) (path : Path) : Except Fault Disk := do
  let place ← disk.resolve path
  match disk.at? place with
  | some (.file _) => return disk.eraseAt place
  | some (.directory _) => throw .isDirectory
  | none => throw .notFound

/-- Moves a file over whatever file has the new name. -/
def rename (disk : Disk) (old new : Path) : Except Fault Disk := do
  let place ← disk.resolve old
  match disk.at? place with
  | some (.file content) =>
    let segments := (new.segments.reverse.dropWhile (· = "")).reverse
    let (target, name) ← disk.resolveLast new segments
    if name = "." || name = ".." then throw .busy
    if segments ≠ new.segments then throw .notDirectory
    match disk.at? (target ++ [name]) with
    | some (.directory _) => throw .isDirectory
    | _ => return (disk.eraseAt place).putFile content (target ++ [name])
  | some (.directory _) => throw .isDirectory
  | none => throw .notFound

/-- A file name that is not taken in a directory, made from a six digit number. -/
def freshName (disk : Disk) (directory : Path) (make : String → String) : String :=
  let taken := match disk.node? directory with
    | some (.directory listing) => listing.names
    | _ => []
  let candidates := (List.range (taken.length + 1)).map fun number => make (Decimal.padded 6 number)
  (candidates.find? fun name => name ∉ taken).getD (make (Decimal.padded 6 0))

end Disk
end ClassCoverage
