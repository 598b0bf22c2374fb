import ClassCoverage.Text

/-! Paths keep the spelling they were given in. Two spellings name the same place in a listing
when their parts are equal. -/
namespace ClassCoverage

structure Path where
  spelling : String
  deriving DecidableEq, Repr, Inhabited

namespace Path

inductive Part where
  | root
  | here
  | up
  | name (text : String)
  deriving DecidableEq, Repr

def Part.text : Part → String
  | .root => "/"
  | .here => "."
  | .up => ".."
  | .name text => text

def chars (path : Path) : List Char := path.spelling.toList

def isAbsolute (path : Path) : Bool := path.chars.head? == some '/'

/-- The texts between slashes, empty ones included. -/
def segments (path : Path) : List String :=
  (Text.split (· == '/') path.chars).map String.ofList

def segmentPart? : String → Option Part
  | "" => none
  | "." => none
  | ".." => some .up
  | text => some (.name text)

/-- Repeated slashes and dots do not count, except for a dot at the very start. -/
def parts (path : Path) : List Part :=
  let named := path.segments.filterMap segmentPart?
  if path.isAbsolute then .root :: named
  else if path.segments.head? = some "." then .here :: named
  else named

/-- An absolute path stands for itself, wherever it is joined to. -/
def join (root : Path) (relative : Path) : Path :=
  if relative.isAbsolute then relative
  else if root.spelling.isEmpty || root.chars.getLast? == some '/' then
    ⟨root.spelling ++ relative.spelling⟩
  else ⟨root.spelling ++ "/" ++ relative.spelling⟩

instance : HDiv Path String Path := ⟨fun root name => root.join ⟨name⟩⟩

/-- Drops slashes and dots at the end of a reversed spelling that do not name a part. -/
def dropIdle (dotCounts : Bool) : List Char → List Char
  | '/' :: rest => dropIdle dotCounts rest
  | ['.'] => if dotCounts then ['.'] else []
  | '.' :: '/' :: rest => dropIdle dotCounts ('/' :: rest)
  | reversed => reversed
termination_by reversed => reversed.length

/-- Everything before the last part, if there is one. -/
def parentOf (dotCounts : Bool) (spelling : List Char) : Option (List Char) :=
  match dropIdle dotCounts spelling.reverse with
  | [] => none
  | reversed => some (dropIdle dotCounts (reversed.dropWhile (· != '/'))).reverse

def parent? (path : Path) : Option Path :=
  match path.chars with
  | '/' :: body => (parentOf false body).map fun parent => ⟨String.ofList ('/' :: parent)⟩
  | spelling => (parentOf true spelling).map fun parent => ⟨String.ofList parent⟩

/-- The directory a file of this path lies in. -/
def directory (path : Path) : Path :=
  match path.parent? with
  | some parent => if parent.spelling.isEmpty then ⟨"."⟩ else parent
  | none => ⟨"."⟩

def fileName? (path : Path) : Option String :=
  match path.parts.getLast? with
  | some (.name text) => some text
  | _ => none

/-- The parts of a file below a root joined by slashes. A file elsewhere keeps all its parts. -/
def relativeTo (file root : Path) : String :=
  let below := if root.parts.isPrefixOf file.parts then file.parts.drop root.parts.length
    else file.parts
  Text.join "/" (below.map Part.text)

end Path
end ClassCoverage
