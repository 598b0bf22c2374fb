import ClassCoverage.Failure

/-! Scans of directory trees for files, in path order. Version control data and what
editors leave behind are left out with everything below them; the root of a scan never is. -/
namespace ClassCoverage.Scan

def excludedNames : List String :=
  [".git", ".gitignore", ".gitattributes", ".svn", ".hg", ".hgignore", ".bzr", ".bzrignore",
    "_darcs", "CVS", ".cvsignore", "SCCS", "RCS", "vssver.scc", ".arch-ids", "\x7barch\x7d",
    ".DS_Store"]

/-- Does a name of two or more characters start and end with `mark`? -/
def enclosedBy (mark : Char) (name : List Char) : Bool :=
  1 < name.length && name.head? == some mark && name.getLast? == some mark

def isExcluded (name : String) : Bool :=
  let chars := name.toList
  name ∈ excludedNames || chars.getLast? == some '~' || ".#".toList.isPrefixOf chars ||
    "._".toList.isPrefixOf chars || enclosedBy '#' chars || enclosedBy '%' chars

/-- The places of the files in a listing, without those below an excluded name. -/
def places (excluded : String → Bool) : Listing → List Place
  | .empty => []
  | .file name _ rest => if excluded name then places excluded rest
    else [name] :: places excluded rest
  | .directory name inner rest =>
    if excluded name then places excluded rest
    else (places excluded inner).map (name :: ·) ++ places excluded rest

/-- The path of a place below a root. -/
def pathTo (root : Path) (place : Place) :
    Path := place.foldl (fun path name => path.join ⟨name⟩) root

/-- The files at or below a root whose paths satisfy `keep`. -/
def filesMatching (keep : Path → Bool) (root : Path) (disk : Disk) : Except Fault (List Path) := do
  match disk.at? (← disk.resolve root) with
  | some (.directory listing) =>
    return ((places isExcluded listing).map (pathTo root)).filter keep
  | some (.file _) => return [root].filter keep
  | none => throw .notFound

def collectMatching (keep : Path → Bool) (root : Path) : Action (List Path) :=
  Action.look "directory traversal" root (filesMatching keep root)

def collectFiles (root : Path) : Action (List Path) := collectMatching (fun _ => true) root

def discover (name : String) (root : Path) : Action (List Path) :=
  collectMatching (fun path => path.fileName? == some name) root

def archiveSuffixes : List String := [".jar", ".war", ".ear", ".zip"]

/-- Does a path have the suffix of an archive, in any letter case? -/
def isArchive (path : Path) : Bool :=
  match path.fileName? with
  | some name =>
    let small := (Text.lower name).toList
    archiveSuffixes.any fun suffix => suffix.toList.isSuffixOf small
  | none => false

end ClassCoverage.Scan
