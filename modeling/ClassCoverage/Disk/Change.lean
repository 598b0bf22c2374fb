import ClassCoverage.Disk.Listing

/-! What leads from one directory tree to another: removed files, then new directories and files in
an order in which each of them can be made. -/
namespace ClassCoverage

inductive Change where
  | removeFile (place : Place)
  | makeDirectory (place : Place)
  | writeFile (place : Place) (content : Bytes)

namespace Listing

/-- All places of a tree, a directory before what lies in it. Directories have no content. -/
def contents : Listing → List (Place × Option Bytes)
  | empty => []
  | file name content rest => ([name], some content) :: rest.contents
  | directory name inner rest =>
    ([name], none) :: inner.contents.map (fun (place, content) => (name :: place, content)) ++
      rest.contents

def contentAt? (listing : Listing) (place : Place) : Option Bytes :=
  match listing.at? place with
  | some (.file content) => some content
  | _ => none

def isDirectoryAt (listing : Listing) (place : Place) : Bool :=
  match listing.at? place with
  | some (.directory _) => true
  | _ => false

/-- What has to be done at a place of the new tree. -/
def changeAt (old : Listing) : Place × Option Bytes → Option Change
  | (place, some content) =>
    if old.contentAt? place = some content then none else some (.writeFile place content)
  | (place, none) => if old.isDirectoryAt place then none else some (.makeDirectory place)

/-- The changes from an old tree to a new one in which no directory of the old one is missing. -/
def changesTo (old new : Listing) : List Change :=
  let gone := old.contents.filter fun (place, content) =>
    content.isSome && (new.contentAt? place).isNone
  gone.map (fun (place, _) => .removeFile place) ++ new.contents.filterMap old.changeAt

end Listing
end ClassCoverage
