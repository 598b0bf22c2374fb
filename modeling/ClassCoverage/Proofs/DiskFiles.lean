import ClassCoverage.Proofs.DiskKinds
import ClassCoverage.Proofs.PathSteps
import Mathlib.Tactic.ByContra
import Mathlib.Tactic.Push

/-! Files of a disk by their paths. A path lands at a place as long as the directories on its way
are there, so files can come and go without any path landing elsewhere. -/
namespace ClassCoverage.Disk
open ClassCoverage.Path

def kind? (disk : Disk) (place : Place) : Option Kind := disk.root.kind? place

@[simp] theorem kind?_nil (disk : Disk) : disk.kind? [] = some .directory := rfl

/-- Relative paths start in a directory that is there, and whose names a path can spell. -/
structure Rooted (disk : Disk) : Prop where
  directory : disk.kind? disk.workPlace = some .directory
  named : ∀ name ∈ disk.workPlace, IsName name

/-- Disks that have the same at every place are equal. -/
theorem eq_of_kinds {a b : Disk} (home : a.workPlace = b.workPlace)
    (same : ∀ place, a.kind? place = b.kind? place) : a = b := by
  have roots : a.root = b.root := Listing.eq_of_kind? a.ordered b.ordered same
  cases a
  cases b
  cases roots
  cases home
  rfl

/-- Every directory of one disk is one of the other. -/
structure Keeps (disk disk' : Disk) : Prop where
  workPlace : disk'.workPlace = disk.workPlace
  directory : ∀ place, disk.kind? place = some .directory → disk'.kind? place = some .directory

theorem Keeps.refl (disk : Disk) : Keeps disk disk := ⟨rfl, fun _ found => found⟩

theorem Keeps.trans {a b c : Disk} (first : Keeps a b) (second : Keeps b c) : Keeps a c :=
  ⟨second.workPlace.trans first.workPlace,
    fun place found => second.directory place (first.directory place found)⟩

theorem Rooted.keep {disk disk' : Disk} (rooted : Rooted disk) (keeps : Keeps disk disk') :
    Rooted disk' where
  directory := by
    rw [keeps.workPlace]
    exact keeps.directory _ rooted.directory
  named := by
    rw [keeps.workPlace]
    exact rooted.named

/-- Two disks that differ at one place only, where neither has a directory. -/
structure Updated (disk disk' : Disk) (place : Place) (kind : Option Kind) : Prop where
  workPlace : disk'.workPlace = disk.workPlace
  free : disk.kind? place ≠ some .directory
  leaf : kind ≠ some .directory
  kinds : ∀ other, disk'.kind? other = if other = place then kind else disk.kind? other

namespace Updated
variable {disk disk' : Disk} {place : Place} {kind : Option Kind}

theorem here (updated : Updated disk disk' place kind) : disk'.kind? place = kind := by
  simp [updated.kinds]

theorem elsewhere (updated : Updated disk disk' place kind) {other : Place}
    (apart : other ≠ place) :
    disk'.kind? other = disk.kind? other := by
  simp [updated.kinds, apart]

theorem keeps (updated : Updated disk disk' place kind) : Keeps disk disk' where
  workPlace := updated.workPlace
  directory other found := by
    by_cases same : other = place
    · exact absurd (same ▸ found) updated.free
    · rw [updated.elsewhere same, found]

end Updated

private theorem putFile_updated {disk : Disk} {place : Place} (below : place ≠ [])
    (parent : disk.kind? place.dropLast = some .directory)
    (free : disk.kind? place ≠ some .directory) (content : Bytes) :
    Updated disk (disk.putFile content place) place (some (.file content)) where
  workPlace := rfl
  free := free
  leaf := by simp
  kinds := Listing.kind?_setAt (show Node.IsLeaf (.file content) from trivial) below parent free

private theorem eraseAt_updated {disk : Disk} {place : Place} (below : place ≠ [])
    (free : disk.kind? place ≠ some .directory) :
    Updated disk (disk.eraseAt place) place none where
  workPlace := rfl
  free := free
  leaf := by simp
  kinds := Listing.kind?_eraseAt disk.ordered below free

theorem at?_eq_file_iff {disk : Disk} {place : Place} {content : Bytes} :
    disk.at? place = some (.file content) ↔ disk.kind? place = some (.file content) := by
  unfold at? kind? Listing.kind?
  cases disk.root.at? place with
  | none => simp
  | some node => cases node <;> simp [Node.kind]

theorem at?_eq_directory_iff {disk : Disk} {place : Place} :
    (∃ listing, disk.at? place = some (.directory listing)) ↔
      disk.kind? place = some .directory := by
  unfold at? kind? Listing.kind?
  cases disk.root.at? place with
  | none => simp
  | some node => cases node <;> simp [Node.kind]

/-- The directory that steps lead to. -/
def walk (root : Listing) : Place → List String → Option Place
  | place, [] => some place
  | place, step :: rest =>
    if step = ".." then walk root place.dropLast rest
    else if root.kind? (place ++ [step]) = some .directory then walk root (place ++ [step]) rest
    else none

theorem kind?_of_walk {root : Listing} {place found : Place} {steps : List String}
    (start : root.kind? place = some .directory) (walked : walk root place steps = some found) :
    root.kind? found = some .directory := by
  induction steps generalizing place with
  | nil => exact Option.some.inj walked ▸ start
  | cons step rest ih =>
    rw [walk] at walked
    split at walked
    · exact ih (Listing.kind?_dropLast start) walked
    · split at walked
      · rename_i directory
        exact ih directory walked
      · simp at walked

theorem walk_append {root : Listing} {place middle : Place} {front back : List String}
    (walked : walk root place front = some middle) :
    walk root place (front ++ back) = walk root middle back := by
  induction front generalizing place with
  | nil =>
    rw [List.nil_append, Option.some.inj walked]
  | cons step rest ih =>
    rw [List.cons_append, walk]
    rw [walk] at walked
    split at walked
    · rename_i up
      rw [if_pos up, ih walked]
    · rename_i down
      split at walked
      · rename_i directory
        rw [if_neg down, if_pos directory, ih walked]
      · simp at walked

/-- Names lead to the directory they name. -/
theorem walk_names {root : Listing} {place below : Place} (named : ∀ name ∈ below, IsName name)
    (directory : root.kind? (place ++ below) = some .directory) :
    walk root place below = some (place ++ below) := by
  induction below generalizing place with
  | nil => simp [walk]
  | cons name rest ih =>
    have first := named name (by simp)
    rw [← List.singleton_append, ← List.append_assoc] at directory
    have here : root.kind? (place ++ [name]) = some .directory := by
      by_cases last : rest = []
      · simpa [last] using directory
      · exact Listing.kind?_of_append directory last
    have later := ih (fun other member => named other (List.mem_cons_of_mem _ member)) directory
    rw [walk, if_neg first.notUp, if_pos here, later]
    simp

theorem walk_keep {disk disk' : Disk} (keeps : Keeps disk disk') {place found : Place}
    {steps : List String} (walked : walk disk.root place steps = some found) :
    walk disk'.root place steps = some found := by
  induction steps generalizing place with
  | nil => exact walked
  | cons step rest ih =>
    rw [walk] at walked ⊢
    split at walked
    · rename_i up
      rw [if_pos up, ih walked]
    · rename_i down
      split at walked
      · rename_i directory
        have kept : disk'.root.kind? (place ++ [step]) = some .directory :=
          keeps.directory _ directory
        rw [if_neg down, if_pos kept, ih walked]
      · simp at walked

theorem follow_idle {root : Listing} {place : Place} {segment : String}
    (idle : isStep segment = false) (rest : List String) :
    follow root place (segment :: rest) = follow root place rest := by
  have either : segment = "" ∨ segment = "." := by
    by_contra neither
    push Not at neither
    simp [isStep, neither.1, neither.2] at idle
  rcases either with rfl | rfl <;> rw [follow]

theorem follow_step {root : Listing} {place : Place} {segment : String}
    (step : isStep segment = true) (down : segment ≠ "..") (rest : List String) :
    follow root place (segment :: rest) =
      match root.kind? (place ++ [segment]) with
      | none => .error .notFound
      | some .directory => follow root (place ++ [segment]) rest
      | some (.file _) => if rest = [] then .ok (place ++ [segment]) else .error .notDirectory := by
  have notIdle : segment ≠ "" ∧ segment ≠ "." := by
    constructor <;> (rintro rfl; simp [isStep] at step)
  rw [follow]
  · unfold Listing.kind?
    cases root.at? (place ++ [segment]) with
    | none => rfl
    | some node => cases node <;> rfl
  · exact notIdle.1
  · exact notIdle.2
  · exact down

/-- Segments go on from the directory that the steps before them lead to. -/
theorem follow_append_of_walk {root : Listing} {place found : Place} {front : List String}
    (walked : walk root place (front.filter isStep) = some found) (rest : List String) :
    follow root place (front ++ rest) = follow root found rest := by
  induction front generalizing place with
  | nil =>
    cases Option.some.inj walked
    rfl
  | cons segment front ih =>
    rw [List.cons_append]
    cases idle : isStep segment with
    | false =>
      rw [follow_idle idle]
      exact ih (by simpa [idle] using walked)
    | true =>
      rw [List.filter_cons_of_pos idle, walk] at walked
      by_cases up : segment = ".."
      · subst up
        rw [if_pos rfl] at walked
        rw [follow]
        exact ih walked
      · rw [if_neg up] at walked
        rw [follow_step idle up]
        split at walked
        · rename_i directory
          simp only [directory]
          exact ih walked
        · cases walked

theorem follow_of_walk {root : Listing} {place found : Place} {segments : List String}
    (walked : walk root place (segments.filter isStep) = some found) :
    follow root place segments = .ok found := by
  have followed := follow_append_of_walk walked []
  rwa [List.append_nil, follow] at followed

/-- Segments that go on cannot lead through a file. -/
theorem walk_of_follow {root : Listing} {place found : Place} {front : List String}
    (followed : follow root place (front ++ ["."]) = .ok found) :
    walk root place (front.filter isStep) = some found := by
  induction front generalizing place with
  | nil =>
    rw [List.nil_append, follow_idle (by decide), follow] at followed
    cases followed
    rfl
  | cons segment rest ih =>
    rw [List.cons_append] at followed
    cases idle : isStep segment with
    | false =>
      rw [follow_idle idle] at followed
      simpa [idle] using ih followed
    | true =>
      rw [List.filter_cons_of_pos idle, walk]
      by_cases up : segment = ".."
      · subst up
        rw [follow] at followed
        rw [if_pos rfl]
        exact ih followed
      · rw [follow_step idle up] at followed
        rw [if_neg up]
        cases kind : root.kind? (place ++ [segment]) with
        | none => simp [kind] at followed
        | some kind' => cases kind' with
          | directory =>
            simp only [kind] at followed
            rw [if_pos rfl]
            exact ih followed
          | file content => simp [kind] at followed

private theorem follow_name {root : Listing} {place directory : Place} {front : List String}
    {name : String} (walked : walk root place (front.filter isStep) = some directory)
    (named : IsName name) {kind : Kind} (found : root.kind? (directory ++ [name]) = some kind) :
    follow root place (front ++ [name]) = .ok (directory ++ [name]) := by
  rw [follow_append_of_walk walked, follow_step named.isStep named.notUp, found]
  cases kind <;> simp [follow]

/-- What segments lead to is named by the last of them, if it is a file. -/
theorem name_of_follow {root : Listing} {place found : Place} {segments : List String}
    {content : Bytes} (start : root.kind? place = some .directory)
    (plain : ∀ segment ∈ segments, '/' ∉ segment.toList)
    (followed : follow root place segments = .ok found)
    (file : root.kind? found = some (.file content)) :
    ∃ front name directory, segments = front ++ [name] ∧ IsName name ∧
      walk root place (front.filter isStep) = some directory ∧ found = directory ++ [name] := by
  induction segments generalizing place with
  | nil =>
    cases followed
    rw [start] at file
    cases file
  | cons segment rest ih =>
    have plainRest : ∀ segment ∈ rest, '/' ∉ segment.toList :=
      fun other member => plain other (List.mem_cons_of_mem _ member)
    cases idle : isStep segment with
    | false =>
      rw [follow_idle idle] at followed
      obtain ⟨front, name, directory, rfl, named, walked, same⟩ := ih start plainRest followed
      exact ⟨segment :: front, name, directory, rfl, named, by simpa [idle] using walked, same⟩
    | true =>
      by_cases up : segment = ".."
      · subst up
        rw [follow] at followed
        obtain ⟨front, name, directory, rfl, named, walked, same⟩ :=
          ih (Listing.kind?_dropLast start) plainRest followed
        refine ⟨".." :: front, name, directory, rfl, named, ?_, same⟩
        rw [List.filter_cons_of_pos idle, walk, if_pos rfl, walked]
      · rw [follow_step idle up] at followed
        cases kind : root.kind? (place ++ [segment]) with
        | none => simp [kind] at followed
        | some kind' => cases kind' with
          | directory =>
            simp only [kind] at followed
            obtain ⟨front, name, directory, rfl, named, walked, same⟩ := ih kind plainRest followed
            refine ⟨segment :: front, name, directory, rfl, named, ?_, same⟩
            rw [List.filter_cons_of_pos idle, walk, if_neg up, if_pos kind, walked]
          | file inner =>
            simp only [kind] at followed
            split at followed
            · rename_i last
              subst last
              have notIdle : segment ≠ "" ∧ segment ≠ "." := by
                constructor <;> (rintro rfl; simp [isStep] at idle)
              exact ⟨[], segment, place, rfl,
                ⟨notIdle.1, notIdle.2, up, plain segment (by simp)⟩, rfl,
                (Except.ok.inj followed).symm⟩
            · simp at followed

theorem start_keep {disk disk' : Disk} (home : disk'.workPlace = disk.workPlace) (path : Path) :
    disk'.start path = disk.start path := by
  unfold start
  rw [home]

/-- The place of the file of a path, whether there is one or not. -/
def Lands (disk : Disk) (path : Path) (place : Place) : Prop :=
  ∃ front name directory, path.segments = front ++ [name] ∧ IsName name ∧
    walk disk.root (disk.start path) (front.filter isStep) = some directory ∧
    place = directory ++ [name]

namespace Lands
variable {disk disk' : Disk} {path : Path} {place : Place}

theorem keep (lands : Lands disk path place) (keeps : Keeps disk disk') :
    Lands disk' path place := by
  obtain ⟨front, name, directory, split, named, walked, same⟩ := lands
  refine ⟨front, name, directory, split, named, ?_, same⟩
  rw [start_keep keeps.workPlace]
  exact walk_keep keeps walked

theorem ne_nil (lands : Lands disk path place) : place ≠ [] := by
  obtain ⟨_, _, _, _, _, _, rfl⟩ := lands
  simp

theorem kind?_start {disk : Disk} (rooted : Rooted disk) (path : Path) :
    disk.kind? (disk.start path) = some .directory := by
  unfold start
  split
  · rfl
  · exact rooted.directory

theorem parent (lands : Lands disk path place) (rooted : Rooted disk) :
    disk.kind? place.dropLast = some .directory := by
  obtain ⟨_, _, directory, _, _, walked, rfl⟩ := lands
  rw [List.dropLast_concat]
  exact kind?_of_walk (kind?_start rooted path) walked

theorem spelling_ne_empty (lands : Lands disk path place) : path.spelling.isEmpty = false := by
  obtain ⟨front, name, _, split, named, _, _⟩ := lands
  rw [Bool.eq_false_iff, ne_eq, String.isEmpty_iff]
  exact spelling_ne_empty_of_segments split named.nonempty

/-! What operations do at the place a path lands at. -/

theorem resolve (lands : Lands disk path place) {kind : Kind}
    (found : disk.kind? place = some kind) :
    disk.resolve path = .ok place := by
  have spelled := lands.spelling_ne_empty
  obtain ⟨front, name, directory, split, named, walked, rfl⟩ := lands
  unfold Disk.resolve
  rw [spelled, split]
  exact follow_name walked named found

theorem read (lands : Lands disk path place) {content : Bytes}
    (file : disk.kind? place = some (.file content)) : disk.read path = .ok content := by
  unfold Disk.read
  rw [lands.resolve file]
  simp [bind, Except.bind, at?_eq_file_iff.mpr file, pure, Except.pure]

theorem isFile (lands : Lands disk path place) {content : Bytes}
    (file : disk.kind? place = some (.file content)) :
    disk.isFile path = true := by
  unfold Disk.isFile node?
  simp only [lands.resolve file, at?_eq_file_iff.mpr file]

theorem removeFile (lands : Lands disk path place) {content : Bytes}
    (file : disk.kind? place = some (.file content)) :
    disk.removeFile path = .ok (disk.eraseAt place) := by
  unfold Disk.removeFile
  rw [lands.resolve file]
  simp [bind, Except.bind, at?_eq_file_iff.mpr file, pure, Except.pure]

theorem resolveLast (lands : Lands disk path place) :
    ∃ directory name, disk.resolveLast path path.segments = .ok (directory, name) ∧
      IsName name ∧ place = directory ++ [name] := by
  have spelled := lands.spelling_ne_empty
  obtain ⟨front, name, directory, split, named, walked, rfl⟩ := lands
  refine ⟨directory, name, ?_, named, rfl⟩
  have followed : follow disk.root (disk.start path) (front ++ ["."]) = .ok directory := by
    apply follow_of_walk
    simpa [isStep] using walked
  unfold Disk.resolveLast
  simp [split, spelled, followed, bind, Except.bind, pure, Except.pure]

theorem write (lands : Lands disk path place) (free : disk.kind? place ≠ some .directory)
    (content : Bytes) : disk.write path content = .ok (disk.putFile content place) := by
  obtain ⟨directory, name, resolved, named, rfl⟩ := lands.resolveLast
  have absent : ∀ listing, disk.at? (directory ++ [name]) ≠ some (.directory listing) :=
    fun listing found => free (at?_eq_directory_iff.mp ⟨listing, found⟩)
  unfold Disk.write
  rw [resolved]
  simp only [bind, Except.bind, named.nonempty, named.notHere, named.notUp, decide_false,
    Bool.or_self, Bool.false_eq_true, ↓reduceIte]
  cases found : disk.at? (directory ++ [name]) with
  | none => rfl
  | some node => cases node with
    | file content => rfl
    | directory listing => exact absurd found (absent listing)

theorem written (lands : Lands disk path place) (rooted : Rooted disk)
    (free : disk.kind? place ≠ some .directory) (content : Bytes) :
    Updated disk (disk.putFile content place) place (some (.file content)) :=
  putFile_updated lands.ne_nil (lands.parent rooted) free content

theorem erased (lands : Lands disk path place) {content : Bytes}
    (file : disk.kind? place = some (.file content)) :
    Updated disk (disk.eraseAt place) place none :=
  eraseAt_updated lands.ne_nil (by simp [file])

end Lands

/-- A path to a file lands at the place of the file. -/
theorem lands_of_resolve {disk : Disk} (rooted : Rooted disk) {path : Path} {place : Place}
    {content : Bytes} (resolved : disk.resolve path = .ok place)
    (file : disk.kind? place = some (.file content)) : Lands disk path place := by
  unfold resolve at resolved
  split at resolved
  · simp at resolved
  · exact name_of_follow (Lands.kind?_start rooted path)
      (fun _ member => plain_of_mem_segments member) resolved file

theorem lands_of_isFile {disk : Disk} (rooted : Rooted disk) {path : Path}
    (file : disk.isFile path = true) :
    ∃ place content, Lands disk path place ∧ disk.kind? place = some (.file content) := by
  unfold isFile node? at file
  cases resolved : disk.resolve path with
  | error fault => simp [resolved] at file
  | ok place =>
    simp only [resolved] at file
    cases node : disk.at? place with
    | none => simp [node] at file
    | some node' => cases node' with
      | directory listing => simp [node] at file
      | file content =>
        have kind := at?_eq_file_iff.mp node
        exact ⟨place, content, lands_of_resolve rooted resolved kind, kind⟩

end ClassCoverage.Disk
