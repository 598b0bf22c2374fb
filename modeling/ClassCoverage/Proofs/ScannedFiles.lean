import ClassCoverage.Proofs.NewDirectories
import ClassCoverage.Scan
import Mathlib.Data.List.Basic
import Mathlib.Data.List.Induction

/-! The files a scan finds: those below its root on whose way no name is excluded, each once and in
the order of the names that lead to it. The path it answers for a file leads to this file. -/
namespace ClassCoverage

namespace Listing

theorem kind?_add_cons (name : String) (node : Node) (rest : Listing) (head : String)
    (tail : Place) :
    (add name node rest).kind? (head :: tail) =
      if name = head then node.kindBelow tail else rest.kind? (head :: tail) := by
  rw [kind?_cons, kind?_cons, find?_add]
  split <;> rfl

/-- A name lies behind another one if it is not the first. -/
theorem name_mem_of_kind? {listing : Listing} {head : String} {tail : Place} {kind : Kind}
    (found : listing.kind? (head :: tail) = some kind) : head ∈ listing.names := by
  by_contra absent
  rw [kind?_cons, (find?_eq_none_iff listing head).mpr absent] at found
  cases found

/-- Every name in the tree is one that a path can spell. -/
def Spelled : Listing → Prop
  | empty => True
  | file name _ rest => Path.IsName name ∧ rest.Spelled
  | directory name inner rest => Path.IsName name ∧ inner.Spelled ∧ rest.Spelled

instance decidableSpelled : (listing : Listing) → Decidable listing.Spelled
  | empty => inferInstanceAs (Decidable True)
  | file name _ rest =>
    have := decidableSpelled rest
    inferInstanceAs (Decidable (Path.IsName name ∧ rest.Spelled))
  | directory name inner rest =>
    have := decidableSpelled inner
    have := decidableSpelled rest
    inferInstanceAs (Decidable (Path.IsName name ∧ inner.Spelled ∧ rest.Spelled))

theorem Spelled.isName {listing : Listing} (spelled : listing.Spelled) {place : Place} {kind : Kind}
    (found : listing.kind? place = some kind) : ∀ name ∈ place, Path.IsName name := by
  induction listing generalizing place with
  | empty =>
    cases place with
    | nil => simp
    | cons head tail => cases found
  | file name content rest ih =>
    cases place with
    | nil => simp
    | cons head tail =>
      change (add name (.file content) rest).kind? (head :: tail) = some kind at found
      rw [kind?_add_cons] at found
      split at found
      · rename_i same
        have last : tail = [] := by
          by_contra more
          rw [Node.kindBelow, if_neg more] at found
          cases found
        rw [← same, last]
        exact List.forall_mem_singleton.mpr spelled.1
      · exact ih spelled.2 found
  | directory name inner rest inside ih =>
    cases place with
    | nil => simp
    | cons head tail =>
      change (add name (.directory inner) rest).kind? (head :: tail) = some kind at found
      rw [kind?_add_cons] at found
      split at found
      · rename_i same
        rw [← same]
        exact List.forall_mem_cons.mpr ⟨spelled.1, inside spelled.2.1 found⟩
      · exact ih spelled.2.2 found

end Listing

namespace Scan
open ClassCoverage.Path

variable {excluded : String → Bool}

/-- A file that is there, with no excluded name on its way. -/
structure Finds (excluded : String → Bool) (listing : Listing) (place : Place) : Prop where
  below : place ≠ []
  kept : ∀ name ∈ place, excluded name = false
  file : ∃ content, listing.kind? place = some (.file content)

private theorem name_mem_of_finds {listing : Listing} {head : String} {tail : Place}
    (finds : Finds excluded listing (head :: tail)) : head ∈ listing.names := by
  obtain ⟨content, file⟩ := finds.file
  exact Listing.name_mem_of_kind? file

/-- What is found in a listing is its first file, lies in its first directory, or is found
behind. -/
theorem finds_add_iff {name : String} {node : Node} {rest : Listing} {place : Place}
    (least : ∀ later ∈ rest.names, name < later) :
    Finds excluded (Listing.add name node rest) place ↔
      (excluded name = false ∧ ∃ tail, place = name :: tail ∧
      (∀ part ∈ tail, excluded part = false) ∧
        ∃ content, node.kindBelow tail = some (.file content)) ∨ Finds excluded rest place := by
  constructor
  · rintro ⟨below, kept, content, file⟩
    cases place with
    | nil => exact absurd rfl below
    | cons head tail =>
      rw [Listing.kind?_add_cons] at file
      obtain ⟨own, others⟩ := List.forall_mem_cons.mp kept
      split at file
      · rename_i same
        subst same
        exact .inl ⟨own, tail, rfl, others, content, file⟩
      · exact .inr ⟨below, kept, content, file⟩
  · rintro (⟨own, tail, rfl, others, content, file⟩ | finds)
    · refine ⟨by simp, List.forall_mem_cons.mpr ⟨own, others⟩, content, ?_⟩
      rwa [Listing.kind?_add_cons, if_pos rfl]
    · obtain ⟨below, kept, content, file⟩ := finds
      refine ⟨below, kept, content, ?_⟩
      cases place with
      | nil => exact absurd rfl below
      | cons head tail =>
        have behind := least head (Listing.name_mem_of_kind? file)
        rw [Listing.kind?_add_cons, if_neg]
        · exact file
        · rintro rfl
          exact String.lt_irrefl _ behind

theorem mem_places_iff {listing : Listing} (sorted : listing.Ordered) {place : Place} :
    place ∈ places excluded listing ↔ Finds excluded listing place := by
  induction listing generalizing place with
  | empty =>
    rw [places]
    constructor
    · intro impossible
      cases impossible
    · rintro ⟨below, -, content, file⟩
      cases place with
      | nil => exact absurd rfl below
      | cons head tail => cases file
  | file name content rest ih =>
    rw [places, show Listing.file name content rest =
      Listing.add name (.file content) rest from rfl,
      finds_add_iff sorted.1, ← ih sorted.2]
    have here : (∃ tail, place = name :: tail ∧ (∀ part ∈ tail, excluded part = false) ∧
        ∃ inside, (Node.file content).kindBelow tail = some (.file inside)) ↔ place = [name] := by
      constructor
      · rintro ⟨tail, rfl, -, inside, file⟩
        cases tail with
        | nil => rfl
        | cons head tail => cases file
      · rintro rfl
        exact ⟨[], rfl, by simp, content, rfl⟩
    rw [here]
    cases own : excluded name <;> simp
  | directory name inner rest ihInner ih =>
    rw [places, show Listing.directory name inner rest =
      Listing.add name (.directory inner) rest from rfl,
      finds_add_iff sorted.1, ← ih sorted.2.2]
    have here : (∃ tail, place = name :: tail ∧ (∀ part ∈ tail, excluded part = false) ∧
        ∃ inside, (Node.directory inner).kindBelow tail = some (.file inside)) ↔
        place ∈ (places excluded inner).map (name :: ·) := by
      rw [List.mem_map]
      constructor
      · rintro ⟨tail, rfl, kept, content, file⟩
        refine ⟨tail, (ihInner sorted.2.1).mpr ⟨?_, kept, content, file⟩, rfl⟩
        rintro rfl
        cases file
      · rintro ⟨tail, member, rfl⟩
        obtain ⟨-, kept, content, file⟩ := (ihInner sorted.2.1).mp member
        exact ⟨tail, rfl, kept, content, file⟩
    rw [here]
    cases own : excluded name <;> simp

/-- Files are found in the order of the names on their ways. -/
theorem increasing_places {listing : Listing} (sorted : listing.Ordered) :
    (places excluded listing).Pairwise (· < ·) := by
  have behind {name : String} {rest : Listing} (sorted : rest.Ordered)
      (least : ∀ later ∈ rest.names, name < later) (tail : Place) :
      ∀ other ∈ places excluded rest, name :: tail < other := by
    intro other member
    have finds := (mem_places_iff sorted).mp member
    cases other with
    | nil => exact absurd rfl finds.below
    | cons head below => exact List.Lex.rel (least head (name_mem_of_finds finds))
  induction listing with
  | empty => exact List.Pairwise.nil
  | file name content rest ih =>
    rw [places]
    split
    · exact ih sorted.2
    · exact List.pairwise_cons.mpr ⟨behind sorted.2 sorted.1 [], ih sorted.2⟩
  | directory name inner rest ihInner ih =>
    rw [places]
    split
    · exact ih sorted.2.2
    · refine List.pairwise_append.mpr ⟨?_, ih sorted.2.2, ?_⟩
      · exact List.pairwise_map.mpr ((ihInner sorted.2.1).imp List.Lex.cons)
      · intro one member other later
        obtain ⟨tail, -, rfl⟩ := List.mem_map.mp member
        exact behind sorted.2.2 sorted.1 tail other later

theorem pathTo_concat (root : Path) (front : Place) (name : String) :
    pathTo root (front ++ [name]) = (pathTo root front).join ⟨name⟩ := by
  simp [pathTo]

theorem relative_of_isName {name : String} (named : IsName name) :
    (⟨name⟩ : Path).isAbsolute = false := by
  refine not_isAbsolute fun body absolute => ?_
  exact named.plain (by rw [show name.toList = _ from absolute]; simp)

theorem segments_of_isName {name : String} (named : IsName name) :
    (⟨name⟩ : Path).segments = [name] :=
  segmentsOf_of_plain named.plain

/-- How the path of a file below a root is spelled. -/
structure Spells (root path : Path) (place : Place) : Prop where
  nonempty : path.spelling ≠ ""
  steps : path.steps = root.steps ++ place
  absolute : path.isAbsolute = root.isAbsolute

theorem Spells.join {root path : Path} {place : Place} (spells : Spells root path place)
    {name : String} (named : IsName name) :
    Spells root (path.join ⟨name⟩) (place ++ [name]) ∧
      ∃ front, (path.join ⟨name⟩).segments = front ++ [name] ∧ front.filter isStep =
        root.steps ++ place := by
  obtain ⟨front, segments, steps, absolute⟩ :=
    join_of_relative (relative_of_isName named) spells.nonempty
  rw [segments_of_isName named] at segments
  rw [spells.steps] at steps
  refine ⟨⟨?_, ?_, absolute.trans spells.absolute⟩, front, segments, steps⟩
  · exact spelling_ne_empty_of_segments segments named.nonempty
  · rw [Disk.steps_of_segments segments named.isLead, steps, List.append_assoc]

theorem spells_pathTo {root : Path} (nonempty : root.spelling ≠ "") {place : Place}
    (named : ∀ name ∈ place, IsName name) : Spells root (pathTo root place) place := by
  induction place using List.reverseRecOn with
  | nil => exact ⟨nonempty, (List.append_nil _).symm, rfl⟩
  | append_singleton front name ih =>
    rw [pathTo_concat]
    have earlier := ih fun other member => named other (List.mem_append_left _ member)
    exact (earlier.join (named name (by simp))).1

theorem segments_pathTo {root : Path} (nonempty : root.spelling ≠ "") {front : Place}
    {name : String} (named : ∀ part ∈ front ++ [name], IsName part) :
    ∃ before, (pathTo root (front ++ [name])).segments = before ++ [name] ∧
      before.filter isStep = root.steps ++ front := by
  have earlier := spells_pathTo nonempty fun other member =>
    named other (List.mem_append_left _ member)
  rw [pathTo_concat]
  exact (earlier.join (named name (by simp))).2

theorem fileName?_pathTo {root : Path} (nonempty : root.spelling ≠ "") {place : Place}
    (named : ∀ part ∈ place, IsName part) (below : place ≠ []) :
    (pathTo root place).fileName? = place.getLast? := by
  obtain ⟨front, name, rfl⟩ := (List.eq_nil_or_concat' place).resolve_left below
  obtain ⟨before, segments, -⟩ := segments_pathTo nonempty named
  rw [fileName?_of_segments segments (named name (by simp)), List.getLast?_concat]

/-- The path of a file below a directory lands at its place. -/
theorem lands_pathTo {disk : Disk} {root : Path} {top place : Place} {kind : Kind}
    (resolved : disk.resolve root = .ok top) (directory : disk.kind? top = some .directory)
    (below : place ≠ []) (named : ∀ part ∈ place, IsName part)
    (found : disk.kind? (top ++ place) = some kind) :
    disk.Lands (pathTo root place) (top ++ place) := by
  unfold Disk.resolve at resolved
  split at resolved
  · cases resolved
  · rename_i spelled
    have nonempty : root.spelling ≠ "" := by simpa using spelled
    have walked : Disk.walk disk.root (disk.start root) root.steps = some top :=
      Disk.walk_of_follow_directory resolved directory
    obtain ⟨front, name, rfl⟩ := (List.eq_nil_or_concat' place).resolve_left below
    obtain ⟨before, segments, steps⟩ := segments_pathTo nonempty named
    have spells := spells_pathTo nonempty named
    have start : disk.start (pathTo root (front ++ [name])) = disk.start root := by
      unfold Disk.start
      rw [spells.absolute]
    rw [← List.append_assoc] at found ⊢
    have parent : disk.root.kind? (top ++ front) = some .directory :=
      Listing.kind?_of_append found (by simp)
    refine ⟨before, name, top ++ front, segments, named name (by simp), ?_, rfl⟩
    rw [start, steps, Disk.walk_append walked]
    exact Disk.walk_names (fun part member => named part (List.mem_append_left _ member)) parent

theorem filesMatching_eq {disk : Disk} {root : Path} {top : Place} {listing : Listing}
    (resolved : disk.resolve root = .ok top) (found : disk.at? top = some (.directory listing))
    (keep : Path → Bool) :
    filesMatching keep root disk =
      .ok (((places isExcluded listing).map (pathTo root)).filter keep) := by
  unfold filesMatching
  simp only [resolved, bind, Except.bind, found]
  rfl

end Scan

namespace Disk

/-- Every name on the disk is one that a path can spell. -/
def Spelled (disk : Disk) :
    Prop := ∀ place kind, disk.kind? place = some kind → ∀ name ∈ place, Path.IsName name

theorem spelled_of_root {disk : Disk} (spelled : disk.root.Spelled) :
    disk.Spelled := fun _ _ => spelled.isName

theorem kind?_below {disk : Disk} {top : Place} {listing : Listing}
    (found : disk.at? top = some (.directory listing)) (below : Place) :
    disk.kind? (top ++ below) = listing.kind? below := by
  unfold kind? Listing.kind?
  rw [Listing.at?_append found]

theorem Spelled.placed {disk disk' : Disk} (spelled : disk.Spelled) (rooted : disk.Rooted)
    {path : Path} {place : Place} {above : List Place} {content : Bytes}
    (aims : Aims disk path place above) (placed : Placed disk disk' above place content) :
    disk'.Spelled := by
  intro other kind found
  rw [placed.kinds] at found
  split at found
  · rename_i same
    exact same ▸ (aims.named rooted).1
  · split at found
    · rename_i member
      exact (aims.named rooted).2 other member
    · exact spelled other kind found

theorem spelling_of_resolve {disk : Disk} {path : Path} {place : Place}
    (resolved : disk.resolve path = .ok place) :
    path.spelling ≠ "" := by
  intro empty
  unfold resolve at resolved
  rw [if_pos (String.isEmpty_iff.mpr empty)] at resolved
  cases resolved

theorem isDirectory_of_resolve {disk : Disk} {path : Path} {place : Place}
    (resolved : disk.resolve path = .ok place) (directory : disk.kind? place = some .directory) :
    disk.isDirectory path = true := by
  obtain ⟨listing, here⟩ := at?_eq_directory_iff.mpr directory
  unfold isDirectory node?
  simp only [resolved, here]

/-- A path to a directory, and what is in it. -/
theorem resolve_of_isDirectory {disk : Disk} {path : Path}
    (directory : disk.isDirectory path = true) :
    ∃ place listing, disk.resolve path = .ok place ∧
      disk.at? place = some (.directory listing) := by
  unfold isDirectory node? at directory
  cases resolved : disk.resolve path with
  | error fault => simp [resolved] at directory
  | ok place =>
    simp only [resolved] at directory
    cases found : disk.at? place with
    | none => simp [found] at directory
    | some node => cases node with
      | file content => simp [found] at directory
      | directory listing => exact ⟨place, listing, rfl, found⟩

end Disk
end ClassCoverage
