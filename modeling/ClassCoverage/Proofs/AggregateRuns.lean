import ClassCoverage.Aggregate
import ClassCoverage.Proofs.MetadataSave
import ClassCoverage.Proofs.ScannedFiles
import ClassCoverage.Proofs.StoreSums

/-! Adding up the metadata files below a directory. The sum counts every file but the one it is
written to once; it is written as a whole or not at all, and adding up again changes nothing. -/
namespace ClassCoverage

namespace Aggregate
open ClassCoverage.Path

/-- A file of the name below a directory, with no excluded name on its way, that is not the
target. -/
structure IsSummand (disk : Disk) (top : Place) (fileName : String) (target place : Place) :
    Prop where
  found : ∃ below, place = top ++ below ∧ below.getLast? = some fileName ∧
    ∀ part ∈ below, Scan.isExcluded part = false
  file : ∃ content, disk.kind? place = some (.file content)
  apart : place ≠ target

/-- The places below a directory of the files that count. -/
def placesBelow (listing : Listing) (top : Place) (fileName : String)
    (target : Place) : List Place :=
  ((Scan.places Scan.isExcluded listing).filter fun place => place.getLast? = some fileName).filter
    fun place => top ++ place ≠ target

def summands (listing : Listing) (top : Place) (fileName : String) (target : Place) : List Place :=
  (placesBelow listing top fileName target).map (top ++ ·)

section
variable {disk : Disk} {listing : Listing} {top target : Place} {fileName : String}

theorem mem_summands_iff (found : disk.at? top = some (.directory listing)) {place : Place} :
    place ∈ summands listing top fileName target ↔ IsSummand disk top fileName target place := by
  have sorted : listing.Ordered := Listing.ordered_at? disk.ordered found
  simp only [summands, placesBelow, List.mem_map, List.mem_filter, decide_eq_true_eq,
    Scan.mem_places_iff sorted]
  constructor
  · rintro ⟨below, ⟨⟨finds, last⟩, apart⟩, rfl⟩
    obtain ⟨content, file⟩ := finds.file
    exact ⟨⟨below, rfl, last, finds.kept⟩, ⟨content, by rw [Disk.kind?_below found, file]⟩, apart⟩
  · rintro ⟨⟨below, rfl, last, kept⟩, ⟨content, file⟩, apart⟩
    rw [Disk.kind?_below found] at file
    refine ⟨below, ⟨⟨⟨?_, kept, content, file⟩, last⟩, apart⟩, rfl⟩
    rintro rfl
    cases last

theorem nodup_summands (found : disk.at? top = some (.directory listing)) :
    (summands listing top fileName target).Nodup := by
  have sorted : listing.Ordered := Listing.ordered_at? disk.ordered found
  have nodup : (Scan.places Scan.isExcluded listing).Nodup := by
    apply List.Pairwise.imp _ (Scan.increasing_places sorted)
    intro one other less same
    rw [same] at less
    exact List.lt_irrefl _ less
  apply List.Nodup.map
  · intro one other same
    exact List.append_cancel_left same
  · exact (nodup.filter _).filter _

end

/-- The target is found under its path if it is there at all. -/
def Seen (disk : Disk) (output : Path) (target : Place) : Prop :=
  ∀ content, disk.kind? target = some (.file content) → disk.resolve output = .ok target

/-- A search for the files of one name, and the file that the sum of their stores goes to. -/
structure Search (disk : Disk) (root : Path) (top : Place) (listing : Listing) (output : Path)
    (target : Place) (above : List Place) : Prop where
  rooted : disk.Rooted
  spelled : disk.Spelled
  resolved : disk.resolve root = .ok top
  found : disk.at? top = some (.directory listing)
  aims : disk.Aims output target above
  writable : disk.Open above target
  seen : Seen disk output target

namespace Search
variable {disk : Disk} {root output : Path} {top target : Place}
  {listing : Listing} {above : List Place}

theorem directory (search : Search disk root top listing output target above) :
    disk.kind? top = some .directory :=
  Disk.at?_eq_directory_iff.mp ⟨listing, search.found⟩

private theorem spelling (search : Search disk root top listing output target above) :
    root.spelling ≠ "" :=
  Disk.spelling_of_resolve search.resolved

variable {place : Place}

theorem file (search : Search disk root top listing output target above)
    (member : place ∈ Scan.places Scan.isExcluded listing) :
    place ≠ [] ∧ (∀ part ∈ place, IsName part) ∧ ∃ content, disk.kind? (top ++ place) =
      some (.file content) := by
  have sorted : listing.Ordered := Listing.ordered_at? disk.ordered search.found
  obtain ⟨below, -, content, file⟩ := (Scan.mem_places_iff sorted).mp member
  have inside : disk.kind? (top ++ place) = some (.file content) := by
    rw [Disk.kind?_below search.found, file]
  refine ⟨below, fun part own => ?_, content, inside⟩
  exact search.spelled _ _ inside part (List.mem_append_right _ own)

theorem lands (search : Search disk root top listing output target above)
    (member : place ∈ Scan.places Scan.isExcluded listing) :
    disk.Lands (Scan.pathTo root place) (top ++ place) := by
  obtain ⟨below, named, content, file⟩ := search.file member
  exact Scan.lands_pathTo search.resolved search.directory below named file

private theorem sameFile_iff (search : Search disk root top listing output target above)
    (member : place ∈ Scan.places Scan.isExcluded listing) :
    sameFile disk (Scan.pathTo root place) output = true ↔ top ++ place = target := by
  obtain ⟨-, -, content, file⟩ := search.file member
  have own : disk.canonical? (Scan.pathTo root place) = some (top ++ place) := by
    rw [Disk.canonical?, (search.lands member).resolve file]
    rfl
  unfold sameFile
  rw [own]
  constructor
  · intro same
    cases resolved : disk.resolve output with
    | error fault =>
      rw [Disk.canonical?, resolved] at same
      cases same
    | ok found =>
      rw [Disk.canonical?, resolved] at same
      have equal : top ++ place = found := beq_iff_eq.mp same
      exact equal.trans (search.aims.resolve resolved)
  · intro same
    rw [same] at file ⊢
    rw [Disk.canonical?, search.seen content file]
    simp [Except.toOption]

/-- The paths that are left after the target is passed over. -/
theorem paths_eq (search : Search disk root top listing output target above) (fileName : String) :
    ((((Scan.places Scan.isExcluded listing).map (Scan.pathTo root)).filter
        fun path => path.fileName? == some fileName).filter fun path =>
        !sameFile disk path output) =
      (placesBelow listing top fileName target).map (Scan.pathTo root) := by
  rw [List.filter_map, List.filter_map, placesBelow, List.filter_filter, List.filter_filter]
  congr 1
  apply List.filter_congr
  intro place member
  obtain ⟨below, named, -⟩ := search.file member
  have other := search.sameFile_iff member
  simp only [Function.comp_apply, Scan.fileName?_pathTo search.spelling named below]
  by_cases last : place.getLast? = some fileName
  · by_cases same : top ++ place = target
    · simp [last, same, other.mpr same]
    · have apart : sameFile disk (Scan.pathTo root place) output = false := by
        rw [Bool.eq_false_iff]
        exact fun equal => same (other.mp equal)
      simp [last, same, apart]
  · simp [last]

end Search

/-- The store in the file at a place, if it is a metadata file. -/
def storeAt? (disk : Disk) (place : Place) : Option Store :=
  match disk.kind? place with
  | some (.file content) => (Metadata.decode content).toOption
  | _ => none

def storesAt (disk : Disk) (places : List Place) : List Store := places.filterMap (storeAt? disk)

/-- Some file is no metadata file, or two of them disagree on the layout of a class. -/
def Refused (disk : Disk) (places : List Place) : Prop :=
  (∃ place ∈ places, storeAt? disk place = none) ∨
    ∃ one ∈ places, ∃ other ∈ places, ∃ ours theirs, storeAt? disk one = some ours ∧
      storeAt? disk other = some theirs ∧ ¬ Store.Compatible ours theirs

private theorem map_storeAt? {disk : Disk} {places : List Place}
    (valid : ∀ place ∈ places, storeAt? disk place ≠ none) :
    places.map (storeAt? disk) = (storesAt disk places).map some := by
  induction places with
  | nil => rfl
  | cons place places ih =>
    rw [List.forall_mem_cons] at valid
    obtain ⟨store, held⟩ := Option.ne_none_iff_exists'.mp valid.1
    rw [storesAt, List.filterMap_cons_some held, List.map_cons, List.map_cons, held, ih valid.2]
    rfl

private theorem measuredRecord_storesAt {disk : Disk} {places : List Place} :
    ∀ store ∈ storesAt disk places, ∀ record ∈ store.records, Metadata.MeasuredRecord record := by
  intro store member
  obtain ⟨place, -, held⟩ := List.mem_filterMap.mp member
  unfold storeAt? at held
  split at held
  · rename_i content file
    cases read : Metadata.decode content with
    | error problem =>
      rw [read] at held
      cases held
    | ok own =>
      rw [read] at held
      cases held
      exact Metadata.measuredRecord_of_decode read
  · cases held

theorem refused_iff {disk : Disk} {places : List Place} :
    Refused disk places ↔
      (∃ place ∈ places, storeAt? disk place = none) ∨
      ¬ Store.AllCompatible (storesAt disk places) := by
  have symmetric : Std.Symm Store.Compatible := ⟨fun _ _ => Store.Compatible.symm⟩
  unfold Refused
  constructor
  · rintro (bad | ⟨one, member, other, member', ours, theirs, left, right, clash⟩)
    · exact .inl bad
    · refine .inr fun compatible => clash ?_
      apply List.Pairwise.forall_of_forall (fun store _ => Store.compatible_self store) compatible
      · exact List.mem_filterMap.mpr ⟨one, member, left⟩
      · exact List.mem_filterMap.mpr ⟨other, member', right⟩
  · rintro (bad | clash)
    · exact .inl bad
    · by_contra fine
      push Not at fine
      apply clash
      apply List.pairwise_of_forall_mem_list
      intro ours member theirs member'
      obtain ⟨one, own, left⟩ := List.mem_filterMap.mp member
      obtain ⟨other, own', right⟩ := List.mem_filterMap.mp member'
      exact fine.2 one own other own' ours theirs left right

/-- Adds the store in a file to a sum. -/
def addFile (sum : Store) (path : Path) : Action Store := do
  match ← Metadata.load path with
  | some store => Action.ofExcept Failure.ofConflict (sum.merge store)
  | none => return sum

private theorem mergeFiles_eq (paths : List Path) :
    Metadata.mergeFiles paths = paths.foldlM addFile .empty := rfl

end Aggregate

/-- Was a file not to be read, or not to be added to the others? -/
def Failure.isOfData : Failure → Bool
  | io .. => true
  | metadata .. => true
  | conflict .. => true
  | _ => false

namespace Metadata
open ClassCoverage.Aggregate (storeAt? storesAt)

/-- The place of what is there under a path. -/
def named? (disk : Disk) (path : Path) :
    Option Place := if disk.exists? path then disk.canonical? path else none

theorem named?_eq_some_iff {disk : Disk} {path : Path} {place : Place} :
    named? disk path = some place ↔ disk.resolve path = .ok place ∧
    ∃ kind, disk.kind? place = some kind := by
  unfold named? Disk.canonical?
  constructor
  · intro named
    split at named
    · rename_i there
      obtain ⟨place', kind, resolved, found⟩ := resolve_of_exists? there
      rw [resolved] at named
      cases named
      exact ⟨resolved, kind, found⟩
    · cases named
  · rintro ⟨resolved, kind, found⟩
    rw [if_pos (exists?_of_resolve resolved found), resolved]
    rfl

private theorem load_of_unnamed {disk : Disk} {path : Path} (unnamed : named? disk path = none) :
    (load path).run.run disk = (.ok none, disk) := by
  apply load_of_missing
  by_contra there
  rw [Bool.not_eq_false] at there
  obtain ⟨place, kind, resolved, found⟩ := resolve_of_exists? there
  rw [named?_eq_some_iff.mpr ⟨resolved, kind, found⟩] at unnamed
  cases unnamed

/-- What is there is loaded as the store in it, or not at all. -/
theorem load_of_named {disk : Disk} {path : Path} {place : Place}
    (named : named? disk path = some place) :
    (∃ store, storeAt? disk place = some store ∧ (load path).run.run disk =
      (.ok (some store), disk)) ∨
      (storeAt? disk place = none ∧
        ∃ failure, (load path).run.run disk = (.error failure, disk) ∧
          failure.isOfData = true) := by
  obtain ⟨resolved, kind, found⟩ := named?_eq_some_iff.mp named
  cases kind with
  | file content =>
    have held : disk.read path = .ok content := by
      unfold Disk.read
      rw [resolved]
      simp only [bind, Except.bind, Disk.at?_eq_file_iff.mpr found]
      rfl
    have own : storeAt? disk place = (decode content).toOption := by
      unfold storeAt?
      rw [found]
    rw [own]
    cases decoded : decode content with
    | ok store => exact .inl ⟨store, rfl, load_of_decode held decoded⟩
    | error problem => exact .inr ⟨rfl, _, load_of_spoilt held decoded, rfl⟩
  | directory =>
    have own : storeAt? disk place = none := by
      unfold storeAt?
      rw [found]
    obtain ⟨listing, here⟩ := Disk.at?_eq_directory_iff.mpr found
    have refused : disk.read path = .error .isDirectory := by
      unfold Disk.read
      rw [resolved]
      simp only [bind, Except.bind, here]
      rfl
    exact .inr ⟨own, _, load_of_unreadable (exists?_of_resolve resolved found) refused, rfl⟩

/-- The places of all that is there under some paths, each as often as it is named. -/
def named (disk : Disk) (paths : List Path) : List Place := paths.filterMap (named? disk)

/-- All that is there can be read, and added to a sum. -/
def Addable (disk : Disk) (start : Store) (places : List Place) : Prop :=
  (∀ place ∈ places, storeAt? disk place ≠ none) ∧
    Store.AllCompatible (start :: storesAt disk places)

private theorem addable_cons_iff {disk : Disk} {start store : Store} {place : Place}
    {places : List Place} (held : storeAt? disk place = some store) :
    Addable disk start (place :: places) ↔ Store.Compatible start store ∧
    Addable disk (start.sum store) places := by
  have stores : storesAt disk (place :: places) = store :: storesAt disk places :=
    List.filterMap_cons_some held
  unfold Addable
  rw [List.forall_mem_cons, stores, Store.allCompatible_cons_cons_iff, held]
  simp only [ne_eq, reduceCtorEq, not_false_eq_true, true_and]
  exact and_left_comm

/-- What is missing is passed over. -/
theorem run_addFile_of_unnamed {disk : Disk} {path : Path} (unnamed : named? disk path = none)
    (start : Store) :
    (Aggregate.addFile start path).run.run disk = (.ok start, disk) := by
  unfold Aggregate.addFile
  rw [Steps.run_bind, load_of_unnamed unnamed]
  rfl

private theorem run_addFile_of_loaded {disk : Disk} {path : Path} {store : Store}
    (loaded : (load path).run.run disk = (.ok (some store), disk)) (start : Store) :
    (Aggregate.addFile start path).run.run disk =
      ((start.merge store).mapError Failure.ofConflict, disk) := by
  unfold Aggregate.addFile
  rw [Steps.run_bind, loaded]
  exact Action.run_ofExcept _ _ disk

private theorem run_addFile_of_failed {disk : Disk} {path : Path} {failure : Failure}
    (failed : (load path).run.run disk = (.error failure, disk)) (start : Store) :
    (Aggregate.addFile start path).run.run disk = (.error failure, disk) := by
  unfold Aggregate.addFile
  rw [Steps.run_bind, failed]

/-- Files are added up unless one of them cannot be. What is missing is passed over. -/
theorem run_foldlM_addFile_named (disk : Disk) (paths : List Path) (start : Store) :
    (Addable disk start (named disk paths) → (paths.foldlM Aggregate.addFile start).run.run disk =
      (.ok ((storesAt disk (named disk paths)).foldl Store.sum start), disk)) ∧
    (¬ Addable disk start (named disk paths) →
      ∃ failure, (paths.foldlM Aggregate.addFile start).run.run disk = (.error failure, disk) ∧
        failure.isOfData = true) := by
  induction paths generalizing start with
  | nil =>
    constructor
    · intro _
      rfl
    · intro impossible
      exact absurd ⟨nofun, List.pairwise_singleton _ _⟩ impossible
  | cons path paths ih =>
    rw [List.foldlM_cons, Steps.run_bind]
    cases first : named? disk path with
    | none =>
      have same : named disk (path :: paths) = named disk paths := List.filterMap_cons_none first
      rw [same, run_addFile_of_unnamed first]
      exact ih start
    | some place =>
      have more : named disk (path :: paths) = place :: named disk paths :=
        List.filterMap_cons_some first
      rw [more]
      rcases load_of_named first with ⟨store, held, loaded⟩ | ⟨none, failure, failed, ofData⟩
      · have stores : storesAt disk (place :: named disk paths) =
            store :: storesAt disk (named disk paths) :=
          List.filterMap_cons_some held
        rw [run_addFile_of_loaded loaded, addable_cons_iff held, stores, List.foldl_cons]
        by_cases compatible : Store.Compatible start store
        · rw [Store.merge_of_compatible compatible, and_iff_right compatible]
          exact ih (start.sum store)
        · obtain ⟨conflict, refused, -⟩ := Store.merge_of_not_compatible compatible
          rw [refused]
          exact ⟨fun ⟨fine, _⟩ => absurd fine compatible, fun _ => ⟨_, rfl, rfl⟩⟩
      · rw [run_addFile_of_failed failed]
        exact ⟨fun ⟨fine, _⟩ => absurd none (fine place (List.mem_cons_self ..)), fun _ =>
          ⟨failure, rfl, ofData⟩⟩

end Metadata

namespace Aggregate
variable {disk : Disk}

private theorem named_of_files {paths : List Path} {places : List Place}
    (files : List.Forall₂ (fun path place => disk.Lands path place ∧ ∃ content, disk.kind? place =
      some (.file content)) paths places) : Metadata.named disk paths = places := by
  induction files with
  | nil => rfl
  | cons first later ih =>
    obtain ⟨lands, content, file⟩ := first
    have here := Metadata.named?_eq_some_iff.mpr ⟨lands.resolve file, _, file⟩
    rw [Metadata.named, List.filterMap_cons_some here, ← ih, Metadata.named]

/-- Files are added up unless one is no metadata file or two of their stores clash. -/
theorem run_mergeFiles {paths : List Path} {places : List Place}
    (files : List.Forall₂ (fun path place => disk.Lands path place ∧
      ∃ content, disk.kind? place = some (.file content)) paths places) :
    (¬ Refused disk places → (Metadata.mergeFiles paths).run.run disk =
      (.ok (Store.total (storesAt disk places)), disk)) ∧
    (Refused disk places → ∃ failure, (Metadata.mergeFiles paths).run.run disk =
      (.error failure, disk)) := by
  have fine : ¬ Refused disk places ↔ Metadata.Addable disk .empty places := by
    rw [refused_iff, Metadata.Addable, Store.allCompatible_empty_iff, not_or, not_not]
    push Not
    rfl
  obtain ⟨adds, fails⟩ := Metadata.run_foldlM_addFile_named disk paths .empty
  rw [named_of_files files] at adds fails
  rw [mergeFiles_eq]
  refine ⟨fun accepted => adds (fine.mp accepted), fun refused => ?_⟩
  obtain ⟨failure, failed, -⟩ := fails fun addable => fine.mpr addable refused
  exact ⟨failure, failed⟩

namespace Search
variable {disk : Disk} {root output : Path} {top target : Place}
  {listing : Listing} {above : List Place}

private theorem files (search : Search disk root top listing output target above)
    (fileName : String) :
    List.Forall₂ (fun path place => disk.Lands path place ∧ ∃ content, disk.kind? place =
      some (.file content))
      ((placesBelow listing top fileName target).map (Scan.pathTo root))
      (summands listing top fileName target) := by
  rw [summands, List.forall₂_map_left_iff, List.forall₂_map_right_iff, List.forall₂_same]
  intro place member
  have inside := (List.mem_filter.mp (List.mem_filter.mp member).1).1
  obtain ⟨-, -, file⟩ := search.file inside
  exact ⟨search.lands inside, file⟩

/-- What is done with the files that are left. -/
def addUp (paths : List Path) (output : Path) : Action Aggregate := do
  if paths.isEmpty then return .nothing
  let sum ← Metadata.mergeFiles paths
  Metadata.save sum output
  return .merged paths.length sum.size

private theorem run_eq_addUp (search : Search disk root top listing output target above)
    (fileName : String) :
    (Aggregate.run root fileName output).run.run disk =
      (addUp ((placesBelow listing top fileName target).map (Scan.pathTo root))
        output).run.run disk := by
  have isDirectory : disk.isDirectory root = true := by
    unfold Disk.isDirectory Disk.node?
    simp only [search.resolved, search.found]
  have discovered : (Scan.discover fileName root).run.run disk =
      (.ok (((Scan.places Scan.isExcluded listing).map (Scan.pathTo root)).filter
        fun path => path.fileName? == some fileName), disk) :=
    Action.run_look_ok (Scan.filesMatching_eq search.resolved search.found _)
  unfold Aggregate.run
  rw [Steps.run_bind, Steps.run_get]
  simp only [isDirectory, ↓reduceIte]
  rw [Steps.run_bind, discovered]
  simp only
  rw [Steps.run_bind, Steps.run_get]
  simp only [search.paths_eq]
  rfl

/-- One run, by what it finds. -/
theorem run (search : Search disk root top listing output target above) (fileName : String) :
    (summands listing top fileName target = [] →
      (Aggregate.run root fileName output).run.run disk = (.ok .nothing, disk)) ∧
    (Refused disk (summands listing top fileName target) →
      ∃ failure, (Aggregate.run root fileName output).run.run disk = (.error failure, disk)) ∧
    (summands listing top fileName target ≠ [] →
    ¬ Refused disk (summands listing top fileName target) →
      ∃ disk', (Aggregate.run root fileName output).run.run disk =
          (.ok (.merged (summands listing top fileName target).length
            (Store.total (storesAt disk (summands listing top fileName target))).size), disk') ∧
        disk.Placed disk' above target
          (Metadata.encode
            (Store.total (storesAt disk (summands listing top fileName target))))) := by
  rw [search.run_eq_addUp]
  have files := search.files fileName
  have length := files.length_eq
  obtain ⟨merged, refused⟩ := run_mergeFiles files
  generalize (placesBelow listing top fileName target).map (Scan.pathTo root) =
    paths at merged refused length ⊢
  generalize summands listing top fileName target = places at merged refused length ⊢
  unfold addUp
  refine ⟨?_, ?_, ?_⟩
  · rintro rfl
    rw [List.length_eq_zero_iff.mp length]
    rfl
  · intro bad
    obtain ⟨failure, failed⟩ := refused bad
    have some : places ≠ [] := by
      rintro rfl
      rcases bad with ⟨place, member, -⟩ | ⟨place, member, -⟩ <;> cases member
    have nonempty : paths.isEmpty = false := by
      rw [List.isEmpty_eq_false_iff, ← List.length_pos_iff, length]
      exact List.length_pos_iff.mpr some
    simp only [nonempty, Bool.false_eq_true, ↓reduceIte]
    rw [Steps.run_bind, failed]
    exact ⟨failure, rfl⟩
  · intro some fine
    have nonempty : paths.isEmpty = false := by
      rw [List.isEmpty_eq_false_iff, ← List.length_pos_iff, length]
      exact List.length_pos_iff.mpr some
    simp only [nonempty, Bool.false_eq_true, ↓reduceIte]
    obtain ⟨disk', saved, placed⟩ := Metadata.run_save search.rooted search.aims search.writable
      (Store.total (storesAt disk places))
    rw [Steps.run_bind, merged fine]
    simp only
    rw [Steps.run_bind, saved]
    exact ⟨disk', by rw [length]; rfl, placed⟩

/-! After a run the same is found again, and the target is passed over even if it was not there
before. -/

variable {disk' : Disk} {content : Bytes}

private theorem again (search : Search disk root top listing output target above)
    (placed : disk.Placed disk' above target content) :
    ∃ listing', Search disk' root top listing' output target above := by
  have keeps := placed.keeps search.writable
  have rooted' := search.rooted.keep keeps
  obtain ⟨listing', found⟩ := Disk.at?_eq_directory_iff.mpr (keeps.directory top search.directory)
  have aims' := search.aims.keep placed.workPlace
  have lands := aims'.lands rooted' (placed.above_directory search.writable)
  exact ⟨listing', {
    rooted := rooted'
    spelled := search.spelled.placed search.rooted search.aims placed
    resolved := Disk.resolve_keep keeps search.resolved search.directory
    found := found
    aims := aims'
    writable := placed.open_again search.writable
    seen := fun _ file => lands.resolve file }⟩

private theorem isSummand_again_iff (search : Search disk root top listing output target above)
    (placed : disk.Placed disk' above target content) {fileName : String} {place : Place} :
    IsSummand disk' top fileName target place ↔ IsSummand disk top fileName target place := by
  constructor
  · rintro ⟨found, ⟨bytes, file⟩, apart⟩
    exact ⟨found, ⟨bytes, (placed.file_iff search.writable apart bytes).mp file⟩, apart⟩
  · rintro ⟨found, ⟨bytes, file⟩, apart⟩
    exact ⟨found, ⟨bytes, (placed.file_iff search.writable apart bytes).mpr file⟩, apart⟩

theorem summands_again (search : Search disk root top listing output target above)
    (placed : disk.Placed disk' above target content) {listing' : Listing}
    (search' : Search disk' root top listing' output target above) (fileName : String) :
    (summands listing' top fileName target).Perm (summands listing top fileName target) := by
  rw [List.perm_ext_iff_of_nodup (nodup_summands search'.found) (nodup_summands search.found)]
  intro place
  rw [mem_summands_iff search'.found, mem_summands_iff search.found,
    search.isSummand_again_iff placed]

theorem storeAt?_again (search : Search disk root top listing output target above)
    (placed : disk.Placed disk' above target content) {place : Place} (apart : place ≠ target) :
    storeAt? disk' place = storeAt? disk place := by
  have same := placed.file_iff search.writable apart
  unfold storeAt?
  cases before : disk.kind? place with
  | none =>
    cases after : disk'.kind? place with
    | none => rfl
    | some kind => cases kind with
      | directory => rfl
      | file bytes =>
        rw [(same bytes).mp after] at before
        cases before
  | some kind => cases kind with
    | file bytes => rw [(same bytes).mpr before]
    | directory =>
      cases after : disk'.kind? place with
      | none => rfl
      | some kind => cases kind with
        | directory => rfl
        | file bytes =>
          rw [(same bytes).mp after] at before
          cases before

theorem storesAt_again (search : Search disk root top listing output target above)
    (placed : disk.Placed disk' above target content) {listing' : Listing}
    (search' : Search disk' root top listing' output target above) (fileName : String) :
    (storesAt disk' (summands listing' top fileName target)).Perm
      (storesAt disk (summands listing top fileName target)) := by
  have apart : ∀ place ∈ summands listing top fileName target, storeAt? disk' place =
      storeAt? disk place :=
    fun place member =>
      search.storeAt?_again placed ((mem_summands_iff search.found).mp member).apart
  have same : storesAt disk (summands listing top fileName target) =
      storesAt disk' (summands listing top fileName target) :=
    List.filterMap_congr fun place member => (apart place member).symm
  rw [same]
  exact (search.summands_again placed search' fileName).filterMap _

private theorem refused_again_iff (search : Search disk root top listing output target above)
    (placed : disk.Placed disk' above target content) {listing' : Listing}
    (search' : Search disk' root top listing' output target above) (fileName : String) :
    Refused disk' (summands listing' top fileName target) ↔
      Refused disk (summands listing top fileName target) := by
  have order := search.summands_again placed search' fileName
  have stores := search.storesAt_again placed search' fileName
  rw [refused_iff, refused_iff]
  apply or_congr
  · constructor
    · rintro ⟨place, member, none⟩
      have own := order.mem_iff.mp member
      rw [search.storeAt?_again placed ((mem_summands_iff search.found).mp own).apart] at none
      exact ⟨place, own, none⟩
    · rintro ⟨place, member, none⟩
      rw [← search.storeAt?_again placed ((mem_summands_iff search.found).mp member).apart] at none
      exact ⟨place, order.mem_iff.mpr member, none⟩
  · exact not_congr ⟨.perm stores, .perm stores.symm⟩

end Search

/-- The sum has every file that counts once, whatever the order. Without one nothing happens, and
nothing changes if they cannot be added up. Otherwise the sum is the only file that is new, and
adding up again answers the same and leaves everything as it is. -/
theorem run_exact {disk : Disk} {root output : Path} {top target : Place} {listing : Listing}
    {above : List Place} (search : Search disk root top listing output target above)
    (fileName : String) :
    ∃ places : List Place, places.Nodup ∧
      (∀ place, place ∈ places ↔ IsSummand disk top fileName target place) ∧
      (((Aggregate.run root fileName output).run.run disk).1 = .ok .nothing ↔ places = []) ∧
      (places = [] → ((Aggregate.run root fileName output).run.run disk).2 = disk) ∧
      (Refused disk places →
        ∃ failure, (Aggregate.run root fileName output).run.run disk = (.error failure, disk)) ∧
      (places ≠ [] → ¬ Refused disk places → ∃ sum disk',
        (Aggregate.run root fileName output).run.run disk =
          (.ok (.merged places.length ((storesAt disk places).flatMap Store.names).dedup.length),
          disk') ∧
        places.map (storeAt? disk) = (storesAt disk places).map some ∧
        (∀ order : List Store, order.Perm (storesAt disk places) →
        order.foldlM Store.merge .empty = .ok sum) ∧
        disk'.read output = .ok (Metadata.encode sum) ∧
        (sum.size < 2 ^ (64 : Nat) → (Metadata.load output).run.run disk' =
          (.ok (some sum), disk')) ∧
        (∀ place, place ≠ target → ∀ content,
          disk'.kind? place = some (.file content) ↔ disk.kind? place = some (.file content)) ∧
        (Aggregate.run root fileName output).run.run disk' =
          (.ok (.merged places.length ((storesAt disk places).flatMap Store.names).dedup.length),
          disk')) := by
  obtain ⟨nothing, refused, merged⟩ := search.run fileName
  refine ⟨summands listing top fileName target, nodup_summands search.found,
    fun place => mem_summands_iff search.found, ?_, ?_, refused, ?_⟩
  · constructor
    · intro answer
      by_contra some
      by_cases bad : Refused disk (summands listing top fileName target)
      · obtain ⟨failure, run⟩ := refused bad
        rw [run] at answer
        cases answer
      · obtain ⟨disk', run, -⟩ := merged some bad
        rw [run] at answer
        cases answer
    · intro none
      rw [nothing none]
  · intro none
    rw [nothing none]
  · intro some fine
    obtain ⟨disk', run, placed⟩ := merged some fine
    obtain ⟨valid, compatible⟩ : (∀ place ∈ summands listing top fileName target,
      storeAt? disk place ≠ none) ∧
        Store.AllCompatible (storesAt disk (summands listing top fileName target)) := by
      rw [refused_iff, not_or, not_not] at fine
      push Not at fine
      exact fine
    have rooted' := search.rooted.keep (placed.keeps search.writable)
    have lands :=
      (search.aims.keep placed.workPlace).lands rooted' (placed.above_directory search.writable)
    have held := lands.read placed.here
    rw [Store.size_total] at run
    refine ⟨Store.total (storesAt disk (summands listing top fileName target)), disk', run, ?_,
      ?_, held, ?_, ?_, ?_⟩
    · exact map_storeAt? valid
    · intro order same
      exact Store.foldlM_merge_perm same.symm compatible
    · intro few
      have measured :
          Metadata.Measured (Store.total (storesAt disk (summands listing top fileName target))) :=
        ⟨few, Metadata.measuredRecord_foldl_sum (by simp [Store.empty]) measuredRecord_storesAt⟩
      exact Metadata.load_of_read measured held
    · intro place apart content
      exact placed.file_iff search.writable apart content
    · obtain ⟨listing', search'⟩ := search.again placed
      have order := search.summands_again placed search' fileName
      have stores := search.storesAt_again placed search' fileName
      have same := Store.total_perm stores (compatible.perm stores.symm)
      obtain ⟨-, -, merged'⟩ := search'.run fileName
      obtain ⟨disk'', run', placed'⟩ := merged' (fun none => some (List.nil_perm.mp (none ▸ order)))
        (fun bad => fine ((search.refused_again_iff placed search' fileName).mp bad))
      rw [same, order.length_eq, Store.size_total] at run'
      rw [same] at placed'
      rw [placed.again search.writable placed'] at run'
      exact run'

/-! Two modules with a class in common, below a directory that has an older sum of the same name. -/

private def hitStore (hits : UInt64) :
    Store := .single { name := "A", lines := [{ line := 1, hits := hits }] }

private def twoModules (one other old : Bytes) : Disk where
  root := .directory "a" (.file "coverage.dat" one .empty)
    (.directory "b" (.file "coverage.dat" other .empty) (.file "coverage.dat" old .empty))
  ordered := ⟨show ∀ later ∈ ["b", "coverage.dat"], "a" < later by decide, ⟨nofun, trivial⟩,
    show ∀ later ∈ ["coverage.dat"], "b" < later by decide, ⟨nofun, trivial⟩, nofun, trivial⟩
  workPlace := []

private theorem search_twoModules (one other old : Bytes) :
    Search (twoModules one other old) ⟨"."⟩ [] (twoModules one other old).root ⟨"coverage.dat"⟩
      ["coverage.dat"] [] where
  rooted := ⟨rfl, by simp [twoModules]⟩
  spelled := Disk.spelled_of_root
    (⟨by decide, ⟨by decide, trivial⟩, by decide, ⟨by decide, trivial⟩, by decide, trivial⟩)
  resolved := rfl
  found := rfl
  aims := ⟨[], "coverage.dat", by decide, ⟨by decide, by decide, by decide, by decide⟩, rfl, rfl⟩
  writable := ⟨by simp [Disk.Clear], nofun, by simp⟩
  seen := fun _ _ => rfl

private theorem summands_twoModules (one other old : Bytes) :
    summands (twoModules one other old).root [] "coverage.dat" ["coverage.dat"] =
      [["a", "coverage.dat"], ["b", "coverage.dat"]] := by
  rfl

private theorem measured_hitStore (hits : UInt64) :
    Metadata.MeasuredRecord { name := "A", lines := [{ line := 1, hits := hits }] } :=
  ⟨show Metadata.MeasuredText "A" by decide, nofun, show 1 < 2 ^ (64 : Nat) by decide,
    show 0 < 2 ^ (64 : Nat) by decide⟩

private theorem decode_hitStore (hits : UInt64) :
    Metadata.decode (Metadata.encode (hitStore hits)) = .ok (hitStore hits) :=
  Metadata.decode_of_measured
    ⟨show 1 < 2 ^ (64 : Nat) by decide, List.forall_mem_singleton.mpr (measured_hitStore hits)⟩

/-- The older sum is passed over, though it has the name of the files that count. -/
theorem run_exact_of_two_files :
    ∃ (disk disk' : Disk) (old sum : Store),
      Search disk ⟨"."⟩ [] disk.root ⟨"coverage.dat"⟩ ["coverage.dat"] [] ∧
      disk.read ⟨"coverage.dat"⟩ = .ok (Metadata.encode old) ∧ old.names = ["A"] ∧
      (Aggregate.run ⟨"."⟩ "coverage.dat" ⟨"coverage.dat"⟩).run.run disk =
        (.ok (.merged 2 1), disk') ∧
      (Metadata.load ⟨"coverage.dat"⟩).run.run disk' = (.ok (some sum), disk') ∧
      sum.records = [{ name := "A", lines := [{ line := 1, hits := 3 }] }] ∧
      (Aggregate.run ⟨"."⟩ "coverage.dat" ⟨"coverage.dat"⟩).run.run disk' =
        (.ok (.merged 2 1), disk') := by
  obtain ⟨disk, given⟩ : ∃ disk, disk = twoModules (Metadata.encode (hitStore 1))
    (Metadata.encode (hitStore 2))
      (Metadata.encode (hitStore 9)) := ⟨_, rfl⟩
  have search : Search disk ⟨"."⟩ [] disk.root ⟨"coverage.dat"⟩ ["coverage.dat"] [] := by
    rw [given]
    exact search_twoModules ..
  obtain ⟨places, nodup, members, -, -, -, merged⟩ := run_exact search "coverage.dat"
  have two : places.Perm [["a", "coverage.dat"], ["b", "coverage.dat"]] := by
    rw [List.perm_ext_iff_of_nodup nodup (by decide)]
    intro place
    rw [members, ← mem_summands_iff search.found, given, summands_twoModules]
  have first : storeAt? disk ["a", "coverage.dat"] =
      (Metadata.decode (Metadata.encode (hitStore 1))).toOption := by rw [given]; rfl
  have second : storeAt? disk ["b", "coverage.dat"] =
      (Metadata.decode (Metadata.encode (hitStore 2))).toOption := by rw [given]; rfl
  rw [decode_hitStore] at first second
  have stores : storesAt disk [["a", "coverage.dat"], ["b", "coverage.dat"]] =
      [hitStore 1, hitStore 2] := by
    rw [storesAt, List.filterMap_cons_some first,
      List.filterMap_cons_some second, List.filterMap_nil]
  have valid : ∀ place ∈ places, storeAt? disk place ≠ none := by
    intro place member
    have listed := two.mem_iff.mp member
    simp only [List.mem_cons, List.not_mem_nil, or_false] at listed
    rcases listed with rfl | rfl
    · simp [first, Except.toOption]
    · simp [second, Except.toOption]
  have compatible : Store.AllCompatible [hitStore 1, hitStore 2] := by
    refine List.pairwise_pair.mpr ?_
    by_contra clash
    obtain ⟨conflict, refused, -⟩ := Store.merge_of_not_compatible clash
    have merges : ((hitStore 1).merge (hitStore 2)).isOk = true := by decide
    rw [refused] at merges
    cases merges
  have order := two.filterMap (storeAt? disk)
  rw [← storesAt, ← storesAt, stores] at order
  have fine : ¬ Refused disk places := by
    rw [refused_iff, not_or, not_not]
    refine ⟨?_, Store.AllCompatible.perm order.symm compatible⟩
    rintro ⟨place, member, lost⟩
    exact valid place member lost
  obtain ⟨sum, disk', run, -, orders, -, loaded, -, again⟩ :=
    merged (fun none => by simp [none] at two) fine
  have classes : ((storesAt disk places).flatMap Store.names).dedup.length = 1 := by
    rw [((order.flatMap_right Store.names).dedup).length_eq]
    decide
  have total := orders _ order.symm
  have records : sum.records = [{ name := "A", lines := [{ line := 1, hits := 3 }] }] := by
    have merged : ([hitStore 1, hitStore 2].foldlM Store.merge .empty).map Store.records =
        .ok [{ name := "A", lines := [{ line := 1, hits := 3 }] }] := by rfl
    rw [total] at merged
    exact Except.ok.inj merged
  rw [two.length_eq, classes] at run again
  have measured : Metadata.Measured sum := by
    refine ⟨by rw [Store.size, records]; decide, ?_⟩
    rw [records]
    exact List.forall_mem_singleton.mpr (measured_hitStore 3)
  have old : disk.read ⟨"coverage.dat"⟩ = .ok (Metadata.encode (hitStore 9)) := by
    rw [given]
    rfl
  exact ⟨disk, disk', hitStore 9, sum, search, old, rfl, run, loaded measured.size, records, again⟩

end Aggregate
end ClassCoverage
