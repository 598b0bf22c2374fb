import ClassCoverage.Proofs.NewDirectories

/-! What is new on a disk: files that were written, and directories that were made for them. Deltas
of different files can be made in any order, with the same disk in the end. -/
namespace ClassCoverage

/-- Files that are written, the last one first, and the directories that are there for them. -/
structure Delta where
  files : List (Place × Bytes) := []
  ways : List Place := []

namespace Delta

def places (delta : Delta) : List Place := delta.files.map Prod.fst

/-- What lies at a place then, given what lay there before. -/
def kind? (delta : Delta) (before : Option Kind) (place : Place) : Option Kind :=
  match delta.files.lookup place with
  | some content => some (.file content)
  | none => if place ∈ delta.ways then some .directory else before

/-- What is new after one thing and another. -/
def andThen (first second : Delta) :
    Delta := ⟨second.files ++ first.files, second.ways ++ first.ways⟩

/-- One file, and the directories above it. -/
def single (above : List Place) (place : Place) (content : Bytes) :
    Delta := ⟨[(place, content)], above⟩

/-- Nothing is in the way: no file where directories have to be, and no directory where files have
to be. -/
structure Open (delta : Delta) (disk : Disk) : Prop where
  clear : disk.Clear delta.ways
  free : ∀ place ∈ delta.places, disk.kind? place ≠ some .directory
  apart : ∀ place ∈ delta.places, place ∉ delta.ways

/-- All that is new on the second disk. -/
structure Made (delta : Delta) (disk disk' : Disk) : Prop where
  workPlace : disk'.workPlace = disk.workPlace
  kinds : ∀ place, disk'.kind? place = delta.kind? (disk.kind? place) place

theorem mem_places_iff {delta : Delta} {place : Place} :
    place ∈ delta.places ↔ ∃ content, delta.files.lookup place = some content := by
  rw [← Option.ne_none_iff_exists', ne_eq, List.lookup_eq_none_iff, places, List.mem_map]
  constructor
  · rintro ⟨⟨own, content⟩, member, rfl⟩ absent
    simpa using absent _ member
  · intro present
    by_contra absent
    apply present
    intro file member
    rw [bne_iff_ne]
    rintro rfl
    exact absent ⟨file, member, rfl⟩

theorem lookup_eq_none {delta : Delta} {place : Place} (absent : place ∉ delta.places) :
    delta.files.lookup place = none := by
  by_contra present
  exact absent (mem_places_iff.mpr (Option.ne_none_iff_exists'.mp present))

@[simp] theorem kind?_empty (before : Option Kind) (place : Place) :
    ({} : Delta).kind? before place = before :=
  rfl

/-- Where no file is written, files stay as they are. -/
theorem kind?_eq_file_iff {delta : Delta} {disk : Disk} (open_ : delta.Open disk) {place : Place}
    (absent : place ∉ delta.places) (content : Bytes) :
    delta.kind? (disk.kind? place) place = some (.file content) ↔
    disk.kind? place = some (.file content) := by
  rw [kind?, lookup_eq_none absent]
  simp only
  split
  · rename_i member
    constructor
    · intro impossible
      cases impossible
    · intro file
      exact absurd file (open_.clear place member content)
  · rfl

/-- Where no file is written, the directories are those that were there and those that were made. -/
theorem kind?_eq_directory_iff {delta : Delta} {place : Place} (absent : place ∉ delta.places)
    (before : Option Kind) :
    delta.kind? before place = some .directory ↔ place ∈ delta.ways ∨ before = some .directory := by
  rw [kind?, lookup_eq_none absent]
  simp only
  split <;> simp [*]

private theorem kind?_of_directory {delta : Delta} {disk : Disk} (open_ : delta.Open disk)
    {place : Place} (directory : disk.kind? place = some .directory) :
    delta.kind? (disk.kind? place) place = some .directory := by
  have absent : place ∉ delta.places := fun member => open_.free place member directory
  rw [kind?, lookup_eq_none absent, directory]
  simp

theorem Made.keeps {delta : Delta} {disk disk' : Disk} (made : delta.Made disk disk')
    (open_ : delta.Open disk) : Disk.Keeps disk disk' where
  workPlace := made.workPlace
  directory place found := by
    rw [made.kinds]
    exact kind?_of_directory open_ found

theorem Made.refl (disk : Disk) : ({} : Delta).Made disk disk := ⟨rfl, fun _ => rfl⟩

theorem Made.unique {delta : Delta} {disk a b : Disk} (one : delta.Made disk a)
    (other : delta.Made disk b) :
    a = b := by
  apply Disk.eq_of_kinds (one.workPlace.trans other.workPlace.symm)
  intro place
  rw [one.kinds, other.kinds]

theorem Open.empty (disk : Disk) : ({} : Delta).Open disk := ⟨nofun, nofun, nofun⟩

/-- What is open for much is open for less. -/
theorem Open.mono {delta more : Delta} {disk : Disk} (open_ : more.Open disk)
    (places : delta.places ⊆ more.places) (ways : delta.ways ⊆ more.ways) : delta.Open disk where
  clear place member := open_.clear place (ways member)
  free place member := open_.free place (places member)
  apart place member own := open_.apart place (places member) (ways own)

/-- The same files at the places that count. -/
structure Agree (counts : Place → Prop) (disk disk' : Disk) : Prop where
  workPlace : disk'.workPlace = disk.workPlace
  files : ∀ place, counts place → ∀ content,
    disk'.kind? place = some (.file content) ↔ disk.kind? place = some (.file content)

theorem places_andThen (first second : Delta) :
    (first.andThen second).places = second.places ++ first.places :=
  List.map_append

private theorem kind?_andThen {first second : Delta} {disk disk' : Disk}
    (made : first.Made disk disk') (open_ : second.Open disk') (place : Place) :
    (first.andThen second).kind? (disk.kind? place) place =
      second.kind? (first.kind? (disk.kind? place) place) place := by
  have clear := open_.clear place
  rw [made.kinds] at clear
  unfold kind? andThen at *
  rw [List.lookup_append]
  simp only [List.mem_append]
  cases late : second.files.lookup place with
  | some content => rfl
  | none =>
    by_cases way : place ∈ second.ways
    · cases early : first.files.lookup place with
      | some content =>
        rw [early] at clear
        exact absurd rfl (clear way content)
      | none => simp [way]
    · cases early : first.files.lookup place with
      | some content => simp [way]
      | none => simp [way]

theorem Made.andThen {first second : Delta} {a b c : Disk} (made : first.Made a b)
    (later : second.Made b c) (open_ : second.Open b) : (first.andThen second).Made a c where
  workPlace := later.workPlace.trans made.workPlace
  kinds place := by
    rw [later.kinds, kind?_andThen made open_, made.kinds]

section
variable {first second : Delta} {disk disk' : Disk}

/-- What the second delta may do once the first is made, it may do before as well. -/
theorem Open.before (open_ : first.Open disk) (made : first.Made disk disk')
    (later : second.Open disk') (separate : ∀ place ∈ first.places, place ∉ second.ways) :
    second.Open disk where
  clear place member content file := by
    have absent : place ∉ first.places := fun early => separate place early member
    apply later.clear place member content
    rw [made.kinds, kind?_eq_file_iff open_ absent]
    exact file
  free place member directory :=
    later.free place member ((made.keeps open_).directory place directory)
  apart := later.apart

private theorem not_mem_ways_of_open (made : first.Made disk disk') (later : second.Open disk') :
    ∀ place ∈ first.places, place ∉ second.ways := by
  intro place member way
  obtain ⟨content, written⟩ := mem_places_iff.mp member
  apply later.clear place way content
  rw [made.kinds, kind?, written]

private theorem not_mem_places_of_open (open_ : first.Open disk) (made : first.Made disk disk')
    (later : second.Open disk') : ∀ place ∈ second.places, place ∉ first.ways := by
  intro place member way
  apply later.free place member
  have absent : place ∉ first.places := fun early => open_.apart place early way
  rw [made.kinds, kind?, lookup_eq_none absent]
  simp [way]

theorem open_andThen (open_ : first.Open disk) (made : first.Made disk disk')
    (later : second.Open disk') :
    (first.andThen second).Open disk := by
  have separate := not_mem_ways_of_open made later
  have own := Open.before open_ made later separate
  refine ⟨?_, ?_, ?_⟩
  · intro place member
    rcases List.mem_append.mp member with late | early
    · exact own.clear place late
    · exact open_.clear place early
  · intro place member
    rw [places_andThen] at member
    rcases List.mem_append.mp member with late | early
    · exact own.free place late
    · exact open_.free place early
  · intro place member way
    rw [places_andThen] at member
    rcases List.mem_append.mp member with late | early <;>
      rcases List.mem_append.mp way with late' | early'
    · exact own.apart place late late'
    · exact not_mem_places_of_open open_ made later place late early'
    · exact separate place early late'
    · exact open_.apart place early early'

theorem open_of_andThen (made : first.Made disk disk') (both : (first.andThen second).Open disk) :
    first.Open disk ∧ second.Open disk' := by
  have early : first.Open disk := both.mono (by simp [places_andThen]) (by simp [andThen])
  have late : second.Open disk := both.mono (by simp [places_andThen]) (by simp [andThen])
  refine ⟨early, ?_, ?_, late.apart⟩
  · intro place member content file
    have absent : place ∉ first.places := by
      intro own
      exact both.apart place (by simp [places_andThen, own]) (List.mem_append_left _ member)
    rw [made.kinds, kind?_eq_file_iff early absent] at file
    exact late.clear place member content file
  · intro place member directory
    have absent : place ∉ first.ways := by
      intro way
      exact both.apart place (by simp [places_andThen, member]) (List.mem_append_right _ way)
    rw [made.kinds, kind?] at directory
    split at directory
    · cases directory
    · rw [if_neg absent] at directory
      exact late.free place member directory

end

theorem open_single_iff {above : List Place} {place : Place} {content : Bytes} {disk : Disk} :
    (single above place content).Open disk ↔ disk.Open above place := by
  constructor
  · rintro ⟨clear, free, apart⟩
    exact ⟨clear, free place (by simp [single, places]), apart place (by simp [single, places])⟩
  · rintro ⟨clear, free, apart⟩
    refine ⟨clear, ?_, ?_⟩ <;> simp only [single, places, List.map_cons, List.map_nil,
      List.forall_mem_singleton]
    · exact free
    · exact apart

theorem made_of_placed {above : List Place} {place : Place} {content : Bytes} {disk disk' : Disk}
    (placed : disk.Placed disk' above place content) :
    (single above place content).Made disk disk' where
  workPlace := placed.workPlace
  kinds other := by
    rw [placed.kinds, kind?, single, List.lookup_cons]
    by_cases same : other = place
    · simp [same]
    · have apart : (other == place) = false := by simpa using same
      simp [apart, same]

/-- Several deltas, the last one first. -/
def gather (deltas : List Delta) : Delta := ⟨deltas.flatMap files, deltas.flatMap ways⟩

theorem gather_cons (delta : Delta) (deltas : List Delta) :
    gather (delta :: deltas) = (gather deltas).andThen delta := by
  simp [gather, andThen]

theorem mem_places_gather_iff {deltas : List Delta} {place : Place} :
    place ∈ (gather deltas).places ↔ ∃ delta ∈ deltas, place ∈ delta.places := by
  simp only [gather, places, List.map_flatMap, List.mem_flatMap]

theorem mem_ways_gather_iff {deltas : List Delta} {place : Place} :
    place ∈ (gather deltas).ways ↔ ∃ delta ∈ deltas, place ∈ delta.ways :=
  List.mem_flatMap

/-- Fewer deltas leave more open, in any order. -/
theorem Open.subset {deltas more : List Delta} {disk : Disk} (open_ : (gather more).Open disk)
    (fewer : deltas ⊆ more) : (gather deltas).Open disk := by
  apply open_.mono
  · intro place member
    obtain ⟨delta, own, inside⟩ := mem_places_gather_iff.mp member
    exact mem_places_gather_iff.mpr ⟨delta, fewer own, inside⟩
  · intro place member
    obtain ⟨delta, own, inside⟩ := mem_ways_gather_iff.mp member
    exact mem_ways_gather_iff.mpr ⟨delta, fewer own, inside⟩

/-- Every file is written by one of the deltas only. -/
def Apart (deltas : List Delta) : Prop :=
  deltas.Pairwise fun one other => ∀ place ∈ one.places, place ∉ other.places

theorem lookup_gather_iff {deltas : List Delta} (apart : Apart deltas) {place : Place}
    {content : Bytes} :
    (gather deltas).files.lookup place = some content ↔
      ∃ delta ∈ deltas, delta.files.lookup place = some content := by
  induction deltas with
  | nil => simp [gather]
  | cons delta deltas ih =>
    obtain ⟨separate, apart⟩ := List.pairwise_cons.mp apart
    rw [gather_cons, andThen, List.lookup_append]
    simp only [List.mem_cons, exists_eq_or_imp, ← ih apart]
    cases own : delta.files.lookup place with
    | none => simp
    | some bytes =>
      have never : (gather deltas).files.lookup place = none := by
        apply lookup_eq_none
        intro member
        obtain ⟨other, held, inside⟩ := mem_places_gather_iff.mp member
        exact separate other held place (mem_places_iff.mpr ⟨bytes, own⟩) inside
      simp [never]

end Delta
end ClassCoverage
