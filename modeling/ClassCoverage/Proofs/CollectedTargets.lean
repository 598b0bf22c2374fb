import ClassCoverage.Instrument.Target
import ClassCoverage.Proofs.StepRuns
import ClassCoverage.Proofs.TreePaths

/-! Targets as they are collected. An archive is only collected where there is a file. -/
namespace ClassCoverage

/-- The files a scan matches are there. -/
theorem Scan.isFile_of_collectMatching {keep : Path → Bool} {root path : Path} {disk disk' : Disk}
    {paths : List Path} (spelled : disk.Spelled) (directory : disk.isDirectory root = true)
    (run : (collectMatching keep root).run.run disk = (.ok paths, disk')) (member : path ∈ paths) :
    disk.isFile path = true := by
  obtain ⟨top, listing, resolved, found⟩ := Disk.resolve_of_isDirectory directory
  obtain ⟨matched, -⟩ := Action.look_ok run
  rw [filesMatching_eq resolved found] at matched
  cases matched
  obtain ⟨place, inside, rfl⟩ := List.mem_map.mp (List.mem_filter.mp member).1
  obtain ⟨below, -, content, file⟩ :=
    (mem_places_iff (Listing.ordered_at? disk.ordered found)).mp inside
  rw [← Disk.kind?_below found] at file
  have named : ∀ part ∈ place, Path.IsName part := by
    intro part own
    exact spelled _ _ file part (List.mem_append_right top own)
  have lands :=
    lands_pathTo resolved (Disk.at?_eq_directory_iff.mp ⟨listing, found⟩) below named file
  exact lands.isFile file

namespace Target

theorem mem_of_firstOfEach {α κ : Type} [DecidableEq κ] {key : α → κ} {item : α} {items : List α}
    (member : item ∈ firstOfEach key items) : item ∈ items := by
  induction items with
  | nil => exact member
  | cons first items ih =>
    rw [firstOfEach] at member
    rcases List.mem_cons.mp member with rfl | later
    · exact List.mem_cons_self ..
    · exact List.mem_cons_of_mem first (ih (List.mem_filter.mp later).1)

theorem identity_of_resolve {disk : Disk} {path : Path} {place : Place}
    (resolved : disk.resolve path = .ok place) :
    identity disk path = .root :: place.map .name := by
  unfold identity Disk.canonical?
  rw [resolved]
  rfl

/-- A path that leads to some place leads to the one it stands for. -/
theorem eq_of_identity {disk : Disk} {path : Path} {place other : Place}
    (resolved : disk.resolve path = .ok other)
    (same : identity disk path = .root :: place.map .name) : other = place := by
  rw [identity_of_resolve resolved, List.cons.injEq] at same
  exact List.map_injective_iff.mpr (fun _ _ => Path.Part.name.inj) same.2

/-- A path that stands for a directory leads to it. -/
theorem resolve_of_identity {disk : Disk} {path : Path} {place : Place}
    (own : ∀ name ∈ place, Path.IsName name) (same : identity disk path = .root :: place.map .name)
    (directory : disk.kind? place = some .directory) :
    disk.resolve path = .ok place := by
  cases resolved : disk.resolve path with
  | ok other => rw [eq_of_identity resolved same]
  | error fault =>
    unfold identity Disk.canonical? at same
    rw [resolved] at same
    rw [← resolved, Disk.resolve_of_parts own same directory]

theorem state_of_ofSet (set : ArchiveSet) (disk : Disk) : ((ofSet set).run.run disk).2 = disk := by
  unfold ofSet
  cases set.baseDirectory with
  | none => rfl
  | some base =>
    refine Steps.state_of_bind rfl fun own => ?_
    split
    · exact Steps.state_of_bind (Action.state_of_look _ disk) fun _ => rfl
    · rfl

/-- Once the sets are scanned, what is collected is the first of all mentions of each target. -/
theorem run_collect {sets : List ArchiveSet} {disk : Disk}
    {scanned : Except Failure (List (List Target))}
    (run : (sets.mapM ofSet).run.run disk = (scanned, disk))
      (archives classDirectories : List Path) :
    (collect archives sets classDirectories).run.run disk =
      (scanned.map fun lists => firstOfEach (fun target => identity disk target.path)
        (ofArchives disk archives ++ lists.flatten ++ classDirectories.map .directory), disk) := by
  unfold collect
  rw [Steps.run_bind, Steps.run_get]
  simp only
  rw [Steps.run_bind, run]
  cases scanned with
  | error fault => rfl
  | ok lists => rfl

/-- Targets are collected without touching the disk. -/
theorem state_of_collect (archives : List Path) (sets : List ArchiveSet)
    (classDirectories : List Path) (disk : Disk) :
    ((collect archives sets classDirectories).run.run disk).2 = disk := by
  unfold collect
  refine Steps.state_of_bind rfl fun own => ?_
  exact Steps.state_of_bind (Steps.state_of_mapM fun set _ => state_of_ofSet set disk) fun _ => rfl

private theorem isFile_of_ofSet {set : ArchiveSet} {disk : Disk} {targets : List Target}
    {path : Path} (spelled : disk.Spelled) (run : (ofSet set).run.run disk = (.ok targets, disk))
    (member : .archive path ∈ targets) : disk.isFile path = true := by
  unfold ofSet at run
  cases based : set.baseDirectory with
  | none =>
    rw [based] at run
    cases run
  | some base =>
    rw [based] at run
    simp only at run
    rw [Steps.run_bind, Steps.run_get] at run
    simp only at run
    cases directory : disk.isDirectory base with
    | false =>
      rw [directory] at run
      cases run
      cases member
    | true =>
      simp only [directory, ↓reduceIte] at run
      obtain ⟨paths, middle, matched, answered⟩ := Steps.run_bind_ok run
      cases answered
      obtain ⟨own, inside, same⟩ := List.mem_map.mp member
      cases same
      exact Scan.isFile_of_collectMatching spelled directory matched inside

/-- Archives that are not there are passed over. -/
theorem isFile_of_collect {archives : List Path} {sets : List ArchiveSet}
    {classDirectories : List Path} {disk disk' : Disk} {targets : List Target} {path : Path}
    (spelled : disk.Spelled)
    (run : (collect archives sets classDirectories).run.run disk = (.ok targets, disk'))
    (member : .archive path ∈ targets) : disk.isFile path = true := by
  unfold collect at run
  rw [Steps.run_bind, Steps.run_get] at run
  simp only at run
  obtain ⟨groups, middle, found, answered⟩ := Steps.run_bind_ok run
  cases answered
  rcases List.mem_append.mp (mem_of_firstOfEach member) with own | directory
  · rcases List.mem_append.mp own with mentioned | inside
    · obtain ⟨other, held, same⟩ := List.mem_map.mp mentioned
      cases same
      exact (List.mem_filter.mp held).2
    · obtain ⟨group, held, inside⟩ := List.mem_flatten.mp inside
      obtain ⟨set, -, answered⟩ :=
        Steps.mem_of_mapM_ok (fun set _ => state_of_ofSet set disk) found group held
      exact isFile_of_ofSet spelled answered inside
  · obtain ⟨other, -, same⟩ := List.mem_map.mp directory
    cases same

end Target
end ClassCoverage
