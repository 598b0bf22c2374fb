import ClassCoverage.Proofs.ParallelRuns
import ClassCoverage.Proofs.RegisteredRecords
import ClassCoverage.Proofs.SettledTargets
import ClassCoverage.Proofs.SharedMetadata

/-! Runs that are repeated. What was instrumented in place by a steady rewriter is not instrumented
again: a second run with the same options finds every target settled, adds nothing to the metadata,
and leaves the disk as it is. -/
namespace ClassCoverage
variable {σ : Type}

namespace Target

/-- Of several items with one key one is kept, and it is one of the first if there is any among
these. -/
theorem exists_kept {α κ : Type} [DecidableEq κ] (key : α → κ) {item : α} {front : List α}
    (member : item ∈ front) (back : List α) :
    ∃ kept ∈ firstOfEach key (front ++ back), kept ∈ front ∧ key kept = key item := by
  induction front with
  | nil => cases member
  | cons first front ih =>
    rw [List.cons_append, firstOfEach]
    by_cases same : key item = key first
    · exact ⟨first, List.mem_cons_self .., List.mem_cons_self .., same.symm⟩
    · have later : item ∈ front := (List.mem_cons.mp member).resolve_left fun here =>
        same (congrArg key here)
      obtain ⟨kept, held, inside, own⟩ := ih later
      refine ⟨kept, List.mem_cons_of_mem _ (List.mem_filter.mpr ⟨held, ?_⟩),
        List.mem_cons_of_mem first inside, own⟩
      simpa [own] using same

private theorem run_collect_of_no_sets (archives classDirectories : List Path) (disk : Disk) :
    (collect archives [] classDirectories).run.run disk =
      (.ok (firstOfEach (fun target => identity disk target.path)
        (ofArchives disk archives ++ classDirectories.map .directory)), disk) := by
  have run : (([] : List ArchiveSet).mapM ofSet).run.run disk = (.ok [], disk) := rfl
  simpa only [Except.map, List.flatten_nil, List.append_nil] using run_collect run
    archives classDirectories

end Target

namespace Metadata

private theorem fits_of_short {store : Store}
    (short : (encode store).length < 2 ^ (64 : Nat)) : Fits store := by
  unfold encode at short
  rw [List.length_append] at short
  unfold Fits
  omega

/-- When nothing is added to what was persisted, the file stays as it is. -/
theorem persist_empty {disk disk' : Disk} (rooted : disk.Rooted) {store saved : Store} {path : Path}
    {merge : Bool} (persisted : (persist store path merge).run.run disk = (.ok saved, disk'))
    (measured : Measured saved) :
    (persist .empty path true).run.run disk' = (.ok saved, disk') := by
  obtain ⟨place, above, aims, open_, placed⟩ := placed_of_persist rooted persisted
  have rooted' := rooted.keep (placed.keeps open_)
  have held := (includes_of_persist rooted persisted).1
  have loaded : (existing path true).run.run disk' = (.ok (some saved), disk') :=
    load_of_read measured held
  have added : (addTo (some saved) .empty).run.run disk' = (.ok saved, disk') := by
    rw [addTo, Store.merge_empty]
    rfl
  obtain ⟨disk'', done, again⟩ :=
    run_save rooted' (aims.keep placed.workPlace) (placed.open_again open_) saved
  rw [placed.again open_ again] at done
  exact run_persist_ok loaded added done

end Metadata

namespace Marking

private theorem run_rewriter_of_marked {marking : Marking} (all : marking.every = 1)
    (never : marking.failOn = none) {content : Bytes} (marked : isMarked content = true)
    (name : String) (bench : Bench Nat) :
    (marking.rewriter name content).run.run bench =
      (.ok ⟨content, false⟩, ⟨bench.store, bench.memory + 1⟩) := by
  rw [run_rewriter all, if_neg (by simp [never]), if_pos marked]

/-- Marked classes are left alone, and all others are marked. -/
theorem answer_of_rewriter {marking : Marking} (all : marking.every = 1) {name : String}
    {content : Bytes} {answer : Rewritten} {bench bench' : Bench Nat}
    (answered : (marking.rewriter name content).run.run bench = (.ok answer, bench')) :
    (isMarked content = true ∧ answer = ⟨content, false⟩) ∨ answer = ⟨content ++ mark, true⟩ := by
  rw [run_rewriter all] at answered
  split at answered
  · cases answered
  · split at answered
    · rename_i marked
      cases answered
      exact .inl ⟨marked, rfl⟩
    · split at answered
      · cases answered
      · split at answered
        · cases answered
          exact .inr rfl
        · cases answered

private theorem isMarked_append_mark (content : Bytes) : isMarked (content ++ mark) = true :=
  List.isSuffixOf_iff_suffix.mpr (List.suffix_append content mark)

theorem steady {marking : Marking} (all : marking.every = 1) (never : marking.failOn = none) :
    marking.rewriter.Steady where
  own answered changed other later := by
    rcases answer_of_rewriter all answered with ⟨-, rfl⟩ | rfl
    · cases changed
    · exact ⟨_, _, run_rewriter_of_marked all never (isMarked_append_mark _) other later, rfl⟩
  again answered same later := by
    rcases answer_of_rewriter all answered with ⟨marked, rfl⟩ | rfl
    · exact ⟨_, run_rewriter_of_marked all never marked _ later⟩
    · cases same
  quiet answered same := (registers marking).untouched answered same

end Marking

namespace Instrument
variable {options : Options} {rewriter : Rewriter σ} {machine : Machine}
  {shop shop' : Workshop σ} {summary : Summary}

/-- Where the archives and the class directories that are listed lie, as far as they are there. -/
def sites (options : Options) (disk : Disk) : Sites where
  archives := (options.archives.filter disk.isFile).map disk.aim
  trees := (options.classDirectories.filter disk.isDirectory).map disk.aim

/-- A run that rewrites listed archives and class directories in their places, and merges its
records into a file that lies outside of them. -/
structure InPlace (options : Options) (disk : Disk) : Prop where
  sets : options.archiveSets = []
  output : options.outputDirectory = none
  merge : options.merge = true
  archives : ∀ path ∈ options.archives, disk.aim path ≠ disk.aim options.metadataFile
  trees : ∀ path ∈ options.classDirectories, ¬ disk.aim path <+: disk.aim options.metadataFile

/-- No listed path has come to lead to anything that was there before. -/
def Unmoved (options : Options) (disk disk' : Disk) : Prop :=
  ∀ path ∈ options.archives ++ options.classDirectories, ∀ place, disk'.resolve path = .ok place →
    disk.kind? place ≠ none → disk.resolve path = .ok place

/-- Paths that lead somewhere from the start do not come to lead elsewhere. -/
theorem unmoved_of_found {disk disk' : Disk} (home : disk'.workPlace = disk.workPlace)
    (found : ∀ path ∈ options.archives ++ options.classDirectories, disk.exists? path = true) :
    Unmoved options disk disk' := by
  intro path listed place resolved _
  obtain ⟨place', kind, resolved', -⟩ := Metadata.resolve_of_exists? (found path listed)
  rw [← Disk.aim_of_resolve resolved, Disk.aim_keep home, Disk.aim_of_resolve resolved']
  exact resolved'

/-- What is mentioned in the options. -/
def mentioned (options : Options) (disk : Disk) : List Target :=
  Target.ofArchives disk options.archives ++ options.classDirectories.map .directory

theorem mem_ofArchives_iff {disk : Disk} {paths : List Path} {target : Target} :
    target ∈ Target.ofArchives disk paths ↔ ∃ path ∈ paths, disk.isFile path = true ∧
    target = .archive path := by
  unfold Target.ofArchives
  simp only [List.mem_map, List.mem_filter, and_assoc, eq_comm]

theorem on_of_mentioned {disk : Disk} {target : Target} (member : target ∈ mentioned options disk) :
    target.On (sites options disk) disk := by
  rcases List.mem_append.mp member with archive | directory
  · obtain ⟨path, listed, file, rfl⟩ := mem_ofArchives_iff.mp archive
    exact List.mem_map_of_mem (List.mem_filter.mpr ⟨listed, file⟩)
  · obtain ⟨path, listed, rfl⟩ := List.mem_map.mp directory
    intro top resolved found
    have isDirectory := Disk.isDirectory_of_resolve resolved found
    rw [← Disk.aim_of_resolve resolved]
    exact List.mem_map_of_mem (List.mem_filter.mpr ⟨listed, isDirectory⟩)

def collected (options : Options) (disk : Disk) : List Target :=
  Target.firstOfEach (fun target => Target.identity disk target.path) (mentioned options disk)

theorem run_collectTargets (sets : options.archiveSets = []) (disk : Disk) :
    (collectTargets options).run.run disk = (.ok (collected options disk), disk) := by
  unfold collectTargets
  rw [sets]
  exact Target.run_collect_of_no_sets options.archives options.classDirectories disk

/-! Sites that several workers can rewrite at once. -/

/-- No archive is named like a copy of another one, no archive and no copy of one lies where a class
directory is searched, and no two class directories are searched at the same place. -/
structure Scattered (sites : Sites) : Prop where
  archives : ∀ one ∈ sites.archives, ∀ other ∈ sites.archives, ¬ Archive.IsSpare one other
  mixed : ∀ archive ∈ sites.archives, ∀ top ∈ sites.trees, ∀ place, place = archive ∨
    Archive.IsSpare archive place →
    ¬ ClassTree.Reached top place
  trees : ∀ one ∈ sites.trees, ∀ other ∈ sites.trees, ∀ place, ClassTree.Reached one place →
    ClassTree.Reached other place → one = other

/-- One worker does the run, or what is listed is scattered. -/
def Calm (machine : Machine) (options : Options) (disk : Disk) : Prop :=
  crewSize machine options.jobs (collected options disk).length = 1 ∨ Scattered (sites options disk)

section
variable {disk : Disk} {sites : Sites} {one other target : Target} {path path' : Path}

private theorem resolve_of_isThere (rooted : disk.Rooted) (there : target.isThere disk = true) :
    disk.resolve target.path = .ok (disk.aim target.path) := by
  cases target with
  | archive path =>
    obtain ⟨content, lands, held⟩ := Target.kind?_of_isFile rooted there
    exact lands.resolve held
  | directory path =>
    obtain ⟨top, listing, resolved, -⟩ := Disk.resolve_of_isDirectory there
    rwa [Target.path, Disk.aim_of_resolve resolved]

theorem mem_trees (on : (Target.directory path).On sites disk)
    (there : (Target.directory path).isThere disk = true) :
    disk.aim path ∈ sites.trees := by
  obtain ⟨top, listing, resolved, found⟩ := Disk.resolve_of_isDirectory there
  rw [Disk.aim_of_resolve resolved]
  exact on top resolved (Disk.at?_eq_directory_iff.mp ⟨listing, found⟩)

theorem reached_of_goals {place : Place} (goal : place ∈ (Target.directory path).goals none disk) :
    ClassTree.Reached (disk.aim path) place := by
  obtain ⟨below, file, rfl⟩ := List.mem_map.mp goal
  obtain ⟨inside, kept, -⟩ := ClassTree.mem_filesBelow_iff.mp file
  exact ⟨below, inside, kept, rfl⟩

private theorem separate_archives (scattered : Scattered sites)
    (on : (Target.archive path).On sites disk) (on' : (Target.archive path').On sites disk)
    (different : disk.aim path ≠ disk.aim path') :
    Target.Separate none disk (.archive path) (.archive path') := by
  have goals {path path' : Path} (different : disk.aim path ≠ disk.aim path') :
      ∀ place ∈ (Target.archive path).goals none disk, place ≠ disk.aim path' := by
    intro place own theirs
    exact different ((List.mem_singleton.mp own).symm.trans theirs)
  have aside {path path' : Path} (on : (Target.archive path).On sites disk)
      (on' : (Target.archive path').On sites disk) (different : disk.aim path ≠ disk.aim path') :
      (Target.archive path).Aside none disk (.archive path') := by
    intro place loose
    have away : place ≠ disk.aim path' := by
      rintro rfl
      rcases loose with same | copy
      · exact different same.symm
      · exact scattered.archives _ on _ on' copy
    exact ⟨fun goal => away (List.mem_singleton.mp goal), away, nofun⟩
  exact ⟨fun place own theirs =>
    goals different place own (List.mem_singleton.mp theirs), goals different,
    goals different.symm, aside on on' different, aside on' on different.symm⟩

private theorem separate_mixed (rooted : disk.Rooted) (spelled : disk.Spelled)
    (scattered : Scattered sites) (on : (Target.archive path).On sites disk)
    (on' : (Target.directory path').On sites disk)
    (there : (Target.directory path').isThere disk = true) :
    Target.Separate none disk (.archive path) (.directory path') := by
  have away (place : Place) (loose : (Target.archive path).Loose disk place) :
      ¬ ClassTree.Reached (disk.aim path') place :=
    scattered.mixed _ on _ (mem_trees on' there) place loose
  refine ⟨?writes, ?forth, ?back, ?aside, fun _ => False.elim⟩
  case writes =>
    exact fun place own goal =>
    away place (.inl (List.mem_singleton.mp own)) (reached_of_goals goal)
  case forth => exact fun place own => away place (.inl (List.mem_singleton.mp own))
  case back => exact fun place goal same => away place (.inl same) (reached_of_goals goal)
  case aside =>
    exact fun place loose =>
      ⟨fun goal => away place loose (reached_of_goals goal), away place loose,
      Target.kind?_of_ways rooted spelled there⟩

private theorem separate_trees (scattered : Scattered sites)
    (on : (Target.directory path).On sites disk) (on' : (Target.directory path').On sites disk)
    (there : (Target.directory path).isThere disk = true)
    (there' : (Target.directory path').isThere disk = true)
    (different : disk.aim path ≠ disk.aim path') :
    Target.Separate none disk (.directory path) (.directory path') := by
  have away (place : Place) (own : ClassTree.Reached (disk.aim path) place) :
      ¬ ClassTree.Reached (disk.aim path') place := fun theirs =>
    different (scattered.trees _ (mem_trees on there) _ (mem_trees on' there') place own theirs)
  refine ⟨?writes, ?forth, ?back, fun _ => False.elim, fun _ => False.elim⟩
  case writes =>
    exact fun place own theirs => away place (reached_of_goals own) (reached_of_goals theirs)
  case forth => exact fun place own => away place (reached_of_goals own)
  case back => exact fun place theirs own => away place own (reached_of_goals theirs)

/-- Targets at scattered sites are separate. -/
theorem separate_of_scattered (rooted : disk.Rooted) (spelled : disk.Spelled)
    (scattered : Scattered sites) (on : one.On sites disk) (on' : other.On sites disk)
    (there : one.isThere disk = true) (there' : other.isThere disk = true)
    (different : disk.aim one.path ≠ disk.aim other.path) :
    Target.Separate none disk one other := by
  cases one with
  | archive path =>
    cases other with
    | archive path' => exact separate_archives scattered on on' different
    | directory path' => exact separate_mixed rooted spelled scattered on on' there'
  | directory path =>
    cases other with
    | archive path' => exact (separate_mixed rooted spelled scattered on' on there).symm
    | directory path' => exact separate_trees scattered on on' there there' different

private theorem calm_of_one_job (one : options.jobs = 1) (machine : Machine) (disk : Disk) :
    Calm machine options disk := by
  refine .inl ?_
  rw [one]
  unfold crewSize
  simp only [Nat.one_ne_zero, ↓reduceIte]
  omega

/-- The targets of a calm run are rewritten in order, or do not get in each other's way. -/
theorem orderly_of_calm (rooted : disk.Rooted) (spelled : disk.Spelled)
    (calm : Calm machine options disk) :
    Orderly machine options (collected options disk) disk := by
  refine calm.imp id fun scattered => ?_
  have distinct : (collected options disk).Pairwise fun one other =>
      Target.identity disk one.path ≠ Target.identity disk other.path :=
    List.pairwise_map.mp (Target.firstMentions_firstOfEach _ _).distinct
  refine ⟨rooted, spelled, distinct.imp fun different same => different (by rw [same]), ?_, ?_⟩
  · intro path member
    rcases List.mem_append.mp (Target.mem_of_firstOfEach member) with archive | directory
    · obtain ⟨_, _, file, same⟩ := mem_ofArchives_iff.mp archive
      exact Target.archive.inj same ▸ file
    · obtain ⟨_, _, same⟩ := List.mem_map.mp directory
      cases same
  · refine (distinct.filter _).imp_of_mem fun member member' different => ?_
    obtain ⟨member, there⟩ := List.mem_filter.mp member
    obtain ⟨member', there'⟩ := List.mem_filter.mp member'
    refine separate_of_scattered rooted spelled scattered
      (on_of_mentioned (Target.mem_of_firstOfEach member))
      (on_of_mentioned (Target.mem_of_firstOfEach member')) there there' fun same => different ?_
    rw [Target.identity_of_resolve (resolve_of_isThere rooted there), same,
      Target.identity_of_resolve (resolve_of_isThere rooted there')]

end

/-- The disks of a run: how it was at first, when all targets were rewritten, and when the records
were saved. -/
structure Passage [Archive.Library] (options : Options) (rewriter : Rewriter σ)
    (start rewritten saved : Disk) : Prop where
  inPlace : InPlace options start
  unmoved : Unmoved options start saved
  rooted : start.Rooted
  spelled : start.Spelled
  alike : start.Alike rewritten
  settled : ∀ target ∈ collected options start,
    target.Settled rewriter options.keepDirectoryEntries rewritten
  placed : ∃ place above content, rewritten.Aims options.metadataFile place above ∧
    rewritten.Open above place ∧
    rewritten.Placed saved above place content

namespace Passage
variable {start rewritten saved : Disk}

theorem keeps [Archive.Library] (passage : Passage options rewriter start rewritten saved) :
    rewritten.Keeps saved := by
  obtain ⟨place, above, content, -, open_, placed⟩ := passage.placed
  exact placed.keeps open_

theorem workPlace [Archive.Library] (passage : Passage options rewriter start rewritten saved) :
    saved.workPlace = start.workPlace :=
  passage.keeps.workPlace.trans passage.alike.workPlace

/-- Apart from the metadata file, no file has changed since all targets were rewritten. -/
theorem file_iff [Archive.Library] (passage : Passage options rewriter start rewritten saved)
    {place : Place} (apart : place ≠ start.aim options.metadataFile) (content : Bytes) :
    saved.kind? place = some (.file content) ↔ rewritten.kind? place = some (.file content) := by
  obtain ⟨target, above, _, aims, open_, placed⟩ := passage.placed
  have same : start.aim options.metadataFile = target :=
    (Disk.aim_keep passage.alike.workPlace options.metadataFile).symm.trans aims.steps.1
  exact placed.file_iff open_ (same ▸ apart) content

/-- A place that a listed path leads to, and that was there before, belongs to a target. -/
theorem resolve [Archive.Library] (passage : Passage options rewriter start rewritten saved)
    {path : Path} {place : Place} {kind : Kind}
    (listed : path ∈ options.archives ++ options.classDirectories)
    (resolved : saved.resolve path = .ok place) (there : start.kind? place = some kind) :
    start.resolve path = .ok place := by
  apply passage.unmoved path listed place resolved
  rw [there]
  exact Option.some_ne_none kind

private theorem archive [Archive.Library] (passage : Passage options rewriter start rewritten saved)
    {path : Path} (listed : path ∈ options.archives) (file : saved.isFile path = true) :
    (Target.archive path).Settled rewriter options.keepDirectoryEntries saved := by
  have rooted := passage.rooted.keep passage.alike.keeps
  obtain ⟨place, content, lands, held⟩ := Disk.lands_of_isFile (rooted.keep passage.keeps) file
  have resolved := lands.resolve held
  have aim : start.aim path = place := by
    rw [← Disk.aim_keep passage.workPlace]
    exact Disk.aim_of_resolve resolved
  have held' := (passage.file_iff (aim ▸ passage.inPlace.archives path listed) content).mp held
  obtain ⟨content', before⟩ := (passage.alike.file place).mp ⟨content, held'⟩
  have resolved' := passage.resolve (List.mem_append_left _ listed) resolved before
  have there := (Disk.lands_of_resolve passage.rooted resolved' before).isFile before
  -- Archives are mentioned first, so the target at this place is an archive.
  obtain ⟨kept, member, first, same⟩ :=
    Target.exists_kept (fun target => Target.identity start target.path)
    (mem_ofArchives_iff.mpr ⟨path, listed, there, rfl⟩) (options.classDirectories.map .directory)
  obtain ⟨other, -, fileOther, rfl⟩ := mem_ofArchives_iff.mp first
  obtain ⟨place', _, landsOther, foundOther⟩ := Disk.lands_of_isFile passage.rooted fileOther
  have resolvedOther := landsOther.resolve foundOther
  obtain rfl : place' = place :=
    Target.eq_of_identity resolvedOther (same.trans (Target.identity_of_resolve resolved'))
  obtain ⟨room, place, content'', resolved'', held'', settled⟩ := passage.settled _ member
  obtain rfl : place = place' := by
    rw [← Disk.aim_of_resolve resolved'', Disk.aim_keep passage.alike.workPlace]
    exact Disk.aim_of_resolve resolvedOther
  cases held'.symm.trans held''
  rw [← Archive.hasRoom_of_lands lands landsOther] at room
  exact ⟨room, place, content, resolved, held, settled⟩

private theorem directory [Archive.Library]
    (passage : Passage options rewriter start rewritten saved) {path : Path}
    (listed : path ∈ options.classDirectories) :
    (Target.directory path).Settled rewriter options.keepDirectoryEntries saved := by
  intro top resolved below file content held
  have aim : start.aim path = top := by
    rw [← Disk.aim_keep passage.workPlace]
    exact Disk.aim_of_resolve resolved
  have apart : top ++ below ≠ start.aim options.metadataFile := by
    intro same
    apply passage.inPlace.trees path listed
    rw [aim, ← same]
    exact List.prefix_append top below
  obtain ⟨inside, kept, -⟩ := ClassTree.mem_filesBelow_iff.mp file
  have held' := (passage.file_iff apart content).mp held
  have directory := (passage.alike.directory top).mp (Listing.kind?_of_append held' inside)
  have resolved' := passage.resolve (List.mem_append_right _ listed) resolved directory
  have mentioned : Target.directory path ∈ mentioned options start :=
    List.mem_append_right _ (List.mem_map_of_mem listed)
  obtain ⟨target, member, own, same⟩ :=
    Target.exists_kept (fun target => Target.identity start target.path) mentioned []
  rw [List.append_nil] at member
  have resolvedOther := Target.resolve_of_identity (passage.spelled top .directory directory)
    (same.trans (Target.identity_of_resolve resolved')) directory
  rcases List.mem_append.mp own with archive | tree
  · obtain ⟨other, -, there, rfl⟩ := mem_ofArchives_iff.mp archive
    obtain ⟨_, _, lands, found⟩ := Disk.lands_of_isFile passage.rooted there
    cases (lands.resolve found).symm.trans resolvedOther
    cases found.symm.trans directory
  · obtain ⟨other, -, rfl⟩ := List.mem_map.mp tree
    have settled :=
      passage.settled _ member top (Disk.resolve_keep passage.alike.keeps resolvedOther directory)
    exact settled below (ClassTree.mem_filesBelow_iff.mpr ⟨inside, kept, content,
      held'⟩) content held'

/-- Everything that is mentioned after the run is settled. -/
theorem settled_again [Archive.Library] (passage : Passage options rewriter start rewritten saved) :
    ∀ target ∈ mentioned options saved,
      target.Settled rewriter options.keepDirectoryEntries saved := by
  intro target member
  rcases List.mem_append.mp member with archive | directory
  · obtain ⟨path, listed, file, rfl⟩ := mem_ofArchives_iff.mp archive
    exact passage.archive listed file
  · obtain ⟨path, listed, rfl⟩ := List.mem_map.mp directory
    exact passage.directory listed

end Passage

/-- What a run that succeeded has done: nothing without a target, and otherwise it has rewritten all
targets and then saved their records. -/
theorem run_ok [Archive.Library] (sets : options.archiveSets = [])
    (succeeded : (run machine options rewriter).run.run shop = (.ok summary, shop')) :
    (collected options shop.disk = [] ∧ shop' = shop) ∨
      ∃ store after saved,
        (rewriteAll machine options rewriter (collected options shop.disk)).run.run shop =
          (.ok (store, summary), after) ∧
        (Metadata.persist store options.metadataFile options.merge).run.run after.disk =
          (.ok saved, shop'.disk) := by
  unfold run at succeeded
  rw [Steps.run_bind, Work.run_onDisk, run_collectTargets sets] at succeeded
  simp only at succeeded
  by_cases none : collected options shop.disk = []
  · rw [none] at succeeded
    cases succeeded
    exact .inl ⟨none, rfl⟩
  · rw [if_neg (by simpa using none)] at succeeded
    obtain ⟨⟨store, total⟩, after, rewritten, succeeded⟩ := Steps.run_bind_ok succeeded
    obtain ⟨saved, finished, persisting, answered⟩ := Steps.run_bind_ok succeeded
    cases answered
    exact .inr ⟨store, after, saved, rewritten, (Work.onDisk_ok persisting).1⟩

/-- A run that comes upon settled targets only succeeds and leaves the disk as it is. -/
theorem run_of_settled [Archive.Library] {disk : Disk} (rooted : disk.Rooted)
    (spelled : disk.Spelled) (sets : options.archiveSets = [])
    (inPlace : options.outputDirectory = none)
    (settled : ∀ target ∈ collected options disk,
      target.Settled rewriter options.keepDirectoryEntries disk)
    (persists : collected options disk ≠ [] → ∃ saved,
      (Metadata.persist .empty options.metadataFile options.merge).run.run disk = (.ok saved, disk))
    {machine : Machine} (calm : Calm machine options disk) (bench : Bench σ) :
    ∃ summary bench', (run machine options rewriter).run.run ⟨disk, bench⟩ =
      (.ok summary, ⟨disk, bench'⟩) ∧
      summary.transformed = 0 := by
  unfold run
  rw [Steps.run_bind, Work.run_onDisk, run_collectTargets sets]
  simp only
  by_cases none : collected options disk = []
  · rw [none]
    exact ⟨_, bench, rfl, rfl⟩
  · obtain ⟨summary, bench', rewritten, zero⟩ :=
      run_rewriteAll_of_settled inPlace rooted spelled settled
        (orderly_of_calm rooted spelled calm) bench
    obtain ⟨saved, persisted⟩ := persists none
    refine ⟨summary, bench', ?_, zero⟩
    rw [if_neg (by simpa using none), Steps.run_bind, rewritten]
    simp only
    rw [Steps.run_bind, Work.run_onDisk, persisted]
    rfl

attribute [local instance] Archive.plainLibrary Archive.plainLibrary_lawful

/-- An archive and a directory, for two workers, with the metadata in a directory that is made for
it. -/
def inPlaceTargets : Options :=
  { archives := [⟨"a.jar"⟩], classDirectories := [⟨"c"⟩], metadataFile := ⟨"m/f"⟩, jobs := 2 }

private theorem apart_inPlaceTargets : (sites inPlaceTargets archiveAndTree.disk).Apart := by
  have here : sites inPlaceTargets archiveAndTree.disk = ⟨[["a.jar"]], [["c"]]⟩ := by decide +kernel
  rw [here]
  rintro place archive ⟨top, tree, below, same, -⟩
  cases List.mem_singleton.mp archive
  cases List.mem_singleton.mp tree
  simp at same

private theorem scattered_inPlaceTargets : Scattered ⟨[["a.jar"]], [["c"]]⟩ where
  archives one listed other listed' := by
    cases List.mem_singleton.mp listed
    cases List.mem_singleton.mp listed'
    rintro ⟨name, number, -, -, same⟩
    have chars := congrArg String.toList (List.cons_eq_cons.mp same).1
    simp [Archive.safetyName] at chars
  mixed archive listed top listed' place loose := by
    cases List.mem_singleton.mp listed
    cases List.mem_singleton.mp listed'
    have short : place.length = 1 := by
      rcases loose with rfl | ⟨name, number, -, -, rfl⟩ <;> rfl
    rintro ⟨below, inside, -, rfl⟩
    have more := List.length_pos_iff.mpr inside
    rw [List.length_append, List.length_singleton] at short
    omega
  trees one listed other listed' _ _ _ := by
    rw [List.mem_singleton.mp listed, List.mem_singleton.mp listed']

/-- The directory is reached by way of the one that is made for the metadata. -/
def newWay : Options := { classDirectories := [⟨"m/../A"⟩], metadataFile := ⟨"m/f"⟩ }

/-- A rewriter with one class for all. -/
def sealing : Rewriter Unit := fun _ content => pure ⟨[1], content != [1]⟩

/-- An archive without entries that is named like a class. -/
def archiveAsClass : Workshop Unit where
  disk := { root := .directory "A" (.file "X.class" (Archive.write []) .empty) .empty
            ordered := ⟨by simp [Listing.names], ⟨by simp [Listing.names], trivial⟩, trivial⟩
            workPlace := [] }
  bench := ⟨.empty, ()⟩

/-- It is rewritten as an archive, and then as a class of its directory. -/
def twoWays :
    Options := { archives := [⟨"A/X.class"⟩], classDirectories := [⟨"A"⟩], metadataFile := ⟨"m"⟩ }

/-- Zero jobs ask for one worker for each processor. -/
def archiveInTree : Options := { innerArchive with jobs := 0 }

/-- Two classes, one for those without a package. -/
def lettering : Rewriter Unit := fun name content =>
  if content = .replicate 9 3 ∨ content = .replicate 10 2 then pure ⟨content, false⟩
  else if name = "X.class" then pure ⟨.replicate 9 3, true⟩
  else pure ⟨.replicate 10 2, true⟩

/-- A class in a directory of a directory. -/
def nestedTrees : Workshop Unit where
  disk := { root := .directory "c" (.directory "s"
    (.file "X.class" (.replicate 9 1) .empty) .empty) .empty
            ordered := ⟨by simp [Listing.names],
              ⟨by simp [Listing.names], ⟨by simp [Listing.names], trivial⟩, trivial⟩, trivial⟩
            workPlace := [] }
  bench := ⟨.empty, ()⟩

/-- The class is in both directories. -/
def bothTrees : Options := { classDirectories := [⟨"c"⟩, ⟨"c/s"⟩], jobs := 0 }

private theorem steady_sealing : sealing.Steady where
  own answered changed other later := by
    cases answered
    exact ⟨_, _, rfl, rfl⟩
  again answered same later := by
    cases answered
    exact ⟨_, rfl⟩
  quiet answered same := by
    cases answered
    rfl

private theorem run_lettering (name : String) (content : Bytes) (bench : Bench Unit) :
    ((lettering name content).run.run bench = (.ok ⟨content, false⟩, bench) ∧
      (content = .replicate 9 3 ∨ content = .replicate 10 2)) ∨
    ∃ answer, (lettering name content).run.run bench = (.ok ⟨answer, true⟩, bench) ∧
      (answer = .replicate 9 3 ∨ answer = .replicate 10 2) := by
  unfold lettering
  split
  · rename_i known
    exact .inl ⟨rfl, known⟩
  · split
    · exact .inr ⟨_, rfl, .inl rfl⟩
    · exact .inr ⟨_, rfl, .inr rfl⟩

private theorem steady_lettering : lettering.Steady where
  own {name content answer bench bench'} answered changed other later := by
    have known : answer.bytes = .replicate 9 3 ∨ answer.bytes = .replicate 10 2 := by
      rcases run_lettering name content bench with ⟨ran, -⟩ | ⟨bytes, ran, known⟩
      · rw [← Except.ok.inj (congrArg Prod.fst (ran.symm.trans answered))] at changed
        cases changed
      · rw [← Except.ok.inj (congrArg Prod.fst (ran.symm.trans answered))]
        exact known
    refine ⟨⟨answer.bytes, false⟩, later, ?_, rfl⟩
    unfold lettering
    rw [if_pos known]
    rfl
  again {name content answer bench bench'} answered same later := by
    rcases run_lettering name content bench with ⟨ran, known⟩ | ⟨bytes, ran, -⟩
    · refine ⟨later, ?_⟩
      rw [← Except.ok.inj (congrArg Prod.fst (ran.symm.trans answered))]
      unfold lettering
      rw [if_pos known]
      rfl
    · rw [← Except.ok.inj (congrArg Prod.fst (ran.symm.trans answered))] at same
      cases same
  quiet {name content answer bench bench'} answered same := by
    rcases run_lettering name content bench with ⟨ran, -⟩ | ⟨bytes, ran, -⟩ <;>
      exact congrArg (Bench.store ∘ Prod.snd) (answered.symm.trans ran)

/-- A run with the answer that it gives. -/
private theorem run_with {result : Except Failure Summary} {step : Work σ Summary}
    {shop : Workshop σ} (answered : (step.run.run shop).1 = result) {holds : Workshop σ → Prop}
    (later : holds (step.run.run shop).2) :
    ∃ after, step.run.run shop = (result, after) ∧ holds after :=
  ⟨_, Prod.ext answered rfl, later⟩

private theorem apart_of_no_archives {sites : Sites}
    (none_ : sites.archives = []) : sites.Apart := by
  simp [Sites.Apart, none_]

end Instrument
end ClassCoverage
