import ClassCoverage.Proofs.ArchiveEquivalence
import ClassCoverage.Proofs.CrewDeeds
import ClassCoverage.Proofs.MetadataSave
import ClassCoverage.Proofs.TargetMentions

/-! Parallel runs. Targets that have nothing to do with each other are instrumented by any number of
workers, in any order of their turns, as they are by one worker. -/
namespace ClassCoverage

/-- What a load finds once other files were written it would have found before. -/
theorem Metadata.load_back {disk disk' : Disk} {path : Path} {loaded : Option Store}
    (rooted : disk.Rooted) (keeps : disk.Keeps disk')
    (same : ∀ content, disk'.kind? (disk.aim path) = some (.file content) ↔
      disk.kind? (disk.aim path) = some (.file content))
    (known : ∀ content, disk.kind? (disk.aim path) = some (.file content) →
      disk.resolve path = .ok (disk.aim path))
    (run : (load path).run.run disk' = (.ok loaded, disk')) :
    (load path).run.run disk = (.ok loaded, disk) := by
  rcases (load_ok run).2 with ⟨missing, rfl⟩ | ⟨bytes, store, held, decoded, rfl⟩
  · apply load_of_missing
    rw [← Bool.not_eq_true]
    intro there
    obtain ⟨place, kind, resolved, found⟩ := resolve_of_exists? there
    obtain rfl := Disk.aim_of_resolve resolved
    have there' : disk'.exists? path = true := by
      cases kind with
      | file content =>
        have lands := (Disk.lands_of_resolve rooted resolved found).keep keeps
        exact exists?_of_read (lands.read ((same content).mpr found))
      | directory =>
        exact exists?_of_resolve (Disk.resolve_keep keeps resolved found) (keeps.directory _ found)
    rw [missing] at there'
    cases there'
  · obtain ⟨place, resolved, found⟩ := Disk.resolve_of_read held
    obtain rfl := Disk.aim_of_resolve resolved
    rw [Disk.aim_keep keeps.workPlace] at found
    have before := (same bytes).mp found
    exact load_of_decode
      ((Disk.lands_of_resolve rooted (known bytes before) before).read before) decoded

theorem Metadata.existing_back {disk disk' : Disk} {path : Path} {merge : Bool}
    {loaded : Option Store} (rooted : disk.Rooted) (keeps : disk.Keeps disk')
    (same : ∀ content, disk'.kind? (disk.aim path) = some (.file content) ↔
      disk.kind? (disk.aim path) = some (.file content))
    (known : ∀ content, disk.kind? (disk.aim path) = some (.file content) →
      disk.resolve path = .ok (disk.aim path))
    (run : (existing path merge).run.run disk' = (.ok loaded, disk')) :
    (existing path merge).run.run disk = (.ok loaded, disk) := by
  cases merge with
  | true => exact load_back rooted keeps same known run
  | false =>
    cases run
    rfl

/-- A sum that is added to what is there adds all its parts. -/
theorem Metadata.foldlM_of_addTo {disk disk' : Disk} {old : Option Store} {parts : List Store}
    {sum : Store} (compatible : Store.AllCompatible parts)
    (run : (addTo old (Store.total parts)).run.run disk = (.ok sum, disk')) :
    (old.toList ++ parts).foldlM Store.merge .empty = .ok sum := by
  rw [Store.foldlM_merge_eq_ok_iff, Store.allCompatible_empty_iff]
  rcases (addTo_ok run).2 with ⟨rfl, rfl⟩ | ⟨store, rfl, merged⟩
  · exact ⟨compatible, rfl⟩
  · obtain ⟨apart, rfl⟩ := Store.merge_eq_ok_iff.mp merged
    refine ⟨Store.allCompatible_cons_iff.mpr ⟨compatible, apart⟩, ?_⟩
    have whole : Store.total ([store] ++ parts) = (Store.total [store]).sum (Store.total parts) :=
      Store.total_append [store] parts
    have alone : Store.total [store] = store := Store.empty_sum store
    rw [alone] at whole
    exact whole.symm

namespace Instrument
variable {σ : Type}

/-- Targets that were collected and have nothing to do with each other: what is written for one of
them, the others neither write nor look at, and where an archive or a copy of it comes and goes,
they make no directory. A class directory with files is found under its path, and the metadata file
is not among the files of the targets. -/
structure Independent (options : Options) (disk : Disk) (targets : List Target) : Prop where
  rooted : disk.Rooted
  spelled : disk.Spelled
  collected : (collectTargets options).run.run disk = (.ok targets, disk)
  found : ∀ path, .directory path ∈ targets → ClassTree.Found disk path
  separate : targets.Pairwise (Target.Separate options.outputDirectory disk)
  outside : ∀ target ∈ targets,
    disk.aim options.metadataFile ∉ target.goals options.outputDirectory disk

/-- Saves the records of all targets. -/
def Task.save [Archive.Library] (task : Task) (targets : List Target) : Action Store :=
  Metadata.persist (Store.total (task.stores targets)) task.options.metadataFile task.options.merge

/-- What a target comes to when it is rewritten alone, with an empty store: its counts, and the
records of all its classes. -/
structure Alone [Archive.Library] (options : Options) (rewriter : Rewriter σ) (plan : Plan)
    (shop : Workshop σ) (target : Target) (part : Summary × Store) : Prop where
  ran : ∃ after, (rewriteTarget options rewriter target).run.run ⟨shop.disk,
    ⟨.empty, shop.bench.memory⟩⟩ =
    (.ok part.1, after) ∧ after.bench.store = part.2
  records : target.Tidy options.outputDirectory shop.disk →
    Store.empty.insertAll (plan.recordsOf (target.classes shop.disk)) = .ok part.2

/-- What a run has saved: the records of all targets, added to what was in the metadata file
before. -/
structure Saved [Archive.Library] (options : Options) (rewriter : Rewriter σ) (plan : Plan)
    (shop : Workshop σ) (targets : List Target) (summary : Summary) (disk' : Disk)
    (parts : List (Summary × Store)) (old : Option Store) (saved : Store) : Prop where
  alone : List.Forall₂ (Alone options rewriter plan shop) targets parts
  counted : summary = total (parts.map Prod.fst)
  before : (∀ content, shop.disk.kind? (shop.disk.aim options.metadataFile) = some (.file content) →
      shop.disk.resolve options.metadataFile = .ok (shop.disk.aim options.metadataFile)) →
    (Metadata.existing options.metadataFile options.merge).run.run shop.disk = (.ok old, shop.disk)
  sum : (old.toList ++ parts.map Prod.snd).foldlM Store.merge .empty = .ok saved
  held : disk'.read options.metadataFile = .ok (Metadata.encode saved)
  loaded : Metadata.Fits saved →
    (Metadata.load options.metadataFile).run.run disk' = (.ok (some saved), disk')

section
variable {task : Task} {rewriter : Rewriter σ} {targets : List Target} {shop : Workshop σ}

theorem Independent.fit (independent : Independent task.options task.disk targets) :
    task.Fit targets where
  rooted := independent.rooted
  distinct := Target.nodup_of_collect independent.collected
  ready target member := by
    cases target with
    | archive path =>
      exact .archive (Target.isFile_of_collect independent.spelled independent.collected member)
    | directory path =>
      refine .directory (independent.found path member) ?_
      intro below inside name part
      obtain ⟨-, -, content, file⟩ := ClassTree.mem_filesBelow_iff.mp inside
      exact independent.spelled _ _ file name (List.mem_append_right _ part)
  separate := independent.separate

/-- What becomes of the targets is saved, in whatever way they were rewritten. -/
theorem run_of_independent [Archive.Library]
    (independent : Independent task.options task.disk targets) (nonempty : targets ≠ [])
    (follows : rewriter.Follows task.plan) (start : shop.disk = task.disk) (machine : Machine)
    (jobs : Nat) :
    (task.Possible targets → ∃ middle : Workshop σ, (task.news targets).Made task.disk middle.disk ∧
      (run machine { task.options with jobs := jobs } rewriter).run.run shop =
        (((task.save targets).run.run middle.disk).1.map fun _ => total (targets.map task.summary),
          { middle with disk := ((task.save targets).run.run middle.disk).2 })) ∧
    (¬ task.Possible targets → ∃ failure after,
      (run machine { task.options with jobs := jobs } rewriter).run.run shop =
        (.error failure, after)) := by
  have collected :
      (Work.onDisk (collectTargets { task.options with jobs := jobs }) : Work σ _).run.run shop =
      (.ok targets, shop) := by
    have found : (collectTargets { task.options with jobs := jobs }).run.run shop.disk =
        (.ok targets, shop.disk) := by
      rw [start]
      exact independent.collected
    rw [Work.run_onDisk, found]
  have some : targets.isEmpty = false := List.isEmpty_eq_false_iff.mpr nonempty
  obtain ⟨possible, impossible⟩ := run_rewriteAll_of_fit independent.fit follows start machine jobs
  unfold run
  rw [Steps.run_bind, collected]
  simp only [some, Bool.false_eq_true, ↓reduceIte]
  rw [Steps.run_bind]
  constructor
  · intro whole
    obtain ⟨middle, ran, made⟩ := possible whole
    refine ⟨middle, made, ?_⟩
    unfold Task.save
    rw [ran]
    simp only
    rw [Steps.run_bind, Work.run_onDisk]
    generalize (Metadata.persist _ _ _).run.run middle.disk = persisted
    obtain ⟨answer, disk⟩ := persisted
    cases answer <;> rfl
  · intro broken
    obtain ⟨failure, after, ran⟩ := impossible broken
    rw [ran]
    exact ⟨failure, after, rfl⟩

private theorem run_of_no_targets [Archive.Library] {options : Options}
    (none : (collectTargets options).run.run shop.disk = (.ok [], shop.disk)) (machine : Machine)
    (jobs : Nat) :
    (run machine { options with jobs := jobs } rewriter).run.run shop = (.ok {}, shop) := by
  have found : (collectTargets { options with jobs := jobs }).run.run shop.disk =
      (.ok [], shop.disk) := none
  unfold run
  rw [Steps.run_bind, Work.run_onDisk, found]
  rfl

/-- Two runs of independent targets end alike. -/
theorem run_alike [Archive.Library] (independent : Independent task.options task.disk targets)
    (follows : rewriter.Follows task.plan) (start : shop.disk = task.disk)
    (machine machine' : Machine) (jobs jobs' : Nat) {summary : Summary} {after : Workshop σ}
    (ran : (run machine { task.options with jobs := jobs } rewriter).run.run shop =
      (.ok summary, after)) :
    ∃ after', (run machine' { task.options with jobs := jobs' } rewriter).run.run shop =
      (.ok summary, after') ∧
      after'.disk = after.disk := by
  by_cases nonempty : targets = []
  · have none := independent.collected
    rw [nonempty, ← start] at none
    rw [run_of_no_targets none] at ran
    cases ran
    exact ⟨shop, run_of_no_targets none machine' jobs', rfl⟩
  · obtain ⟨possible, impossible⟩ :=
      run_of_independent independent nonempty follows start machine jobs
    by_cases whole : task.Possible targets
    · obtain ⟨middle, made, ran'⟩ := possible whole
      obtain ⟨other, made', run'⟩ :=
        (run_of_independent independent nonempty follows start machine' jobs').1 whole
      have same : other.disk = middle.disk := made'.unique made
      rw [ran'] at ran
      obtain ⟨answered, rfl⟩ := Prod.mk.inj ran
      rw [same, answered] at run'
      exact ⟨_, run', rfl⟩
    · obtain ⟨failure, stopped, ran'⟩ := impossible whole
      rw [ran'] at ran
      cases ran

private theorem alone_of_possible [Archive.Library] {target : Target} (rooted : task.disk.Rooted)
    (follows : rewriter.Follows task.plan) (start : shop.disk = task.disk)
    (ready : target.Ready task.disk) (possible : task.Possible [target]) :
    Alone task.options rewriter task.plan shop target (task.summary target,
    Store.total (task.stores [target])) := by
  obtain ⟨⟨summary, deed⟩, known⟩ := Option.isSome_iff_exists.mp
    (possible.each target (List.mem_singleton_self _))
  obtain ⟨counted, delta, records⟩ := Task.outcome_eq known
  have stores : task.stores [target] = deed.records.map Store.single := by
    unfold Task.stores
    rw [List.flatMap_singleton, records]
  have open_ := possible.open_
  have compatible := possible.compatible
  rw [Task.news_cons, delta] at open_
  rw [stores] at compatible
  have ended : Ends rewriter (course task.options target)
      ⟨task.disk, ⟨.empty, shop.bench.memory⟩⟩ ⟨task.disk, ⟨.empty, shop.bench.memory⟩⟩
        (task.outcome? target) :=
    ends_course rooted follows ready
  rw [known] at ended
  have inserted : Store.empty.insertAll deed.records =
      .ok (Store.total (deed.records.map Store.single)) :=
    Store.insertAll_eq_ok_iff.mpr ⟨Store.allCompatible_empty_iff.mpr compatible,
      (Store.empty_sum _).symm⟩
  rw [counted, stores]
  constructor
  · rw [start]
    cases ended with
    | @done _ _ after ran done =>
      have same := done.store.symm.trans inserted
      exact ⟨after, ran, Except.ok.inj same⟩
    | failed ran never =>
      have alone : deed.delta.Open task.disk := (Delta.open_of_andThen (.refl _) open_).2
      exact absurd ⟨alone, Store.allCompatible_empty_iff.mpr compatible⟩ (never summary deed rfl)
  · rw [start]
    intro tidy
    rw [← records_of_doTarget rooted ready tidy known]
    exact inserted

/-- What was saved is the sum of what the targets come to alone, and of what was there before. -/
theorem saved_of_save [Archive.Library] (independent : Independent task.options task.disk targets)
    (follows : rewriter.Follows task.plan) (start : shop.disk = task.disk)
    (possible : task.Possible targets) {middle disk' : Disk}
    (made : (task.news targets).Made task.disk middle) {saved : Store}
    (save : (task.save targets).run.run middle = (.ok saved, disk')) :
    ∃ parts old, Saved task.options rewriter task.plan shop targets
      (total (targets.map task.summary)) disk' parts
      old saved := by
  have keeps := made.keeps possible.open_
  obtain ⟨old, looked, added, held⟩ := Metadata.persist_ok (independent.rooted.keep keeps) save
  have groups : (task.stores targets) = (targets.map fun target =>
      task.stores [target]).flatten := by
    unfold Task.stores
    simp only [List.flatMap_singleton]
    rw [List.map_flatMap, List.flatMap_def]
  obtain ⟨-, compatible⟩ := Store.allCompatible_flatten_iff.mp (groups ▸ possible.compatible)
  rw [groups, Store.total_flatten] at added
  have sum := Metadata.foldlM_of_addTo compatible added
  have elsewhere (content : Bytes) :
      middle.kind? (task.disk.aim task.options.metadataFile) = some (.file content) ↔
        task.disk.kind? (task.disk.aim task.options.metadataFile) = some (.file content) := by
    rw [made.kinds]
    apply Delta.kind?_eq_file_iff possible.open_
    intro written
    obtain ⟨target, member, own⟩ := Task.mem_places_news_iff.mp written
    exact independent.outside target member (Task.goals_of_delta own)
  refine ⟨targets.map fun target =>
    (task.summary target, Store.total (task.stores [target])), old, ?_⟩
  refine ⟨?_, ?_, ?_, ?_, held, ?_⟩
  · apply List.forall₂_map_right_iff.mpr
    apply List.forall₂_same.mpr
    intro target member
    have alone := possible.sublist (List.singleton_sublist.mpr member)
    exact alone_of_possible independent.rooted follows start
      (independent.fit.ready target member) alone
  · rw [List.map_map]
    rfl
  · rw [start]
    intro known
    exact Metadata.existing_back independent.rooted keeps elsewhere known looked
  · rw [List.map_map] at sum ⊢
    exact sum
  · intro fits
    exact Metadata.load_of_read fits.measured held

private theorem saved_of_run [Archive.Library]
    (independent : Independent task.options task.disk targets) (nonempty : targets ≠ [])
    (follows : rewriter.Follows task.plan) (start : shop.disk = task.disk) {machine : Machine}
    {jobs : Nat} {summary : Summary} {after : Workshop σ}
    (ran : (run machine { task.options with jobs := jobs } rewriter).run.run shop =
      (.ok summary, after)) :
    ∃ parts old saved, Saved task.options rewriter task.plan shop targets summary after.disk parts
      old saved := by
  obtain ⟨possible, impossible⟩ :=
    run_of_independent independent nonempty follows start machine jobs
  by_cases whole : task.Possible targets
  · obtain ⟨middle, made, ran'⟩ := possible whole
    rw [ran'] at ran
    obtain ⟨answered, rfl⟩ := Prod.mk.inj ran
    cases save : (task.save targets).run.run middle.disk with
    | mk answer disk' =>
      rw [save] at answered
      cases answer with
      | error failure => cases answered
      | ok saved =>
        cases answered
        obtain ⟨parts, old, joined⟩ := saved_of_save independent follows start whole made save
        exact ⟨parts, old, saved, joined⟩
  · obtain ⟨failure, stopped, ran'⟩ := impossible whole
    rw [ran'] at ran
    cases ran

end

/-- However many workers there are and whatever turns they take, a run of independent targets
succeeds where that of one worker does. It answers the same then, leaves the same files, and has
saved the records of all targets, added to those that were there. -/
theorem run_agrees [Archive.Library] {rewriter : Rewriter σ} {plan : Plan}
    (follows : rewriter.Follows plan) {options : Options} {shop : Workshop σ}
    {targets : List Target} (independent : Independent options shop.disk targets) (jobs : Nat)
    (machine machine' : Machine) :
    ((∃ summary after, (run machine { options with jobs := jobs } rewriter).run.run shop =
      (.ok summary, after)) ↔
      ∃ summary after, (run machine' { options with jobs := 1 } rewriter).run.run shop =
        (.ok summary, after)) ∧
    ∀ summary after, (run machine' { options with jobs := 1 } rewriter).run.run shop =
      (.ok summary, after) →
      ∃ after', (run machine { options with jobs := jobs } rewriter).run.run shop =
        (.ok summary, after') ∧
        after'.disk = after.disk ∧
        (targets ≠ [] → ∃ parts old saved,
          Saved options rewriter plan shop targets summary after'.disk parts old saved) := by
  have own : Independent (⟨options, plan, shop.disk⟩ : Task).options shop.disk targets :=
    independent
  refine ⟨⟨?_, ?_⟩, ?_⟩
  · rintro ⟨summary, after, ran⟩
    obtain ⟨after', ran', -⟩ := run_alike own follows rfl machine machine' jobs 1 ran
    exact ⟨summary, after', ran'⟩
  · rintro ⟨summary, after, ran⟩
    obtain ⟨after', ran', -⟩ := run_alike own follows rfl machine' machine 1 jobs ran
    exact ⟨summary, after', ran'⟩
  · intro summary after ran
    obtain ⟨after', ran', same⟩ := run_alike own follows rfl machine' machine 1 jobs ran
    refine ⟨after', ran', same, ?_⟩
    intro nonempty
    exact saved_of_run own nonempty follows rfl ran'

attribute [local instance] Archive.plainLibrary

/-- An archive, and a directory with one class. -/
def archiveAndTree : Workshop Nat where
  disk := { root := .file "a.jar" Archive.smallArchive (.directory "c"
    (.file "B.class" (.replicate 9 1) .empty) .empty)
            ordered := ⟨by decide, by decide, ⟨by decide, trivial⟩, trivial⟩
            workPlace := [] }
  bench := ⟨.empty, 0⟩

/-- Both are instrumented, the archive where it is. -/
def bothTargets : Options :=
  { archives := [⟨"a.jar"⟩], classDirectories := [⟨"c"⟩], outputDirectory := some ⟨"out"⟩ }

private theorem separate_bothTargets :
    Target.Separate bothTargets.outputDirectory archiveAndTree.disk
    (.archive ⟨"a.jar"⟩) (.directory ⟨"c"⟩) where
  writes := by decide +kernel
  forth := by decide +kernel
  back := by decide +kernel
  aside := by
    have goals : Target.goals bothTargets.outputDirectory archiveAndTree.disk (.directory ⟨"c"⟩) =
        [["out", "B.class"]] := by decide +kernel
    have ways : Target.ways bothTargets.outputDirectory archiveAndTree.disk
        (.directory ⟨"c"⟩) = [["out"]] := by
      decide +kernel
    have here : archiveAndTree.disk.aim ⟨"a.jar"⟩ = ["a.jar"] ∧
        archiveAndTree.disk.aim ⟨"c"⟩ = ["c"] := by
      decide +kernel
    intro place loose
    change place = archiveAndTree.disk.aim ⟨"a.jar"⟩ ∨
      Archive.IsSpare (archiveAndTree.disk.aim ⟨"a.jar"⟩) place at loose
    change _ ∧ ¬ ClassTree.Reached (archiveAndTree.disk.aim ⟨"c"⟩) place ∧ _
    rw [here.1] at loose
    rw [goals, ways, here.2]
    have short : place.length = 1 ∧ place ≠ ["out"] := by
      rcases loose with rfl | ⟨name, number, -, -, rfl⟩
      · decide
      · refine ⟨rfl, fun same => ?_⟩
        have chars := congrArg String.toList (List.cons_eq_cons.mp same).1
        simp [Archive.safetyName] at chars
    refine ⟨?_, ?_, ?_⟩
    · intro goal
      rw [List.mem_singleton.mp goal] at short
      exact absurd short.1 (by decide)
    · rintro ⟨below, inside, -, rfl⟩
      have more := List.length_pos_iff.mpr inside
      have length := short.1
      rw [List.length_append, List.length_singleton] at length
      omega
    · exact fun way => absurd (List.mem_singleton.mp way) short.2
  asideBack := fun _ loose => loose.elim

private theorem independent_bothTargets :
    Independent bothTargets archiveAndTree.disk [.archive ⟨"a.jar"⟩, .directory ⟨"c"⟩] where
  rooted := ⟨rfl, by simp [archiveAndTree]⟩
  spelled := Disk.spelled_of_root (by decide)
  collected := Prod.ext (by decide +kernel) (Target.state_of_collect _ _ _ _)
  found path member := by
    obtain rfl : path = ⟨"c"⟩ := by simpa using member
    intro _
    decide +kernel
  separate := List.pairwise_pair.mpr separate_bothTargets
  outside := by decide +kernel

/-- Each of two workers has one of the targets, and they take their first steps by turns. -/
theorem run_agrees_of_two_targets :
    (Marking.rewriter {}).Follows (Marking.plan {}) ∧
    Independent bothTargets archiveAndTree.disk [.archive ⟨"a.jar"⟩, .directory ⟨"c"⟩] ∧
    ∃ after after',
      (run {} { bothTargets with jobs := 1 } (Marking.rewriter {})).run.run archiveAndTree =
        (.ok { archives := 1, directories := 1, classes := 2, transformed := 2 }, after) ∧
      (run { turns := [1, 0, 1, 0, 1, 0, 1, 0, 1, 0, 1] } { bothTargets with jobs := 2 }
        (Marking.rewriter {})).run.run archiveAndTree =
        (.ok { archives := 1, directories := 1, classes := 2, transformed := 2 }, after') ∧
      after'.disk = after.disk ∧
      ∃ parts old saved, Saved bothTargets (Marking.rewriter {}) (Marking.plan {}) archiveAndTree
        [.archive ⟨"a.jar"⟩,
        .directory ⟨"c"⟩] { archives := 1, directories := 1, classes := 2, transformed := 2 }
        after'.disk parts old saved := by
  have follows : (Marking.rewriter {}).Follows (Marking.plan {}) := Marking.follows rfl
  have answered :
      ((run {} { bothTargets with jobs := 1 } (Marking.rewriter {})).run.run archiveAndTree).1 =
      .ok { archives := 1, directories := 1, classes := 2, transformed := 2 } := by decide +kernel
  cases first :
    (run {} { bothTargets with jobs := 1 } (Marking.rewriter {})).run.run archiveAndTree with
  | mk result after =>
    rw [first] at answered
    cases answered
    obtain ⟨after', ran, same, saved⟩ :=
      (run_agrees follows independent_bothTargets 2
        { turns := [1, 0, 1, 0, 1, 0, 1, 0, 1, 0, 1] } {}).2 _ _ first
    exact ⟨follows, independent_bothTargets, after, after', rfl, ran, same, saved (by simp)⟩

/-- Targets that were collected, and have no file in common at the start, with each other or with
the metadata. -/
structure Disjoint (options : Options) (disk : Disk) (targets : List Target) : Prop where
  rooted : disk.Rooted
  spelled : disk.Spelled
  collected : (collectTargets options).run.run disk = (.ok targets, disk)
  apart : targets.Pairwise fun one other =>
    ∀ place ∈ one.files options.outputDirectory disk,
      place ∉ other.files options.outputDirectory disk
  outside : ∀ target ∈ targets,
    disk.aim options.metadataFile ∉ target.files options.outputDirectory disk

/-- Two directories, with one class in each. -/
def twoTrees : Workshop Nat where
  disk := { root := .directory "A" (.file "X.class" (.replicate 9 1) .empty)
              (.directory "B" (.file "Y.class" (.replicate 9 2) .empty) .empty)
            ordered := ⟨by decide, ⟨by decide, trivial⟩, ⟨by decide, ⟨by decide, trivial⟩, trivial⟩⟩
            workPlace := [] }
  bench := ⟨.empty, 0⟩

/-- The second directory is only found once the output directory is there. -/
def lateTree : Options :=
  { classDirectories := [⟨"none"⟩, ⟨"A"⟩, ⟨"out/../B"⟩], outputDirectory := some ⟨"out"⟩ }

/-- The output directory lies in the second directory. -/
def growingTree :
    Options := { classDirectories := [⟨"A"⟩, ⟨"B"⟩], outputDirectory := some ⟨"B/gen"⟩ }

/-- A directory with a class, and with an archive whose name is passed over. -/
def treeWithArchive : Workshop Nat where
  disk := { root := .directory "c"
              (.file "B.class" (.replicate 9 1) (.file "a.jar~" Archive.smallArchive .empty)) .empty
            ordered := ⟨by simp [Listing.names], ⟨by decide, by decide, trivial⟩, trivial⟩
            workPlace := [] }
  bench := ⟨.empty, 0⟩

/-- The archive is moved aside to a name that is not passed over. -/
def innerArchive : Options := { archives := [⟨"c/a.jar~"⟩], classDirectories := [⟨"c"⟩] }

/-- Targets without a common file can be rewritten with another result by two workers than by one: a
directory is only found, or has more files, once another one was rewritten, or while another one
is. -/
theorem run_disagrees :
    (Marking.rewriter {}).Follows (Marking.plan {}) ∧
    (Disjoint lateTree twoTrees.disk [.directory ⟨"none"⟩, .directory ⟨"A"⟩,
    .directory ⟨"out/../B"⟩] ∧
      ((run {} { lateTree with jobs := 1 } (Marking.rewriter {})).run.run twoTrees).1 =
        .ok { directories := 3, classes := 2, transformed := 2 } ∧
      ((run {} { lateTree with jobs := 2 } (Marking.rewriter {})).run.run twoTrees).1 =
        .ok { directories := 3, classes := 1, transformed := 1 }) ∧
    (Disjoint growingTree twoTrees.disk [.directory ⟨"A"⟩, .directory ⟨"B"⟩] ∧
      ((run {} { growingTree with jobs := 1 } (Marking.rewriter {})).run.run twoTrees).1 =
        .ok { directories := 2, classes := 3, transformed := 2 } ∧
      ((run { turns := [1, 1, 1, 1, 1] } { growingTree with jobs := 2 }
        (Marking.rewriter {})).run.run twoTrees).1 =
        .ok { directories := 2, classes := 2, transformed := 2 }) ∧
    (Disjoint innerArchive treeWithArchive.disk [.archive ⟨"c/a.jar~"⟩, .directory ⟨"c"⟩] ∧
      ((run {} { innerArchive with jobs := 1 } (Marking.rewriter {})).run.run treeWithArchive).1 =
        .ok { archives := 1, directories := 1, classes := 2, transformed := 2 } ∧
      ((run { turns := [0, 0, 1, 1, 1, 1, 1] } { innerArchive with jobs := 2 }
        (Marking.rewriter {})).run.run
        treeWithArchive).1 =
          .error (.io "stat class file" (some ⟨"c/.a.jar~.000000.orig"⟩) (some .notFound))) := by
  have rooted : twoTrees.disk.Rooted := ⟨rfl, by simp [twoTrees]⟩
  have spelled : twoTrees.disk.Spelled := Disk.spelled_of_root (by decide)
  refine ⟨Marking.follows rfl, ⟨⟨rooted, spelled, ?_, ?_, ?_⟩, ?_, ?_⟩,
    ⟨⟨rooted, spelled, ?_, ?_, ?_⟩, ?_, ?_⟩,
    ⟨⟨rfl, by simp [treeWithArchive]⟩, Disk.spelled_of_root (by decide), ?_, ?_, ?_⟩, ?_, ?_⟩
  · exact Prod.ext (by decide +kernel) (Target.state_of_collect _ _ _ _)
  · decide +kernel
  · decide +kernel
  · decide +kernel
  · decide +kernel
  · exact Prod.ext (by decide +kernel) (Target.state_of_collect _ _ _ _)
  · decide +kernel
  · decide +kernel
  · decide +kernel
  · decide +kernel
  · exact Prod.ext (by decide +kernel) (Target.state_of_collect _ _ _ _)
  · decide +kernel
  · decide +kernel
  · decide +kernel
  · decide +kernel

end Instrument
end ClassCoverage
