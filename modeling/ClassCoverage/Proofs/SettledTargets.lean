import ClassCoverage.Proofs.CrewDeeds
import ClassCoverage.Proofs.SettledTrees

/-! Targets that stay as they are. A crew with a steady rewriter settles all of its targets, and a
crew whose targets are all settled changes nothing, if it is one worker that takes them up one after
another, or if they lie side by side. -/
namespace ClassCoverage
variable {σ : Type} {rewriter : Rewriter σ} {keep : Bool} {sites : Sites}
  {disk disk' : Disk} {target : Target}

namespace Target

/-- An archive or a tree that is settled. A path that leads to no directory has no tree. -/
def Settled [Archive.Library] (rewriter : Rewriter σ) (keep : Bool) (disk : Disk) : Target → Prop
  | .archive path => Archive.hasRoom path = true ∧ ∃ place content, disk.resolve path = .ok place ∧
      disk.kind? place = some (.file content) ∧ Archive.Settled rewriter keep content
  | .directory path => ∀ top, disk.resolve path = .ok top → ClassTree.Settled rewriter disk top

/-- The target lies at one of the sites. -/
def On (sites : Sites) (disk : Disk) : Target → Prop
  | .archive path => disk.aim path ∈ sites.archives
  | .directory path => ∀ top, disk.resolve path = .ok top →
    disk.kind? top = some .directory → top ∈ sites.trees

theorem On.alike (on : target.On sites disk) (alike : disk.Alike disk') :
    target.On sites disk' := by
  cases target with
  | archive path =>
    have same : disk'.aim path = disk.aim path := Disk.aim_keep alike.workPlace path
    have member : disk.aim path ∈ sites.archives := on
    rw [← same] at member
    exact member
  | directory path =>
    intro top resolved directory
    exact on top (Disk.resolve_keep alike.keeps_back resolved directory)
      ((alike.directory top).mp directory)

/-- A settled target remains one while others are rewritten. -/
theorem Settled.advance [Archive.Library] (apart : sites.Apart) (rooted : disk.Rooted)
    (on : target.On sites disk) (settled : target.Settled rewriter keep disk)
    (advance : Advance rewriter keep sites disk disk') :
    target.Settled rewriter keep disk' := by
  have alike := advance.alike
  cases target with
  | archive path =>
    obtain ⟨room, place, content, resolved, held, fine⟩ := settled
    obtain ⟨content', held'⟩ := (alike.file place).mpr ⟨content, held⟩
    have lands := (Disk.lands_of_resolve rooted resolved held).keep alike.keeps
    refine ⟨room, place, content', lands.resolve held', held', ?_⟩
    have member : place ∈ sites.archives := Disk.aim_of_resolve resolved ▸ on
    apply advance.archive apart member _ held'
    intro other same
    cases held.symm.trans same
    exact fine
  | directory path =>
    intro top resolved' below file
    have directory' := ClassTree.kind?_of_filesBelow (List.ne_nil_of_mem file)
    have resolved := Disk.resolve_keep alike.keeps_back resolved' directory'
    have member := on top resolved ((alike.directory top).mp directory')
    exact (settled top resolved).advance apart member advance below file

/-- What one rewriter leaves alone is settled for another one that leaves the same alone. -/
theorem Settled.mono [Archive.Library] {τ : Type} {other : Rewriter τ}
    (more : ∀ name content, rewriter.LeavesAlone name content → other.LeavesAlone name content)
    (settled : target.Settled rewriter keep disk) : target.Settled other keep disk := by
  cases target with
  | archive path =>
    obtain ⟨room, place, content, resolved, held, entries, readable, fine, same, fits⟩ := settled
    refine ⟨room, place, content, resolved, held, entries, readable,
      fun entry member => ?_, same, fits⟩
    obtain ⟨found, kept, alone⟩ := fine entry member
    refine ⟨found, kept, fun isClass => ?_⟩
    obtain ⟨bytes, holds, quiet⟩ := alone isClass
    exact ⟨bytes, holds, more _ _ quiet⟩
  | directory path =>
    exact fun top resolved below file content held offered =>
      more _ _ (settled top resolved below file content held offered)

end Target

/-! Whatever the rewriter remembers. -/

namespace Rewriter

theorem leavesAlone_varying_iff {fallback : σ} {name : String} {content : Bytes} :
    (rewriter.varying fallback).LeavesAlone name content ↔ rewriter.LeavesAlone name content := by
  constructor
  · intro alone bench
    obtain ⟨answer, bench', answered, same, store⟩ := alone ⟨bench.store, [bench.memory]⟩
    rw [run_varying] at answered
    obtain ⟨result, rest⟩ := Prod.mk.inj answered
    refine ⟨answer, _, Prod.ext result rfl, same, ?_⟩
    rw [← store, ← rest]
    rfl
  · intro alone bench
    obtain ⟨answer, bench', answered, same, store⟩ :=
      alone ⟨bench.store, bench.memory.headD fallback⟩
    exact ⟨answer, ⟨bench'.store, bench.memory.tail⟩, by rw [run_varying, answered], same, store⟩

theorem Steady.varying (steady : rewriter.Steady) (fallback : σ) :
    (rewriter.varying fallback).Steady where
  own {name content answer bench bench'} answered changed other later := by
    rw [run_varying] at answered
    have before : (rewriter name content).run.run ⟨bench.store,
        bench.memory.headD fallback⟩ = (.ok answer, _) :=
      Prod.ext (Prod.mk.inj answered).1 rfl
    obtain ⟨answer', later', again, same, -⟩ :=
      leavesAlone_varying_iff.mpr (steady.knows before changed other) later
    exact ⟨answer', later', again, same⟩
  again {name content answer bench bench'} answered same later := by
    rw [run_varying] at answered
    have before : (rewriter name content).run.run ⟨bench.store,
        bench.memory.headD fallback⟩ = (.ok answer, _) :=
      Prod.ext (Prod.mk.inj answered).1 rfl
    obtain ⟨later', again⟩ := steady.again before same ⟨later.store, later.memory.headD fallback⟩
    exact ⟨_, by rw [run_varying, again]⟩
  quiet {name content answer bench bench'} answered same := by
    rw [run_varying] at answered
    obtain ⟨result, rest⟩ := Prod.mk.inj answered
    have before : (rewriter name content).run.run ⟨bench.store,
        bench.memory.headD fallback⟩ = (.ok answer, _) :=
      Prod.ext result rfl
    rw [← rest]
    exact steady.quiet before same

end Rewriter

namespace Instrument
variable {options : Options} {targets : List Target} {shop shop' : Workshop σ}

/-- A steady rewriter settles the target it rewrites. -/
theorem advance_of_rewriteTarget [Archive.Library] [Archive.LawfulLibrary]
    (steady : rewriter.Steady) (apart : sites.Apart) (inPlace : options.outputDirectory = none)
    (rooted : shop.disk.Rooted) (spelled : shop.disk.Spelled)
      (on : target.On sites shop.disk) {summary : Summary}
    (run : (rewriteTarget options rewriter target).run.run shop = (.ok summary, shop')) :
    Advance rewriter options.keepDirectoryEntries sites shop.disk shop'.disk ∧
      target.Settled rewriter options.keepDirectoryEntries shop'.disk := by
  cases target with
  | archive path =>
    obtain ⟨done, after, rewritten, answered⟩ := Course.run_bind_ok run
    cases answered
    obtain ⟨place, content, entries, build, replaced⟩ :=
      Archive.replaced_of_success rooted rewritten
    have held := replaced.file
    have settled := Archive.settled_of_replaced steady replaced
    have member : place ∈ sites.archives := Disk.aim_of_resolve (replaced.lands.resolve held) ▸ on
    refine ⟨.of_updated replaced.updated held (.inr ⟨member, settled⟩),
      Archive.hasRoom_of_success rewritten, place, _,
      ?_, replaced.updated.here, settled⟩
    exact (replaced.lands.keep replaced.updated.keeps).resolve replaced.updated.here
  | directory path =>
    obtain ⟨done, after, rewritten, answered⟩ := Course.run_bind_ok run
    cases answered
    rw [inPlace] at rewritten
    exact ClassTree.advance_of_rewrite steady apart rooted spelled on rewritten

/-- Rewriting a settled target leaves the disk and the store as they are. -/
theorem run_rewriteTarget_of_settled [Archive.Library] (inPlace : options.outputDirectory = none)
    (rooted : disk.Rooted) (spelled : disk.Spelled)
    (settled : target.Settled rewriter options.keepDirectoryEntries disk) (bench : Bench σ) :
    ∃ summary bench', (rewriteTarget options rewriter target).run.run ⟨disk, bench⟩ =
      (.ok summary, ⟨disk, bench'⟩) ∧
      summary.transformed = 0 ∧ bench'.store = bench.store := by
  cases target with
  | archive path =>
    obtain ⟨room, place, content, resolved, held, fine⟩ := settled
    obtain ⟨done, bench', ran, none, store⟩ :=
      @Archive.run_rewrite_of_settled _ rewriter ⟨options.keepDirectoryEntries⟩ _ disk rooted
        path content place room
        resolved held fine bench
    unfold Archive.rewrite at ran
    refine ⟨⟨1, 0, done.classes, done.transformed⟩, bench', ?_, none, store⟩
    unfold rewriteTarget course
    simp only
    rw [Course.run_bind, ran]
    rfl
  | directory path =>
    obtain ⟨done, bench', ran, none, store⟩ :=
      ClassTree.run_rewrite_of_settled spelled settled bench
    unfold ClassTree.rewrite at ran
    refine ⟨⟨0, 1, done.classes, done.transformed⟩, bench', ?_, none, store⟩
    unfold rewriteTarget course
    simp only [inPlace, Option.getD_none]
    rw [Course.run_bind, ran]
    rfl

/-! One after another. -/

/-- A worker that takes up all targets settles them all. -/
theorem settled_of_courseOfAll [Archive.Library] [Archive.LawfulLibrary] {start disk : Disk}
    {bench : Bench σ} (steady : rewriter.Steady) (apart : sites.Apart)
    (inPlace : options.outputDirectory = none) (rooted : start.Rooted) (spelled : start.Spelled)
    (on : ∀ target ∈ targets, target.On sites start) {total summary : Summary} (front : List Target)
    (known : ∀ target ∈ front, target.On sites start)
    (advance : Advance rewriter options.keepDirectoryEntries sites start disk)
    (settled : ∀ target ∈ front, target.Settled rewriter options.keepDirectoryEntries disk)
    (run : ((targets.foldlM (fun (summary : Summary) target =>
      return summary.add (← course options target)) total).carryOut rewriter).run.run ⟨disk,
      bench⟩ = (.ok summary, shop')) :
    Advance rewriter options.keepDirectoryEntries sites start shop'.disk ∧
      ∀ target ∈ front ++ targets,
        target.Settled rewriter options.keepDirectoryEntries shop'.disk := by
  induction targets generalizing front total disk bench with
  | nil =>
    cases run
    rw [List.append_nil]
    exact ⟨advance, settled⟩
  | cons target targets ih =>
    rw [List.foldlM_cons] at run
    obtain ⟨sum, after, counted, run⟩ := Course.run_bind_ok run
    obtain ⟨own, middle, rewritten, answered⟩ := Course.run_bind_ok counted
    cases answered
    have alike := advance.alike
    obtain ⟨onOwn, onLater⟩ := List.forall_mem_cons.mp on
    obtain ⟨further, fine⟩ :=
      advance_of_rewriteTarget steady apart inPlace (rooted.keep alike.keeps)
      (alike.spelled spelled) (onOwn.alike alike) rewritten
    have whole := ih onLater (front ++ [target]) ?known (advance.trans further) ?settled run
    case known =>
      exact List.forall_mem_append.mpr ⟨known, List.forall_mem_singleton.mpr onOwn⟩
    case settled =>
      refine List.forall_mem_append.mpr ⟨fun other early => ?_, List.forall_mem_singleton.mpr fine⟩
      exact (settled other early).advance apart (rooted.keep alike.keeps)
        ((known other early).alike alike) further
    simpa using whole

/-- A worker that comes upon settled targets only leaves all as it is. -/
theorem run_courseOfAll_of_settled [Archive.Library] {disk : Disk}
    (inPlace : options.outputDirectory = none) (rooted : disk.Rooted) (spelled : disk.Spelled)
    (settled : ∀ target ∈ targets, target.Settled rewriter options.keepDirectoryEntries disk)
    (total : Summary) (bench : Bench σ) :
    ∃ summary bench',
      ((targets.foldlM (fun (summary : Summary) target =>
      return summary.add (← course options target))
        total).carryOut rewriter).run.run ⟨disk, bench⟩ = (.ok summary, ⟨disk, bench'⟩) ∧
      summary.transformed = total.transformed ∧ bench'.store = bench.store := by
  induction targets generalizing total bench with
  | nil => exact ⟨total, bench, rfl, rfl, rfl⟩
  | cons target targets ih =>
    obtain ⟨own, later⟩ := List.forall_mem_cons.mp settled
    obtain ⟨counted, middle, ran, none, store⟩ :=
      run_rewriteTarget_of_settled inPlace rooted spelled own bench
    obtain ⟨summary, bench', rest, same, store'⟩ := ih later (total.add counted) middle
    refine ⟨summary, bench', ?_, ?_, store'.trans store⟩
    · unfold rewriteTarget at ran
      rw [List.foldlM_cons, Course.run_bind, Course.run_bind, ran]
      exact rest
    · rw [same, Summary.add, none, Nat.add_zero]

end Instrument

/-! Side by side. -/

namespace Target

/-- Is the target there? -/
def isThere (disk : Disk) : Target → Bool
  | .archive path => disk.isFile path
  | .directory path => disk.isDirectory path

/-- Targets that several workers can rewrite in place at once: those that are there are separate. -/
structure SideBySide (disk : Disk) (targets : List Target) : Prop where
  rooted : disk.Rooted
  spelled : disk.Spelled
  distinct : targets.Nodup
  archives : ∀ path, .archive path ∈ targets → disk.isFile path = true
  separate : (targets.filter (isThere disk)).Pairwise (Separate none disk)

private theorem ready_of_isThere (spelled : disk.Spelled) (there : target.isThere disk = true) :
    target.Ready disk := by
  cases target with
  | archive path => exact .archive there
  | directory path =>
    obtain ⟨top, listing, resolved, -⟩ := Disk.resolve_of_isDirectory there
    refine .directory (fun _ => (Disk.aim_of_resolve resolved).symm ▸ resolved)
      fun below file name member => ?_
    obtain ⟨-, -, content, held⟩ := ClassTree.mem_filesBelow_iff.mp file
    exact spelled _ _ held name (List.mem_append_right _ member)

/-- A directory that is found now was there at the start. -/
theorem isThere_of_resolve {shared : Disk} {path : Path} {top : Place} (keeps : shared.Keeps disk)
    (resolved : shared.resolve path = .ok top) (directory : shared.kind? top = some .directory) :
    isThere disk (.directory path) = true :=
  Disk.isDirectory_of_resolve (Disk.resolve_keep keeps resolved directory)
    (keeps.directory top directory)

/-- In place, all directories are there. -/
theorem kind?_of_ways (rooted : disk.Rooted) (spelled : disk.Spelled)
    (there : target.isThere disk = true) {place : Place} (way : place ∈ target.ways none disk) :
    disk.kind? place = some .directory := by
  cases target with
  | archive path => cases way
  | directory path =>
    obtain ⟨below, file, way⟩ := List.mem_flatMap.mp way
    obtain ⟨top, listing, resolved, -⟩ := Disk.resolve_of_isDirectory there
    have aim := Disk.aim_of_resolve resolved
    exact (ClassTree.fileOf_of_mem spelled resolved (aim ▸ file)).above rooted place way

namespace SideBySide
variable {targets : List Target} {parts : Target → Disk} {shared : Disk}
  (side : SideBySide disk targets)
include side

private theorem fair (blocked : Prop) :
    (realm none disk (targets.filter (isThere disk))).Fair blocked :=
  fair_realm side.separate fun _ _ _ member _ _ way =>
    .inl (kind?_of_ways side.rooted side.spelled (List.mem_filter.mp member).2 way)

/-- No directory is made. -/
theorem keeps_back (holds : (realm none disk (targets.filter (isThere disk))).Shared parts shared) :
    shared.Keeps disk where
  workPlace := holds.workPlace.symm
  directory place found := by
    obtain ⟨other, found⟩ := (holds.directory place).mp found
    refine ((holds.each other).made place found).elim id fun ⟨member, way⟩ => ?_
    exact kind?_of_ways side.rooted side.spelled (List.mem_filter.mp member).2 way

private theorem hosted (member : target ∈ targets) :
    target.Hosted (realm none disk (targets.filter (isThere disk))) none := by
  by_cases there : target.isThere disk = true
  · exact hosted_of_ready side.rooted side.separate (List.mem_filter.mpr ⟨member, there⟩)
      (ready_of_isThere side.spelled there)
  · cases target with
    | archive path => exact absurd (side.archives path member) there
    | directory path =>
      refine .nothing fun parts shared holds _ resolved => ?_
      by_contra some
      exact there (isThere_of_resolve (side.keeps_back holds) resolved
        (ClassTree.kind?_of_filesBelow some))

/-- What is settled on its own disk is settled on the shared one. -/
theorem settled [Archive.Library]
    (holds : (realm none disk (targets.filter (isThere disk))).Shared parts shared)
    (member : target ∈ targets) (settled : target.Settled rewriter keep (parts target)) :
    target.Settled rewriter keep shared := by
  have agree (there : target.isThere disk = true) :
      Delta.Agree (target.Reads disk) (parts target) shared :=
    ⟨(holds.keeps target).workPlace, fun place reads content =>
      holds.file_iff (visible_of_reads side.separate (List.mem_filter.mpr ⟨member,
        there⟩) reads) content⟩
  have known := (holds.each target).keeps
  cases target with
  | archive path =>
    obtain ⟨room, place, content, resolved, held, fine⟩ := settled
    have lands := Disk.lands_of_resolve (side.rooted.keep known) resolved held
    have aim := Disk.aim_of_resolve resolved
    rw [Disk.aim_keep known.workPlace] at aim
    have held' := ((agree (side.archives path member)).files place aim.symm content).mpr held
    exact ⟨room, place, content, (lands.keep (holds.keeps _)).resolve held', held', fine⟩
  | directory path =>
    intro top resolved below file content held offered
    have directory := ClassTree.kind?_of_filesBelow (List.ne_nil_of_mem file)
    have back := side.keeps_back holds
    have there := isThere_of_resolve back resolved directory
    have before := Disk.resolve_keep back resolved directory
    have aim := Disk.aim_of_resolve before
    have same := agree there
    change Delta.Agree (ClassTree.Reached (disk.aim path)) (parts (.directory path)) shared at same
    rw [show disk.aim path = top from aim] at same
    obtain ⟨inside, kept, -⟩ := ClassTree.mem_filesBelow_iff.mp file
    rw [ClassTree.filesBelow_congr same] at file
    exact settled top
      (Disk.resolve_keep known before (back.directory top directory)) below file content
      ((same.files _ ⟨below, inside, kept, rfl⟩ content).mp held) offered

end SideBySide
end Target

/-- Disks with the same directories and the same files, whatever is in the files, come together to
one. -/
theorem Realm.alike_of_shared {ι : Type} [Nonempty ι] {realm : Realm ι} {parts : ι → Disk}
    {shared : Disk} (holds : realm.Shared parts shared)
    (each : ∀ who, realm.origin.Alike (parts who)) : realm.origin.Alike shared where
  workPlace := holds.workPlace
  directory place := by
    rw [holds.directory]
    exact ⟨fun ⟨who, found⟩ => ((each who).directory place).mp found,
      fun found => ⟨Classical.arbitrary ι, ((each _).directory place).mpr found⟩⟩
  file place := by
    by_cases someone : ∃ who, realm.area who place
    · obtain ⟨who, own⟩ := someone
      rw [← (each who).file place]
      exact exists_congr (holds.inside who place own)
    · exact exists_congr (holds.outside place fun who own => someone ⟨who, own⟩)

/-- A shared disk is put together in one way only. -/
theorem Realm.Shared.unique {ι : Type} {realm : Realm ι} {parts : ι → Disk} {shared shared' : Disk}
    (one : realm.Shared parts shared) (other : realm.Shared parts shared') : shared = shared' := by
  have files (place : Place) (content : Bytes) :
      shared.kind? place = some (.file content) ↔ shared'.kind? place = some (.file content) := by
    by_cases someone : ∃ who, realm.area who place
    · obtain ⟨who, own⟩ := someone
      rw [one.inside who place own, other.inside who place own]
    · have nobody (who : ι) : ¬ realm.area who place := fun own => someone ⟨who, own⟩
      rw [one.outside place nobody, other.outside place nobody]
  have directories (place : Place) :
      shared.kind? place = some .directory ↔ shared'.kind? place = some .directory := by
    rw [one.directory, other.directory]
  refine Disk.eq_of_kinds (one.workPlace.trans other.workPlace.symm) fun place => ?_
  refine Option.ext fun kind => ?_
  cases kind with
  | file content => exact files place content
  | directory => exact directories place

namespace Instrument
variable {options : Options} {targets : List Target} {machine : Machine} {shop shop' : Workshop σ}

/-- What a crew whose targets lie side by side comes to, if no target can fail by itself. -/
theorem served_of_side_by_side [Archive.Library] (side : Target.SideBySide shop.disk targets)
    (inPlace : options.outputDirectory = none) {blocked : Prop}
    (fails : ∀ target ∈ targets, ∀ store, (course options target).CanFail rewriter shop.bench.memory
      shop.disk store → blocked) {results : List (Except Failure (Store × Summary))}
    (finished : ((Crew.ofTargets options (crewSize machine options.jobs targets.length)
      targets).finish rewriter machine.turns).run shop = (results, shop')) :
    (blocked ∧ ∃ failure, results.mapM id = .error failure) ∨
    ∃ (answers : List (Store × Summary)) (parts : Target → Disk), results.mapM id = .ok answers ∧
      (Target.realm none shop.disk
        (targets.filter (Target.isThere shop.disk))).Shared parts shop'.disk ∧
      (∀ target ∉ targets, parts target = shop.disk) ∧
      (∀ target ∈ targets, ∃ before summary after,
      (course options target).Privately rewriter shop.bench.memory
        shop.disk before summary (parts target) after) ∧
      ∀ answer ∈ answers, ∃ share summaries, answer.2 = total summaries ∧
        Served options rewriter shop.bench.memory shop.disk parts share summaries answer.1 ∧
        share ⊆ targets := by
  have positive := crewSize_pos machine options.jobs targets.length
  have hosted : ∀ target ∈ targets, target.Hosted
      (Target.realm none shop.disk (targets.filter (Target.isThere shop.disk)))
        options.outputDirectory := by
    rw [inPlace]
    exact fun target member => side.hosted member
  have never (front : List Target) (target : Target) (parts : Target → Disk)
      (summaries : List Summary) (store : Store)
      (part : (front ++ [target]).Sublist targets)
      (_ : Served options rewriter shop.bench.memory shop.disk parts front summaries store) :=
    fails target (part.subset (List.mem_append_right _ (List.mem_singleton_self _))) store
  rcases finish_of_hosted (side.fair blocked) side.distinct hosted never positive
    machine.turns rfl finished with
    stopped | ⟨answers, parts, answered, length, holds, rest, each⟩
  · exact .inl stopped
  · refine .inr ⟨answers, parts, answered, holds, rest, fun target member => ?_,
      fun answer member => ?_⟩
    · obtain ⟨number, numbered, mine⟩ :=
        List.mem_flatMap.mp ((perm_shares positive targets).mem_iff.mpr member)
      have inside : number < answers.length := length.symm ▸ List.mem_range.mp numbered
      obtain ⟨summaries, -, served⟩ := each number _ _ (List.getElem?_eq_getElem inside)
      exact served.each target mine
    · obtain ⟨number, found⟩ := List.mem_iff_getElem?.mp member
      obtain ⟨summaries, counted, served⟩ := each number answer.1 answer.2 found
      exact ⟨_, summaries, counted, served, (share_sublist _ number targets).subset⟩

/-- One worker takes up all targets, or they lie side by side. -/
def Orderly (machine : Machine) (options : Options) (targets : List Target) (disk : Disk) : Prop :=
  crewSize machine options.jobs targets.length = 1 ∨ Target.SideBySide disk targets

/-- When all targets were rewritten, all of them are settled. -/
theorem settled_of_rewriteAll [Archive.Library] [Archive.LawfulLibrary] (steady : rewriter.Steady)
    (apart : sites.Apart) (inPlace : options.outputDirectory = none) (rooted : shop.disk.Rooted)
    (spelled : shop.disk.Spelled) (on : ∀ target ∈ targets, target.On sites shop.disk)
    (orderly : Orderly machine options targets shop.disk) {store : Store} {summary : Summary}
    (succeeded : (rewriteAll machine options rewriter targets).run.run shop =
      (.ok (store, summary), shop')) :
    shop.disk.Alike shop'.disk ∧
      ∀ target ∈ targets, target.Settled rewriter options.keepDirectoryEntries shop'.disk := by
  rcases orderly with alone | side
  · rw [run_rewriteAll_alone alone] at succeeded
    split at succeeded
    · cases succeeded
    · rename_i after ran
      cases succeeded
      obtain ⟨advance, settled⟩ := settled_of_courseOfAll steady apart inPlace rooted spelled on
        [] nofun (.refl _) nofun ran
      exact ⟨advance.alike, settled⟩
  · cases finished :
      ((Crew.ofTargets options (crewSize machine options.jobs targets.length)
        targets).finish rewriter
        machine.turns).run shop with
    | mk results after =>
      rw [run_rewriteAll finished] at succeeded
      have any : ∀ target ∈ targets, ∀ store,
          (course options target).CanFail rewriter shop.bench.memory shop.disk store → True :=
          fun _ _ _ _ => trivial
      rcases served_of_side_by_side side inPlace any finished with
        ⟨-, failure, answered⟩ | ⟨answers, parts, answered, holds, rest, each, -⟩
      · rw [answered] at succeeded
        cases succeeded
      · obtain rfl : after = shop' := by
          rw [answered] at succeeded
          simp only at succeeded
          split at succeeded
          · cases succeeded
          · exact congrArg Prod.snd succeeded
        have private_ (target : Target) (member : target ∈ targets) :
            Advance (rewriter.varying shop.bench.memory) options.keepDirectoryEntries sites
              shop.disk (parts target) ∧
              target.Settled (rewriter.varying shop.bench.memory)
                options.keepDirectoryEntries (parts target) := by
          obtain ⟨before, counted, later, memories, ran⟩ := each target member
          have start : (Workshop.mk shop.disk (Bench.mk before (memories ++ []))).disk.Rooted :=
            rooted
          exact advance_of_rewriteTarget (steady.varying _) apart inPlace start spelled
            (on target member) (ran [])
        constructor
        · refine Realm.alike_of_shared holds fun target => ?_
          by_cases member : target ∈ targets
          · exact (private_ target member).1.alike
          · rw [rest target member]
            exact .refl _
        · intro target member
          have settled := side.settled holds member (private_ target member).2
          exact settled.mono fun name content => Rewriter.leavesAlone_varying_iff.mp

/-- Targets that are settled leave a worker nothing to do, whatever the rewriter remembers. -/
theorem privately_of_settled [Archive.Library] (inPlace : options.outputDirectory = none)
    (rooted : disk.Rooted) (spelled : disk.Spelled)
    (settled : target.Settled rewriter options.keepDirectoryEntries disk) (fallback : σ) :
    (∀ store, ¬ (course options target).CanFail rewriter fallback disk store) ∧
    ∀ before summary disk' after, (course options target).Privately rewriter fallback disk before
      summary disk' after →
      disk' = disk ∧ after = before ∧ summary.transformed = 0 := by
  have quiet : target.Settled (rewriter.varying fallback) options.keepDirectoryEntries disk :=
    settled.mono fun name content => Rewriter.leavesAlone_varying_iff.mpr
  constructor
  · rintro store ⟨memories, failure, shop', failed⟩
    obtain ⟨summary, bench', ran, -⟩ :=
      run_rewriteTarget_of_settled inPlace rooted spelled quiet ⟨store, memories⟩
    cases failed.symm.trans ran
  · rintro before summary disk' after ⟨memories, ran⟩
    obtain ⟨summary', bench', ran', none, store⟩ :=
      run_rewriteTarget_of_settled inPlace rooted spelled quiet ⟨before, memories ++ []⟩
    cases (ran []).symm.trans ran'
    exact ⟨rfl, store, none⟩

/-- Nothing was transformed, and nothing was staged, where no target had anything to do. -/
theorem Served.idle [Archive.Library] {parts : Target → Disk} {summaries : List Summary}
    {store : Store} {fallback : σ}
    (idle : ∀ target ∈ targets, ∀ before summary after, (course options target).Privately rewriter
      fallback disk before summary (parts target) after → after = before ∧ summary.transformed = 0)
    (served : Served options rewriter fallback disk parts targets summaries store) :
    store = .empty ∧ ∀ summary ∈ summaries, summary.transformed = 0 := by
  induction served with
  | none => exact ⟨rfl, nofun⟩
  | next before ran ih =>
    obtain ⟨early, last⟩ := List.forall_mem_append.mp idle
    obtain ⟨empty, none⟩ := ih early
    obtain ⟨same, zero⟩ := last _ (List.mem_singleton_self _) _ _ _ ran
    exact ⟨same.trans empty, List.forall_mem_append.mpr ⟨none, List.forall_mem_singleton.mpr zero⟩⟩

private theorem transformed_total {summaries : List Summary}
    (none : ∀ summary ∈ summaries, summary.transformed = 0) :
    (total summaries).transformed = 0 := by
  rw [total_eq]
  exact List.sum_eq_zero fun count member => by
    obtain ⟨summary, held, rfl⟩ := List.mem_map.mp member
    exact none summary held

/-- A crew that comes upon settled targets only leaves the disk as it is, and has no records. -/
theorem run_rewriteAll_of_settled [Archive.Library] (inPlace : options.outputDirectory = none)
    (rooted : disk.Rooted) (spelled : disk.Spelled)
    (settled : ∀ target ∈ targets, target.Settled rewriter options.keepDirectoryEntries disk)
    (orderly : Orderly machine options targets disk) (bench : Bench σ) :
    ∃ summary bench', (rewriteAll machine options rewriter targets).run.run ⟨disk, bench⟩ =
      (.ok (.empty, summary), ⟨disk, bench'⟩) ∧ summary.transformed = 0 := by
  rcases orderly with alone | side
  · obtain ⟨summary, bench', ran, none, store⟩ :=
      run_courseOfAll_of_settled inPlace rooted spelled settled {} ⟨.empty, bench.memory⟩
    refine ⟨summary, bench', ?_, none⟩
    rw [run_rewriteAll_alone alone]
    unfold courseOfAll
    rw [ran]
    exact congrArg (fun store => (Except.ok (store, summary), Workshop.mk disk bench')) store
  · cases finished :
      ((Crew.ofTargets options (crewSize machine options.jobs targets.length)
        targets).finish rewriter
        machine.turns).run ⟨disk, bench⟩ with
    | mk results after =>
      have idle (target : Target) (member : target ∈ targets) :=
        privately_of_settled inPlace rooted spelled (settled target member) bench.memory
      rcases served_of_side_by_side side inPlace (fun target member store =>
        (idle target member).1 store) finished with
        ⟨never, -⟩ | ⟨answers, parts, answered, holds, rest, each, served⟩
      · exact never.elim
      · have same (target : Target) : parts target = disk := by
          by_cases member : target ∈ targets
          · obtain ⟨before, summary, after, ran⟩ := each target member
            exact ((idle target member).2 _ _ _ _ ran).1
          · exact rest target member
        obtain rfl : parts = fun _ => disk := funext same
        obtain rfl : disk = after.disk := (Realm.Shared.start _).unique holds
        have quiet (answer : Store × Summary) (member : answer ∈ answers) :
            answer.1 = .empty ∧ answer.2.transformed = 0 := by
          obtain ⟨share, summaries, counted, served, part⟩ := served answer member
          have own := served.idle fun target mine _ _ _ ran =>
            ((idle target (part mine)).2 _ _ _ _ ran).2
          exact ⟨own.1, counted ▸ transformed_total own.2⟩
        have empty : Store.fold (answers.map Prod.fst) = .ok .empty :=
          Store.fold_of_empty (List.forall_mem_map.mpr fun answer member => (quiet answer member).1)
        refine ⟨total (answers.map Prod.snd), after.bench, ?_,
          transformed_total (List.forall_mem_map.mpr fun answer member => (quiet answer member).2)⟩
        rw [run_rewriteAll finished, answered]
        simp only [empty]

end Instrument
end ClassCoverage
