import ClassCoverage.CommandLine
import ClassCoverage.Proofs.AggregateRuns
import ClassCoverage.Proofs.PersistRuns

/-! One metadata file for two commands. Unless it is told otherwise, merging writes its sum to the
file that instrumenting keeps its records in. -/
namespace ClassCoverage

namespace Metadata

/-- A store is only persisted where a file may be put, and is all that is new then. -/
theorem placed_of_persist {disk disk' : Disk} (rooted : disk.Rooted) {store saved : Store}
    {path : Path} {merge : Bool}
    (persisted : (persist store path merge).run.run disk = (.ok saved, disk')) :
    ∃ place above, disk.Aims path place above ∧ disk.Open above place ∧
      disk.Placed disk' above place (encode saved) := by
  obtain ⟨old, -, -, done⟩ := save_of_persist persisted
  exact placed_of_save rooted done

end Metadata

namespace CommandLine

/-- Without an output of its own, merging writes where the other commands read. -/
theorem output_mergeOptions {merging : MergeArguments} {arguments : InstrumentArguments}
    {settings : Settings} (own : arguments.metadataFile = none) (argument : merging.output = none)
    (setting : settings.merge.output = none) :
    (mergeOptions merging settings).output =
      (instrumentOptions arguments settings).metadataFile := by
  simp [mergeOptions, instrumentOptions, argument, setting, own]

private theorem runMerge_ok {merging : MergeArguments} {settings : Settings} {disk disk' : Disk}
    {text : String} (run : (runMerge merging settings).run.run disk = (.ok text, disk')) :
    ∃ answer, (Aggregate.run (mergeOptions merging settings).searchPath
      (mergeOptions merging settings).fileName
      (mergeOptions merging settings).output).run.run disk = (.ok answer, disk') := by
  unfold runMerge at run
  obtain ⟨answer, _, first, later⟩ := Steps.run_bind_ok run
  cases answer with
  | nothing =>
    cases later
    exact ⟨_, first⟩
  | merged files classes =>
    cases later
    exact ⟨_, first⟩

end CommandLine

namespace Aggregate

/-- Only a directory is searched. -/
theorem directory_of_run {root output : Path} {fileName : String}
    {disk disk' : Disk} {answer : Aggregate}
    (run : (Aggregate.run root fileName output).run.run disk = (.ok answer, disk')) :
    ∃ top listing, disk.resolve root = .ok top ∧ disk.at? top = some (.directory listing) := by
  apply Disk.resolve_of_isDirectory
  rw [Aggregate.run, Steps.run_bind, Steps.run_get] at run
  cases directory : disk.isDirectory root with
  | true => rfl
  | false =>
    simp only [directory, Bool.false_eq_true, ↓reduceIte] at run
    rw [Steps.run_bind, Steps.run_throw] at run
    cases run

/-- What is left by a run that succeeded. -/
theorem Search.held_of_run {disk disk' : Disk} {root output : Path} {top target : Place}
    {listing : Listing} {above : List Place}
    (search : Search disk root top listing output target above)
      {fileName : String} {answer : Aggregate}
    (run : (Aggregate.run root fileName output).run.run disk = (.ok answer, disk')) :
    (summands listing top fileName target = [] → disk' = disk) ∧
    (summands listing top fileName target ≠ [] →
      (∀ place ∈ summands listing top fileName target, storeAt? disk place ≠ none) ∧
      ∃ sum, Store.fold (storesAt disk (summands listing top fileName target)) = .ok sum ∧
        disk'.read output = .ok (Metadata.encode sum)) := by
  obtain ⟨nothing, refused, merged⟩ := search.run fileName
  constructor
  · intro none
    rw [nothing none] at run
    cases run
    rfl
  · intro some
    have fine : ¬ Refused disk (summands listing top fileName target) := by
      intro bad
      obtain ⟨failure, failed⟩ := refused bad
      rw [failed] at run
      cases run
    obtain ⟨disk'', done, placed⟩ := merged some fine
    rw [done] at run
    cases run
    rw [refused_iff, not_or, not_not] at fine
    have rooted := search.rooted.keep (placed.keeps search.writable)
    have lands :=
      (search.aims.keep placed.workPlace).lands rooted (placed.above_directory search.writable)
    refine ⟨fun place member none => fine.1 ⟨place, member, none⟩, _, ?_, lands.read placed.here⟩
    rw [Store.fold_eq]
    exact Store.foldlM_merge_perm (.refl _) fine.2

end Aggregate

namespace CommandLine

/-- Merging after instrumenting, with one metadata file for both. If no other file of the name is
found, the file stays as it is. Otherwise it holds the sum of the other files: of what was persisted
it still has what that sum has. -/
theorem merge_after_persist {disk disk₁ disk₂ : Disk} (rooted : disk.Rooted)
    (spelled : disk.Spelled) {arguments : InstrumentArguments} {merging : MergeArguments}
    {settings : Settings} (own : arguments.metadataFile = none) (argument : merging.output = none)
    (setting : settings.merge.output = none) {store saved : Store} {text : String}
    (persisted : (Metadata.persist store (instrumentOptions arguments settings).metadataFile
      (instrumentOptions arguments settings).merge).run.run disk = (.ok saved, disk₁))
    (merged : (runMerge merging settings).run.run disk₁ = (.ok text, disk₂)) :
    ∃ (target top : Place) (others : List Place) (held : Store),
      disk₁.resolve (instrumentOptions arguments settings).metadataFile = .ok target ∧
      disk₁.read (instrumentOptions arguments settings).metadataFile = .ok (Metadata.encode saved) ∧
      saved.Includes store ∧
      disk₁.resolve (mergeOptions merging settings).searchPath = .ok top ∧ others.Nodup ∧
      (∀ place, place ∈ others ↔
        Aggregate.IsSummand disk₁ top (mergeOptions merging settings).fileName target place) ∧
      disk₂.read (instrumentOptions arguments settings).metadataFile = .ok (Metadata.encode held) ∧
      (others = [] → held = saved ∧ disk₂ = disk₁) ∧
      (others ≠ [] → (∀ place ∈ others, Aggregate.storeAt? disk₁ place ≠ none) ∧
        Store.fold (Aggregate.storesAt disk₁ others) = .ok held) := by
  obtain ⟨target, above, aims, open_, placed⟩ := Metadata.placed_of_persist rooted persisted
  obtain ⟨answer, run⟩ := runMerge_ok merged
  rw [output_mergeOptions own argument setting] at run
  obtain ⟨top, listing, resolved, found⟩ := Aggregate.directory_of_run run
  have rooted₁ := rooted.keep (placed.keeps open_)
  have aims₁ := aims.keep placed.workPlace
  have lands := aims₁.lands rooted₁ (placed.above_directory open_)
  have search : Aggregate.Search disk₁ _ top listing _ target above := {
    rooted := rooted₁
    spelled := spelled.placed rooted aims placed
    resolved := resolved
    found := found
    aims := aims₁
    writable := placed.open_again open_
    seen := fun _ file => lands.resolve file }
  obtain ⟨alone, summed⟩ := search.held_of_run run
  obtain ⟨kept, includes⟩ := Metadata.includes_of_persist rooted persisted
  have members (place : Place) := @Aggregate.mem_summands_iff disk₁ listing top target
    (mergeOptions merging settings).fileName found place
  by_cases none :
    Aggregate.summands listing top (mergeOptions merging settings).fileName target = []
  · refine ⟨target, top, _, saved, lands.resolve placed.here, kept, includes, resolved,
      Aggregate.nodup_summands found, members, ?_, fun _ => ⟨rfl, alone none⟩, fun some =>
      absurd none some⟩
    rw [alone none]
    exact kept
  · obtain ⟨valid, sum, folded, here⟩ := summed none
    exact ⟨target, top, _, sum, lands.resolve placed.here, kept, includes, resolved,
      Aggregate.nodup_summands found, members, here, fun empty => absurd empty none, fun _ =>
      ⟨valid, folded⟩⟩

/-! A file `m1/coverage.dat` with a record of `B`, and a record of `A` that is persisted before
merging. -/

private def ours : Store := .single ⟨"A", none, [⟨1, 0⟩], []⟩

private def theirs : Store := .single ⟨"B", none, [⟨1, 0⟩], []⟩

private def ownFile : Settings := { general := { metadataFile := some ⟨"coverage.dat"⟩ } }

private def modules :
    Listing := .directory "m1" (.file "coverage.dat" (Metadata.encode theirs) .empty) .empty

private def start :
    Disk := ⟨modules, ⟨by simp [Listing.names], ⟨by simp [Listing.names], trivial⟩, trivial⟩, []⟩

private def between : Disk := ((Metadata.persist ours ⟨"coverage.dat"⟩ true).run.run start).2

private def finish : Disk := ((runMerge {} ownFile).run.run between).2

private theorem persist_start :
    (Metadata.persist ours ⟨"coverage.dat"⟩ true).run.run start = (.ok ours, between) :=
  Prod.ext (by decide +kernel) rfl

private theorem runMerge_between : (runMerge {} ownFile).run.run between =
    (.ok "Merged 1 metadata files (1 classes) into coverage.dat\n", finish) :=
  Prod.ext (by decide +kernel) rfl

private theorem load_finish :
    (Metadata.load ⟨"coverage.dat"⟩).run.run finish = (.ok (some theirs), finish) := by
  have answer : ((Metadata.load ⟨"coverage.dat"⟩).run.run finish).1 = .ok (some theirs) := by
    decide +kernel
  have run := Metadata.load_ok (Prod.ext answer rfl)
  exact Prod.ext answer run.1

private theorem rooted_start : start.Rooted := ⟨rfl, by simp [start]⟩

private theorem spelled_start : start.Spelled := Disk.spelled_of_root (by decide)

theorem merge_after_persist_of_two_files :
    ∃ (disk disk₁ disk₂ : Disk) (store other held : Store) (others : List Place),
      store.records = [⟨"A", none, [⟨1, 0⟩], []⟩] ∧ other.records = [⟨"B", none, [⟨1, 0⟩], []⟩] ∧
      (Metadata.persist store ⟨"coverage.dat"⟩ true).run.run disk = (.ok store, disk₁) ∧
      (runMerge {} ownFile).run.run disk₁ =
        (.ok "Merged 1 metadata files (1 classes) into coverage.dat\n", disk₂) ∧
      others ≠ [] ∧ Store.fold (Aggregate.storesAt disk₁ others) = .ok held ∧
      disk₂.read ⟨"coverage.dat"⟩ = .ok (Metadata.encode held) ∧
      (Metadata.load ⟨"coverage.dat"⟩).run.run disk₂ = (.ok (some other), disk₂) := by
  obtain ⟨_, _, others, held, -, -, -, -, -, -, kept, alone, summed⟩ :=
    @merge_after_persist start between finish rooted_start spelled_start {}
      {} ownFile rfl rfl rfl ours ours _
      persist_start runMerge_between
  have some : others ≠ [] := by
    intro none
    obtain ⟨rfl, same⟩ := alone none
    have loaded :=
      Metadata.load_of_decode kept (show Metadata.decode _ = .ok ours by decide +kernel)
    have apart := load_finish.symm.trans loaded
    exact absurd (congrArg Prod.fst apart) (by decide +kernel)
  exact ⟨start, between, finish, ours, theirs, held, others, rfl, rfl, persist_start,
    runMerge_between, some,
    (summed some).2, kept, load_finish⟩

/-- Of what was persisted, merging can leave nothing. -/
theorem merge_loses_records :
    ¬ ∀ (disk disk₁ disk₂ : Disk) (arguments : InstrumentArguments) (merging : MergeArguments)
      (settings : Settings) (store saved : Store) (text : String), disk.Rooted → disk.Spelled →
      arguments.metadataFile = none → merging.output = none → settings.merge.output = none →
      (Metadata.persist store (instrumentOptions arguments settings).metadataFile
        (instrumentOptions arguments settings).merge).run.run disk = (.ok saved, disk₁) →
      (runMerge merging settings).run.run disk₁ = (.ok text, disk₂) →
      ∀ record ∈ saved.records, ∃ held,
        (Metadata.load (instrumentOptions arguments settings).metadataFile).run.run disk₂ =
          (.ok (some held), disk₂) ∧
        held.Covers record := by
  intro claim
  obtain ⟨held, loaded, kept, found, -⟩ :=
    claim start between finish {} {} ownFile ours ours _ rooted_start
    spelled_start rfl rfl rfl persist_start runMerge_between ⟨"A", none, [⟨1, 0⟩],
    []⟩ (List.mem_singleton_self _)
  rw [show (instrumentOptions {} ownFile).metadataFile = ⟨"coverage.dat"⟩ from rfl,
    load_finish] at loaded
  cases loaded
  cases found

end CommandLine
end ClassCoverage
