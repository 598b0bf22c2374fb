import ClassCoverage.Proofs.CollectedTargets
import ClassCoverage.Proofs.CrewPacts
import ClassCoverage.Proofs.MetadataSave
import ClassCoverage.Proofs.RemadeArchives
import ClassCoverage.Proofs.StoreSums
import ClassCoverage.Proofs.TargetGrowth

/-! Records of instrumented classes. They are saved once all targets are done, so a run that
succeeds has saved all of them, and one that fails part of the way none. -/
namespace ClassCoverage.Instrument
variable {σ : Type} {options : Options} {rewriter : Rewriter σ} {machine : Machine}
  {shop shop' : Workshop σ}

/-! The targets of one worker. -/

/-- A target that a worker has rewritten: the moments at which it did so, and its store before and
after them. -/
structure Outcome (σ : Type) where
  target : Target
  worker : Nat
  moments : List (Moment σ)
  before : Store
  summary : Summary
  after : Store

/-- The course of the target was performed by its worker, at moments that follow one another among
those of the worker. -/
structure Outcome.Ran [Archive.Library] (options : Options) (rewriter : Rewriter σ)
    (history : List (Moment σ)) (outcome : Outcome σ) : Prop where
  performed : (course options outcome.target).Performed rewriter outcome.before outcome.moments
    (.ok outcome.summary) outcome.after
  part : outcome.moments <:+: history.filter fun moment => moment.worker = outcome.worker

/-- The course of an archive is that of its rewriting. -/
theorem performed_archive [Archive.Library] {path : Path} {store store' : Store}
    {moments : List (Moment σ)} {summary : Summary}
    (performed : (course options (.archive path)).Performed rewriter store moments
      (.ok summary) store') :
    ∃ done, (Archive.course path { keepDirectoryEntries := options.keepDirectoryEntries }).Performed
      rewriter store
      moments (.ok done) store' ∧ summary.transformed = done.transformed := by
  obtain ⟨front, _, done, _, rfl, first, ended⟩ := performed.of_bind
  obtain ⟨rfl, rfl, rfl⟩ := ended.of_pure
  exact ⟨done, by rwa [List.append_nil], rfl⟩

/-- A worker loses no record by a target. -/
theorem includes_of_course [Archive.Library] [Archive.LawfulLibrary]
    (registers : rewriter.Registers) (fallback : σ) {target : Target} {store store' : Store}
    {moments : List (Moment σ)} {summary : Summary}
    (performed : (course options target).Performed rewriter store moments (.ok summary) store') :
    store'.Includes store := by
  cases target with
  | archive path =>
    obtain ⟨done, performed, -⟩ := performed_archive performed
    obtain ⟨_, _, _, _, _, _, _, -, remade⟩ :=
      Archive.remade_of_performed registers fallback performed
    obtain ⟨staged, -, merged⟩ := remade.registered
    exact (Store.includes_of_merge merged).1
  | directory path =>
    exact ((ClassTree.grows_course path _).bind fun _ => .pure _).includes registers performed

/-- What a worker has done for its targets, one after another. -/
theorem outcomes_of_performed [Archive.Library] [Archive.LawfulLibrary]
    (registers : rewriter.Registers) (fallback : σ)
    (number : Nat) {targets : List Target} {total summary : Summary} {store store' : Store}
      {moments : List (Moment σ)}
    (performed : (targets.foldlM (fun (summary : Summary) target =>
      return summary.add (← course options target))
      total).Performed rewriter store moments (.ok summary) store') :
    store'.Includes store ∧ ∃ outcomes : List (Outcome σ), outcomes.map Outcome.target = targets ∧
      ∀ outcome ∈ outcomes, outcome.worker = number ∧
        (course options outcome.target).Performed rewriter outcome.before outcome.moments
          (.ok outcome.summary)
          outcome.after ∧
        outcome.moments <:+: moments ∧ store'.Includes outcome.after := by
  induction targets generalizing total store moments with
  | nil =>
    obtain ⟨-, -, rfl⟩ := performed.of_pure
    exact ⟨.refl _, [], rfl, nofun⟩
  | cons target targets ih =>
    rw [List.foldlM_cons] at performed
    obtain ⟨front, back, _, middle, rfl, counted, later⟩ := performed.of_bind
    obtain ⟨front, _, own, _, rfl, first, ended⟩ := counted.of_bind
    obtain ⟨rfl, rfl, rfl⟩ := ended.of_pure
    obtain ⟨kept, outcomes, dealt, each⟩ := ih later
    refine ⟨kept.trans (includes_of_course registers fallback first),
      ⟨target, number, front, store, own, middle⟩ :: outcomes, by rw [List.map_cons, dealt], ?_⟩
    refine List.forall_mem_cons.mpr ⟨⟨rfl, first, ?_, kept⟩, fun outcome member => ?_⟩
    · exact (List.prefix_append front ([] ++ back)).isInfix.trans (by simp)
    · obtain ⟨mine, performed, part, included⟩ := each outcome member
      exact ⟨mine, performed, part.trans (List.suffix_append _ back).isInfix, included⟩

/-! The targets of all workers. -/

/-- Outcomes that were found for each of some workers are outcomes of all their targets. -/
theorem gather {holds : Outcome σ → Prop} {hand : Nat → List Target} {numbers : List Nat}
    (each : ∀ number ∈ numbers, ∃ outcomes : List (Outcome σ), outcomes.map Outcome.target =
      hand number ∧ ∀ outcome ∈ outcomes, holds outcome) :
    ∃ outcomes : List (Outcome σ), outcomes.map Outcome.target = numbers.flatMap hand ∧
      ∀ outcome ∈ outcomes, holds outcome := by
  induction numbers with
  | nil => exact ⟨[], rfl, nofun⟩
  | cons number numbers ih =>
    obtain ⟨first, later⟩ := List.forall_mem_cons.mp each
    obtain ⟨own, dealt, fine⟩ := first
    obtain ⟨outcomes, others, rest⟩ := ih later
    exact ⟨own ++ outcomes, by rw [List.map_append, dealt, others, List.flatMap_cons],
      List.forall_mem_append.mpr ⟨fine, rest⟩⟩

/-- All targets were rewritten, and the records of their classes were put together. -/
theorem rewriteAll_ok [Archive.Library] [Archive.LawfulLibrary] (registers : rewriter.Registers)
    (rooted : shop.disk.Rooted) {targets : List Target} {store : Store} {summary : Summary}
    (succeeded : (rewriteAll machine options rewriter targets).run.run shop =
      (.ok (store, summary), shop')) :
    shop.disk.Keeps shop'.disk ∧ ∃ history crew memory, ∃ outcomes : List (Outcome σ),
      Advances rewriter
        (Crew.ofTargets options (crewSize machine options.jobs targets.length) targets) shop.disk
        shop.bench.memory history crew shop'.disk memory ∧
      (outcomes.map Outcome.target).Perm targets ∧
      ∀ outcome ∈ outcomes, outcome.Ran options rewriter history ∧
        store.Includes outcome.after := by
  cases finished : ((Crew.ofTargets options (crewSize machine options.jobs targets.length)
    targets).finish rewriter
      machine.turns).run shop with
  | mk results after =>
    rw [run_rewriteAll finished] at succeeded
    obtain ⟨history, crew, advances, ended⟩ := advances_of_finish rewriter machine.turns
      (Crew.ofTargets options (crewSize machine options.jobs targets.length) targets) shop
    rw [finished] at advances ended
    rcases ended_cases ended with ⟨_, _, _, _, _, member⟩ | ⟨answers, rfl, length, own⟩
    · obtain ⟨failure, failed⟩ := mapM_id_of_error member
      rw [failed] at succeeded
      cases succeeded
    · rw [mapM_id_of_ok] at succeeded
      cases folded : Store.fold (answers.map Prod.fst) with
      | error conflict =>
        simp only [folded] at succeeded
        cases succeeded
      | ok sum =>
        simp only [folded] at succeeded
        cases succeeded
        have each (number : Nat)
            (member : number ∈ List.range (crewSize machine options.jobs targets.length)) :
            ∃ outcomes : List (Outcome σ), outcomes.map Outcome.target =
                Crew.share (crewSize machine options.jobs targets.length) number targets ∧
              ∀ outcome ∈ outcomes,
                outcome.Ran options rewriter history ∧ store.Includes outcome.after := by
          have inside : number < answers.length := by
            rw [length, advances.length]
            simpa [Crew.ofTargets] using member
          have found :
              (Crew.ofTargets options (crewSize machine options.jobs targets.length)
                targets)[number]? = some
              { course := courseOfAll options (Crew.share
                (crewSize machine options.jobs targets.length) number
                targets) } := by
            simp [Crew.ofTargets, List.mem_range.mp member]
          have performed :=
            advances.performed found (own number _ _ (List.getElem?_eq_getElem inside)) rfl
          obtain ⟨-, outcomes, dealt, mine⟩ :=
            outcomes_of_performed registers shop.bench.memory number performed
          refine ⟨outcomes, dealt, fun outcome member => ?_⟩
          obtain ⟨rfl, performed, part, kept⟩ := mine outcome member
          have whole :=
            Store.includes_of_fold folded _ (List.mem_map_of_mem (List.getElem_mem inside))
          exact ⟨⟨performed, part⟩, whole.trans kept⟩
        obtain ⟨outcomes, dealt, fine⟩ := gather each
        refine ⟨keeps_of_advances advances rooted (grows_ofTargets options _ targets),
          history, crew, _, outcomes,
          advances, ?_, fine⟩
        rw [dealt]
        exact perm_shares (crewSize_pos ..) targets

/-! Whole runs. -/

/-- An archive that was replaced, with the records of the classes that were transformed in it. All
of them are in the store that was saved. -/
structure Recorded [Archive.Library] (options : Options) (rewriter : Rewriter σ) (saved : Store)
    (path : Path) (outcome : Outcome σ) (done : Archive.Summary) (copy : Path)
    (stages : Archive.Stages σ) (old new : List Entry) (calls : List Archive.Call)
    (answers : List Rewritten) (records : List Record) : Prop where
  order : stages.all.Sublist outcome.moments
  remade : Archive.Remade rewriter { keepDirectoryEntries := options.keepDirectoryEntries }
    path copy outcome.before
    outcome.after done stages old new calls answers records
  covered : ∀ record ∈ records, saved.Covers record

private theorem recorded_of_ran [Archive.Library] [Archive.LawfulLibrary]
    (registers : rewriter.Registers) (fallback : σ) {history : List (Moment σ)}
    {outcome : Outcome σ} (ran : outcome.Ran options rewriter history) {path : Path}
    (target : outcome.target = .archive path) {saved : Store}
    (includes : saved.Includes outcome.after) :
    ∃ done copy stages old new calls answers records,
      Recorded options rewriter saved path outcome done copy stages old new calls
        answers records := by
  have performed := ran.performed
  rw [target] at performed
  obtain ⟨done, performed, -⟩ := performed_archive performed
  obtain ⟨copy, stages, old, new, calls, answers, records, order, remade⟩ :=
    Archive.remade_of_performed registers fallback performed
  refine ⟨done, copy, stages, old, new, calls, answers, records, order, remade, fun record member =>
    ?_⟩
  obtain ⟨staged, registered, merged⟩ := remade.registered
  exact .of_includes (includes.trans (Store.includes_of_merge merged).2)
    (registered.covers record member)

/-- What a run has done for its targets: each of them was rewritten once, by one of the workers,
whose steps come one after another in the history of the run, and the metadata file has the records
of all classes that were transformed in archives. -/
structure RecordsSaved [Archive.Library] (machine : Machine) (options : Options)
    (rewriter : Rewriter σ) (shop shop' : Workshop σ) (targets : List Target)
    (history : List (Moment σ)) (outcomes : List (Outcome σ)) :
    Prop where
  collected : (collectTargets options).run.run shop.disk = (.ok targets, shop.disk)
  once : (outcomes.map Outcome.target).Perm targets
  ran : ∀ outcome ∈ outcomes, outcome.Ran options rewriter history
  saved : targets ≠ [] → ∃ crew disk memory store saved,
    Advances rewriter
      (Crew.ofTargets options (crewSize machine options.jobs targets.length) targets) shop.disk
      shop.bench.memory history crew disk memory ∧
    (Metadata.persist store options.metadataFile options.merge).run.run disk =
      (.ok saved, shop'.disk) ∧
    shop'.disk.read options.metadataFile = .ok (Metadata.encode saved) ∧
    (Metadata.Fits saved → (Metadata.load options.metadataFile).run.run shop'.disk =
      (.ok (some saved), shop'.disk)) ∧
    ∀ outcome ∈ outcomes, ∀ path, outcome.target = .archive path →
      ∃ done copy stages old new calls answers records,
        Recorded options rewriter saved path outcome done copy stages old new calls answers records

/-- A run that succeeds leaves no class that was transformed in an archive without its record. -/
theorem run_success_keeps_records [Archive.Library] [Archive.LawfulLibrary]
    (registers : rewriter.Registers) (rooted : shop.disk.Rooted) {summary : Summary}
    (succeeded : (run machine options rewriter).run.run shop = (.ok summary, shop')) :
    ∃ targets history outcomes, RecordsSaved machine options rewriter shop shop' targets
      history outcomes := by
  unfold run at succeeded
  obtain ⟨targets, begun, collected, succeeded⟩ := Steps.run_bind_ok succeeded
  obtain ⟨found, same⟩ := Work.onDisk_ok collected
  have untouched : begun.disk = shop.disk := by
    have state := Target.state_of_collect options.archives options.archiveSets
      options.classDirectories shop.disk
    unfold collectTargets at found
    rwa [found] at state
  obtain rfl : begun = shop := by
    obtain ⟨disk, bench⟩ := begun
    cases untouched
    cases same
    rfl
  cases targets with
  | nil => exact ⟨[], [], [], found, .nil, nofun, fun some => absurd rfl some⟩
  | cons target targets =>
    simp only [List.isEmpty_cons, Bool.false_eq_true, ↓reduceIte] at succeeded
    obtain ⟨⟨store, total⟩, after, rewritten, succeeded⟩ := Steps.run_bind_ok succeeded
    obtain ⟨saved, finished, persisting, answered⟩ := Steps.run_bind_ok succeeded
    cases answered
    obtain ⟨keeps, history, crew, memory, outcomes, advances, dealt, each⟩ :=
      rewriteAll_ok registers rooted rewritten
    obtain ⟨persisted, -⟩ := Work.onDisk_ok persisting
    obtain ⟨held, includes⟩ := Metadata.includes_of_persist (rooted.keep keeps) persisted
    refine ⟨target :: targets, history, outcomes, found, dealt, fun outcome member =>
      (each outcome member).1,
      fun _ => ⟨crew, after.disk, memory, store, saved, advances, persisted, held, fun fits =>
        Metadata.load_of_read fits.measured held, fun outcome member path own => ?_⟩⟩
    obtain ⟨ran, kept⟩ := each outcome member
    exact recorded_of_ran registers begun.bench.memory ran own (includes.trans kept)

attribute [local instance] Archive.plainLibrary Archive.plainLibrary_lawful

/-! Two archives, with a class each, and the metadata of an earlier run. -/

private def earlier : Store := .single { name := "old.C", lines := [{ line := 1, hits := 5 }] }

private def bothFiles : Workshop Nat where
  disk := { root := .file "a.jar" Archive.smallArchive (.file "b.jar" (Archive.write [
              { head := { name := "lib/B.class", size := 1, checksum := Crc32.checksum [9] }
                stored := some [9] }])
              (.file "m" (Metadata.encode earlier) .empty))
            ordered := ⟨by decide, by decide, by decide, trivial⟩
            workPlace := [] }
  bench := ⟨.empty, 0⟩

private def bothArchives :
    Options := { archives := [⟨"a.jar"⟩, ⟨"b.jar"⟩], metadataFile := ⟨"m"⟩, jobs := 2 }

/-- Each archive has a worker of its own, and their first steps are taken by turns. The new records
join the old one. -/
theorem run_success_of_two_archives :
    (Marking.rewriter {}).Registers ∧ bothFiles.disk.Rooted ∧
    ∃ shop', (run { turns := [0, 1, 1, 0, 0, 1, 0, 1] } bothArchives
      (Marking.rewriter {})).run.run bothFiles =
        (.ok { archives := 2, classes := 2, transformed := 2 }, shop') ∧
      (shop'.disk.read ⟨"m"⟩).toOption.bind (fun content =>
      (Metadata.decode content).toOption.map fun store =>
        store.records.map Record.name) = some ["lib.A", "lib.B", "old.C"] ∧
      ∃ targets history outcomes, RecordsSaved { turns := [0, 1, 1, 0, 0, 1, 0, 1] } bothArchives
        (Marking.rewriter {})
        bothFiles shop' targets history outcomes := by
  have registers := Marking.registers {}
  have rooted : bothFiles.disk.Rooted := ⟨rfl, by simp [bothFiles]⟩
  cases ran : (run { turns := [0, 1, 1, 0, 0, 1, 0,
    1] } bothArchives (Marking.rewriter {})).run.run bothFiles with
  | mk result shop' =>
    have known : result = .ok { archives := 2, classes := 2, transformed := 2 } ∧
        (shop'.disk.read ⟨"m"⟩).toOption.bind (fun content =>
        (Metadata.decode content).toOption.map fun store =>
          store.records.map Record.name) = some ["lib.A", "lib.B", "old.C"] := by
      rw [show result = _ from congrArg Prod.fst ran.symm,
        show shop' = _ from congrArg Prod.snd ran.symm]
      decide +kernel
    obtain ⟨rfl, names⟩ := known
    exact ⟨registers, rooted, shop', rfl, names, run_success_keeps_records registers rooted ran⟩

/-- An archive, and a file that is none. -/
def twoFiles : Workshop Nat where
  disk := { root := .file "a.jar" Archive.smallArchive (.file "b.jar" [0] .empty)
            ordered := ⟨by decide, by decide, trivial⟩
            workPlace := [] }
  bench := ⟨.empty, 0⟩

/-- The archives of a run, of which the second is none. -/
def twoArchives : Options := { archives := [⟨"a.jar"⟩, ⟨"b.jar"⟩] }

/-- The second archive stops the run. The first one is replaced by then, just as if it had been
rewritten alone, and the record of its class is in no file. -/
theorem run_failure_loses_records :
    (Marking.rewriter {}).Registers ∧ twoFiles.disk.Rooted ∧ twoArchives.merge = true ∧
    ∃ done alone failure shop',
      (Archive.rewrite ⟨"a.jar"⟩ (Marking.rewriter {}) {}).run.run twoFiles = (.ok done, alone) ∧
      done.transformed = 1 ∧
      (run {} twoArchives (Marking.rewriter {})).run.run twoFiles = (.error failure, shop') ∧
      alone.bench.store.records.map Record.name = ["lib.A"] ∧
      shop'.disk.read ⟨"a.jar"⟩ = alone.disk.read ⟨"a.jar"⟩ ∧
      shop'.disk.root.names = [".b.jar.000000.orig", "a.jar"] ∧
      shop'.disk.exists? twoArchives.metadataFile = false := by
  have rewritten : ((Archive.rewrite ⟨"a.jar"⟩ (Marking.rewriter {}) {}).run.run twoFiles).1 =
      .ok { classes := 1, transformed := 1, directoriesSkipped := 1 } := by decide +kernel
  have failed : ((run {} twoArchives (Marking.rewriter {})).run.run twoFiles).1 =
      .error (.archive ⟨"b.jar"⟩ (some ⟨"/./.b.jar.000000.orig"⟩) "failed to read archive: <zip>"
        (some "<zip>")) := by decide +kernel
  have left : ((Archive.rewrite ⟨"a.jar"⟩ (Marking.rewriter {}) {}).run.run
      twoFiles).2.bench.store.records.map
      Record.name = ["lib.A"] := by decide +kernel
  have replaced :
      ((run {} twoArchives (Marking.rewriter {})).run.run twoFiles).2.disk.read ⟨"a.jar"⟩ =
      ((Archive.rewrite ⟨"a.jar"⟩ (Marking.rewriter {}) {}).run.run
        twoFiles).2.disk.read ⟨"a.jar"⟩ := by
    decide +kernel
  have names : ((run {} twoArchives (Marking.rewriter {})).run.run twoFiles).2.disk.root.names =
      [".b.jar.000000.orig", "a.jar"] := by decide +kernel
  have missing : ((run {} twoArchives (Marking.rewriter {})).run.run twoFiles).2.disk.exists?
      twoArchives.metadataFile = false := by decide +kernel
  cases alone : (Archive.rewrite ⟨"a.jar"⟩ (Marking.rewriter {}) {}).run.run twoFiles with
  | mk result other => cases ran : (run {} twoArchives (Marking.rewriter {})).run.run twoFiles with
    | mk result' shop' =>
      rw [alone] at rewritten left replaced
      rw [ran] at failed replaced names missing
      cases rewritten
      cases failed
      exact ⟨Marking.registers {}, ⟨rfl, by simp [twoFiles]⟩, rfl, _, other, _,
        shop', rfl, rfl, rfl, left,
        replaced, names, missing⟩

end ClassCoverage.Instrument
