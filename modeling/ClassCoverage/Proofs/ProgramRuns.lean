import ClassCoverage.Proofs.Deeds
import ClassCoverage.Proofs.RegisteredRecords
import ClassCoverage.Rewriter.Program

/-! Runs of rewriter programs. A class is transformed exactly when a record of it is registered; a
program that skips a class, or that fails in any way, leaves the store as it was. -/
namespace ClassCoverage

/-- The program was started, took as much of the class as it wanted, and ended. -/
def Launch.Ran (launch : Launch) (run : ProgramRun) : Prop :=
  launch = .finished run ∧ ∀ fault, run.intake ≠ .broken fault

theorem Launch.Ran.unique {launch : Launch} {run run' : ProgramRun} (ran : launch.Ran run)
    (ran' : launch.Ran run') : run = run' := by
  have same := ran.1.symm.trans ran'.1
  cases same
  rfl

/-- All records known of a class have the layout of this one. -/
def Store.Fits (store : Store) (record : Record) : Prop :=
  ∀ known, store.get? record.name = some known → known.SameLayout record

namespace Program

variable {σ : Type} {launch : Launch} {entry : String} {store : Store}

/-- What a record file with this content tells of the class of an entry. A class that is given no
name has the name of its entry. -/
def Tells (entry : String) (content : Bytes) (record : Record) : Prop :=
  content.all RecordFile.isBlank = false ∧ ∃ written, RecordFile.read content = .ok written ∧
    (written.name ≠ "" ∧ record = written ∨
      written.name = "" ∧ ∃ name, ClassName.ofEntry? entry = some name ∧
      record = { written with name := name })

/-- The program ended well and left a record that the store can take. -/
structure Reports (launch : Launch) (entry : String) (store : Store) (run : ProgramRun)
    (record : Record) : Prop where
  ran : launch.Ran run
  status : run.status = .exited 0
  tells : ∃ content, run.record = .ok content ∧ Tells entry content record
  fits : store.Fits record

structure Skips (launch : Launch) (run : ProgramRun) : Prop where
  ran : launch.Ran run
  status : run.status = .exited 3

theorem Tells.unique {content : Bytes} {record record' : Record}
    (tells : Tells entry content record) (tells' : Tells entry content record') :
    record = record' := by
  obtain ⟨-, written, read, named⟩ := tells
  obtain ⟨-, written', read', named'⟩ := tells'
  rw [read, Except.ok.injEq] at read'
  subst read'
  rcases named with ⟨own, rfl⟩ | ⟨blank, name, derived, rfl⟩
  · rcases named' with ⟨-, same⟩ | ⟨blank, -⟩
    · exact same.symm
    · exact absurd blank own
  · rcases named' with ⟨own, -⟩ | ⟨-, name', derived', rfl⟩
    · exact absurd blank own
    · rw [derived, Option.some.injEq] at derived'
      rw [derived']

theorem Reports.unique {run run' : ProgramRun} {record record' : Record}
    (reports : Reports launch entry store run record)
    (reports' : Reports launch entry store run' record') :
    run = run' ∧ record = record' := by
  obtain rfl := reports.ran.unique reports'.ran
  obtain ⟨content, written, tells⟩ := reports.tells
  obtain ⟨content', written', tells'⟩ := reports'.tells
  rw [written, Except.ok.injEq] at written'
  subst written'
  exact ⟨rfl, tells.unique tells'⟩

theorem Reports.not_skips {run run' : ProgramRun} {record : Record}
    (reports : Reports launch entry store run record) :
    ¬ Skips launch run' := by
  intro skips
  obtain rfl := reports.ran.unique skips.ran
  have same := reports.status.symm.trans skips.status
  cases same

/-- A name that is derived from an entry is not empty. -/
theorem ofEntry?_ne_empty {name : String}
    (derived : ClassName.ofEntry? entry = some name) : name ≠ "" := by
  unfold ClassName.ofEntry? at derived
  obtain ⟨stem, -, derived⟩ := Option.bind_eq_some_iff.mp derived
  simp only at derived
  split at derived
  · cases derived
  · rename_i filled
    cases derived
    simpa using filled

theorem Tells.named {content : Bytes} {record : Record} (tells : Tells entry content record) :
    record.name ≠ "" := by
  obtain ⟨-, written, -, ⟨own, rfl⟩ | ⟨-, name, derived, rfl⟩⟩ := tells
  · exact own
  · exact ofEntry?_ne_empty derived

theorem Reports.merged {run : ProgramRun} {record : Record}
    (reports : Reports launch entry store run record) :
    store.merge (.single record) = .ok (store.absorb record) := by
  have accepted := (Store.conflict?_eq_none_iff store record).mpr reports.fits
  rw [← Store.insert_eq_merge, Store.insert, accepted]

private theorem run_recordOf (entry : String) (content : Bytes) (bench : Bench σ) :
    (∃ record, Tells entry content record ∧ (recordOf entry content).run.run bench =
      (.ok record, bench)) ∨
      (∀ record, ¬ Tells entry content record) ∧
        ∃ failure, (recordOf entry content).run.run bench = (.error failure, bench) := by
  unfold recordOf
  cases blank : content.all RecordFile.isBlank with
  | true => exact .inr ⟨fun record tells => by simp [Tells, blank] at tells, _, rfl⟩
  | false =>
    cases read : RecordFile.read content with
    | error fault => exact .inr ⟨fun record tells => by simp [Tells, read] at tells, _, rfl⟩
    | ok written =>
      by_cases named : written.name = ""
      · have empty : written.name.isEmpty = true := by simp [named]
        cases derived : ClassName.ofEntry? entry with
        | none =>
          refine .inr ⟨fun record tells => by simp [Tells, read, named, derived] at tells,
            .rewriter entry "cannot derive class name from entry", ?_⟩
          simp only [Bool.false_eq_true, ↓reduceIte, empty, Rewriting.classNameOf, derived]
          rfl
        | some name =>
          refine .inl ⟨{ written with name := name },
            ⟨blank, written, read, .inr ⟨named, name, derived, rfl⟩⟩, ?_⟩
          simp only [Bool.false_eq_true, ↓reduceIte, empty, Rewriting.classNameOf, derived]
          rfl
      · refine .inl ⟨written, ⟨blank, written, read, .inl ⟨named, rfl⟩⟩, ?_⟩
        simp only [Bool.false_eq_true, ↓reduceIte, String.isEmpty_iff, named]
        rfl

private theorem run_conclude_of_success {recordFile : Path} {bytes : Bytes} {run : ProgramRun}
    {bench : Bench σ} (status : run.status = .exited 0) :
    (∃ content record, run.record = .ok content ∧ Tells entry content record ∧
    bench.store.Fits record ∧
      (conclude recordFile entry bytes run).run.run bench =
        (.ok ⟨run.output, true⟩, { bench with store := bench.store.absorb record })) ∨
      (∀ content record, run.record = .ok content → Tells entry content record →
      ¬ bench.store.Fits record) ∧
        ∃ failure, (conclude recordFile entry bytes run).run.run bench =
          (.error failure, bench) := by
  unfold conclude
  rw [if_pos status]
  cases written : run.record with
  | error fault =>
    refine .inr ⟨?_, _, rfl⟩
    rintro content record ⟨⟩
  | ok content =>
    simp only [Except.ok.injEq]
    rw [Steps.run_bind]
    rcases run_recordOf entry content bench with ⟨record, tells,
      answered⟩ | ⟨nothing, failure, failed⟩
    · rw [answered]
      simp only
      rw [Steps.run_bind, Rewriting.run_register, Store.insert]
      cases conflicts : bench.store.conflict? record with
      | none =>
        exact .inl ⟨content, record, rfl, tells,
          (Store.conflict?_eq_none_iff bench.store record).mp conflicts, rfl⟩
      | some conflict =>
        refine .inr ⟨fun content' record' same tells' fits => ?_, _, rfl⟩
        subst same
        rw [tells'.unique tells] at fits
        have accepted := (Store.conflict?_eq_none_iff bench.store record).mpr fits
        rw [conflicts] at accepted
        cases accepted
    · rw [failed]
      exact .inr ⟨fun content' record same tells =>
        absurd tells (same ▸ nothing record), failure, rfl⟩

private theorem run_rewriter_of_ran {launcher : Launcher} {program : Program} {bytes : Bytes}
    {run : ProgramRun} (ran : (launcher.launch program entry bytes).Ran run) (bench : Bench σ) :
    (program.rewriter launcher entry bytes).run.run bench =
      (conclude launcher.recordFile entry bytes run).run.run bench := by
  unfold rewriter
  rw [ran.1]
  cases taken : run.intake with
  | broken fault => exact absurd taken (ran.2 fault)
  | whole => simp only [taken]
  | closedEarly => simp only [taken]

private theorem run_rewriter_of_not_ran {launcher : Launcher} {program : Program} {bytes : Bytes}
    (idle : ∀ run, ¬ (launcher.launch program entry bytes).Ran run) (bench : Bench σ) :
    ∃ failure, (program.rewriter launcher entry bytes).run.run bench = (.error failure, bench) := by
  unfold rewriter
  cases launched : launcher.launch program entry bytes with
  | unprepared fault => exact ⟨_, rfl⟩
  | notFound => exact ⟨_, rfl⟩
  | refused fault => exact ⟨_, rfl⟩
  | lost fault => exact ⟨_, rfl⟩
  | finished run =>
    cases taken : run.intake with
    | broken fault => exact ⟨disturbed entry fault, by simp only [taken]; rfl⟩
    | whole => exact absurd ⟨launched, by simp [taken]⟩ (idle run)
    | closedEarly => exact absurd ⟨launched, by simp [taken]⟩ (idle run)

/-- There are three ways for a call to end, and in only one of them the store changes. -/
theorem rewriter_cases (launcher : Launcher) (program : Program) (entry : String) (bytes : Bytes)
    (bench : Bench σ) :
    (∃ run record, Reports (launcher.launch program entry bytes) entry bench.store run record ∧
      (program.rewriter launcher entry bytes).run.run bench =
        (.ok ⟨run.output, true⟩, { bench with store := bench.store.absorb record })) ∨
    (∃ run, Skips (launcher.launch program entry bytes) run ∧
      (program.rewriter launcher entry bytes).run.run bench = (.ok ⟨bytes, false⟩, bench)) ∨
    (∀ run record, ¬ Reports (launcher.launch program entry bytes) entry bench.store run record) ∧
      (∀ run, ¬ Skips (launcher.launch program entry bytes) run) ∧
      ∃ failure, (program.rewriter launcher entry bytes).run.run bench =
        (.error failure, bench) := by
  by_cases started : ∃ run, (launcher.launch program entry bytes).Ran run
  · obtain ⟨run, ran⟩ := started
    rw [run_rewriter_of_ran ran]
    by_cases success : run.status = .exited 0
    · have different : ∀ run', ¬ Skips (launcher.launch program entry bytes) run' :=
        fun run' skips => by
        have status := skips.status
        rw [← ran.unique skips.ran, success] at status
        cases status
      rcases run_conclude_of_success success with ⟨content, record, written, tells, fits,
        answered⟩ | ⟨unfit, failed⟩
      · exact .inl ⟨run, record, ⟨ran, success, ⟨content, written, tells⟩, fits⟩, answered⟩
      · refine .inr (.inr ⟨fun run' record reports => ?_, different, failed⟩)
        obtain ⟨content, written, tells⟩ := reports.tells
        rw [← ran.unique reports.ran] at written
        exact unfit content record written tells reports.fits
    · have unreported (run' : ProgramRun) (record : Record) :
          ¬ Reports (launcher.launch program entry bytes) entry bench.store run' record :=
          fun reports =>
        success (ran.unique reports.ran ▸ reports.status)
      unfold conclude
      rw [if_neg success]
      by_cases skipped : run.status = .exited skippedCode
      · rw [if_pos skipped]
        exact .inr (.inl ⟨run, ⟨ran, skipped⟩, rfl⟩)
      · rw [if_neg skipped]
        exact .inr (.inr ⟨unreported, fun run' skips =>
          skipped (ran.unique skips.ran ▸ skips.status), _, rfl⟩)
  · rw [not_exists] at started
    exact .inr (.inr ⟨fun run record reports => started run reports.ran, fun run skips =>
      started run skips.ran,
      run_rewriter_of_not_ran started bench⟩)

/-- A class is transformed exactly when its program exits with 0 and leaves a record for it that
fits the store. Then its bytes are the output of the program, and the store is the old one merged
with this record. After exit code 3 the class and the store are as they were; in all other cases the
call fails, and the store is as it was. -/
theorem rewriter_transforms_iff (launcher : Launcher) (program : Program) (entry : String)
    (bytes : Bytes) (bench : Bench σ) :
    let launch := launcher.launch program entry bytes
    let result := (program.rewriter launcher entry bytes).run.run bench
    ((∃ output bench', result = (.ok ⟨output, true⟩, bench')) ↔
        ∃ run record, Reports launch entry bench.store run record) ∧
      (∀ run record, Reports launch entry bench.store run record → record.name ≠ "" ∧
        ∃ merged, bench.store.merge (.single record) = .ok merged ∧
          result = (.ok ⟨run.output, true⟩, { bench with store := merged })) ∧
      (∀ run, Skips launch run → result = (.ok ⟨bytes, false⟩, bench)) ∧
      ((¬ ∃ run record, Reports launch entry bench.store run record) → (¬ ∃ run, Skips launch run) →
        ∃ failure, result = (.error failure, bench)) := by
  intro launch result
  rcases rewriter_cases launcher program entry bytes bench with
    ⟨run, record, reports, answered⟩ | ⟨run, skips, answered⟩ | ⟨unreported,
      unskipped, failure, failed⟩
  · refine ⟨⟨fun _ => ⟨run, record, reports⟩, fun _ => ⟨_, _, answered⟩⟩,
      fun run' record' reports' => ?_,
      fun run' skips => absurd skips reports.not_skips, fun none _ =>
      absurd ⟨run, record, reports⟩ none⟩
    obtain ⟨rfl, rfl⟩ := reports.unique reports'
    obtain ⟨content, -, tells⟩ := reports.tells
    exact ⟨tells.named, _, reports.merged, answered⟩
  · refine ⟨⟨fun ⟨output, bench', changed⟩ => ?_, fun ⟨_, _, reports⟩ =>
      absurd skips reports.not_skips⟩,
      fun run' record' reports => absurd skips reports.not_skips, fun _ _ => answered,
      fun _ none => absurd ⟨run, skips⟩ none⟩
    cases answered.symm.trans changed
  · refine ⟨⟨fun ⟨output, bench', changed⟩ => ?_, fun ⟨run, record, reports⟩ =>
      absurd reports (unreported run record)⟩,
      fun run record reports => absurd reports (unreported run record), fun run skips =>
      absurd skips (unskipped run),
      fun _ _ => ⟨failure, failed⟩⟩
    cases failed.symm.trans changed

/-! A program that transforms one class without reading it, and skips all others. -/

private def transformed : ProgramRun where
  status := .exited 0
  output := [1, 2]
  errors := Bytes.ofString "warning"
  record := .ok (Bytes.ofString "\x7b\"name\":\"\",\"lines\":[\x7b\"line\":3,\"hits\":2\x7d]\x7d")
  intake := .closedEarly

private def skipped : ProgramRun where
  status := .exited 3
  output := [1, 2]
  errors := []
  record := .error .notFound

private def scripted : Launcher where
  recordFile := ⟨"/tmp/record"⟩
  launch _ entry _ := .finished (if entry = "a/B.class" then transformed else skipped)

private def counted (hits : UInt64) : Store := .single ⟨"a.B", none, [⟨3, hits⟩], []⟩

theorem rewriter_transforms_of_script :
    Reports (.finished transformed) "a/B.class" (counted 1) transformed
        ⟨"a.B", none, [⟨3, 2⟩], []⟩ ∧
      (rewriter scripted ⟨⟨"rw"⟩, []⟩ "a/B.class" [7]).run.run ⟨counted 1, ()⟩ =
        (.ok ⟨[1, 2], true⟩, ⟨counted 3, ()⟩) ∧
      (rewriter scripted ⟨⟨"rw"⟩, []⟩ "a/C.class" [7]).run.run ⟨.empty, ()⟩ =
        (.ok ⟨[7], false⟩, ⟨.empty, ()⟩) := by
  have reports : Reports (.finished transformed) "a/B.class" (counted 1) transformed
      ⟨"a.B", none, [⟨3, 2⟩], []⟩ := by
    refine ⟨⟨rfl, by simp [transformed]⟩, rfl,
      ⟨_, rfl, by decide +kernel, ⟨"", none, [⟨3, 2⟩], []⟩, by decide +kernel,
      .inr ⟨rfl, "a.B", by decide +kernel, rfl⟩⟩, ?_⟩
    rintro known ⟨⟩
    exact ⟨rfl, rfl⟩
  obtain ⟨-, merged, sum, answered⟩ :=
    (rewriter_transforms_iff scripted ⟨⟨"rw"⟩, []⟩ "a/B.class" [7] ⟨counted 1, ()⟩).2.1
      transformed _ reports
  have added : (counted 1).merge (.single ⟨"a.B", none, [⟨3, 2⟩], []⟩) = .ok (counted 3) := by
    decide +kernel
  cases added.symm.trans sum
  exact ⟨reports, answered,
    (rewriter_transforms_iff scripted ⟨⟨"rw"⟩, []⟩ "a/C.class" [7] ⟨.empty, ()⟩).2.2.1 skipped
    ⟨⟨rfl, by simp [skipped]⟩, rfl⟩⟩

end Program
end ClassCoverage
