import ClassCoverage.Proofs.Deeds
import ClassCoverage.Proofs.RebuildRun
import ClassCoverage.Proofs.RewriteOutcome
import ClassCoverage.Proofs.TreePaths

/-! What the rewriting of an archive comes to. The archive is the only file that is read and the
only one that is written. -/
namespace ClassCoverage.Archive

namespace Built

def add (entry : Entry) (count : Summary → Summary) (built : Built) : Built :=
  ⟨built.entries ++ [entry], count built.summary⟩

def carryOver (entry : Entry) (built : Built) : Built :=
  built.add entry.carriedOver fun summary => { summary with copied := summary.copied + 1 }

end Built

def doClass [Library] (plan : Plan) (built : Built) (entry : Entry)
    (stored : Bytes) : Doing Built :=
  if Entry.isReadable entry.head then
    match Entry.content entry.head stored with
    | .error _ => failure
    | .ok content => do
      let built :=
        { built with summary := { built.summary with classes := built.summary.classes + 1 } }
      let rewritten ← Doing.offer plan entry.name content
      if rewritten.transformed then
        return built.add (Entry.withContent entry.head rewritten.bytes) fun summary =>
          { summary with transformed := summary.transformed + 1 }
      else return built.carryOver entry
  else failure

def doEntry [Library] (plan : Plan) (options : Options) (built : Built)
    (entry : Entry) : Doing Built :=
  match entry.stored with
  | none => failure
  | some stored =>
    if entry.isDirectory then
      if options.keepDirectoryEntries then return built.carryOver entry
      else return { built with
        summary := { built.summary with directoriesSkipped := built.summary.directoriesSkipped +
          1 } }
    else if ClassName.isClassFile entry.name then doClass plan built entry stored
    else return built.carryOver entry

/-- What becomes of the archive at a path, on a disk that was like this at the start. -/
def doArchive [Library] (plan : Plan) (options : Options) (disk : Disk)
    (path : Path) : Doing Summary :=
  if hasRoom path then do
    let content ← Doing.contentAt disk (disk.aim path)
    match Library.read? content with
    | none => failure
    | some entries =>
      let built ← entries.foldlM (doEntry plan options) {}
      if Library.fits built.entries then
        Doing.put [] (disk.aim path) (Library.write built.entries)
        return built.summary
      else failure
  else failure

variable {σ : Type} {plan : Plan} {rewriter : Rewriter σ} {options : Options} {path : Path}

/-- How building ends. It fails only where something cannot be rewritten or two records clash. -/
inductive BuildEnds : Except Failure Unit × Rebuild σ → Option (Built × Deed) → Prop where
  | done {build : Rebuild σ} {deed : Deed} (store : Store.empty.insertAll deed.records =
    .ok build.bench.store)
      (same : deed.delta = {}) :
      BuildEnds (.ok (), build) (some (⟨build.entries, build.summary⟩, deed))
  | failed {failure : Failure} {build : Rebuild σ} {outcome? : Option (Built × Deed)}
      (never : ∀ built deed, outcome? = some (built, deed) →
        ¬ Store.AllCompatible (deed.records.map Store.single)) : BuildEnds
          (.error failure, build) outcome?

theorem BuildEnds.refused {failure : Failure} {build : Rebuild σ} :
    BuildEnds (.error failure, build) none :=
  .failed fun _ _ made => absurd made.symm (Option.some_ne_none _)

private theorem buildEnds_rebuildClass [Library] (follows : rewriter.Follows plan)
    {build : Rebuild σ} {deed : Deed}
    (store : Store.empty.insertAll deed.records = .ok build.bench.store) (same : deed.delta = {})
    (entry : Entry) (stored : Bytes) :
    BuildEnds ((builds rewriter (rebuildClass path entry stored)).run.run build)
      ((doClass plan ⟨build.entries, build.summary⟩ entry stored).run deed) := by
  unfold rebuildClass doClass
  cases readable : Entry.isReadable entry.head with
  | false => exact .refused
  | true =>
    simp only [Bool.not_true, Bool.false_eq_true, ↓reduceIte]
    cases expanded : Entry.content entry.head stored with
    | error fault => exact .refused
    | ok content =>
      simp only
      rw [run_builds_bind, run_modify]
      simp only
      rw [run_builds_bind, run_offer, StateT.run_bind]
      simp only
      cases planned : plan entry.name content with
      | none =>
        obtain ⟨failure, bench, refused⟩ := follows.refuses planned build.bench
        rw [refused, Doing.run_offer_of_none planned]
        exact .refused
      | some outcome =>
        obtain ⟨answer, records⟩ := outcome
        have whole : Store.empty.insertAll (deed.records ++ records) =
            build.bench.store.insertAll records := by
          rw [Store.insertAll_append, store]
          rfl
        rw [Doing.run_offer_of_some planned]
        simp only [Option.bind_eq_bind, Option.bind_some]
        cases inserted : build.bench.store.insertAll records with
        | ok sum =>
          obtain ⟨memory, answered⟩ := follows.answers planned build.bench inserted
          rw [answered]
          have joined := whole.trans inserted
          cases new : answer.transformed with
          | true =>
            simp only [new, ↓reduceIte, run_add]
            exact .done joined same
          | false =>
            simp only [new, Bool.false_eq_true, ↓reduceIte, carryOver, run_add]
            exact .done joined same
        | error conflict =>
          obtain ⟨failure, bench, refused⟩ := follows.conflicts planned build.bench inserted
          rw [refused]
          apply BuildEnds.failed
          intro built more made compatible
          have reached : more.records = deed.records ++ records := by
            cases new : answer.transformed <;> simp only [new] at made <;> cases made <;> rfl
          have accepted :=
            Store.insertAll_eq_ok_iff.mpr ⟨Store.allCompatible_empty_iff.mpr compatible, rfl⟩
          rw [reached, whole, inserted] at accepted
          cases accepted

private theorem buildEnds_rebuildEntry [Library] (follows : rewriter.Follows plan)
    {build : Rebuild σ} {deed : Deed}
    (store : Store.empty.insertAll deed.records = .ok build.bench.store) (same : deed.delta = {})
    (entry : Entry) :
    BuildEnds ((builds rewriter (rebuildEntry path options entry)).run.run build)
      ((doEntry plan options ⟨build.entries, build.summary⟩ entry).run deed) := by
  unfold rebuildEntry doEntry
  cases found : entry.stored with
  | none => exact .refused
  | some stored =>
    simp only
    split
    · split
      · exact .done store same
      · exact .done store same
    · split
      · exact buildEnds_rebuildClass follows store same entry stored
      · exact .done store same

section
variable {related : Deed → Deed → Prop} [Std.Refl related] [IsTrans Deed related]

private theorem always_doClass [Library]
    (offers : ∀ name content, (Doing.offer plan name content).Always related) (built : Built)
    (entry : Entry) (stored : Bytes) : (doClass plan built entry stored).Always related := by
  unfold doClass
  split
  · split
    · exact .failure
    · apply (offers entry.name _).bind
      intro rewritten
      split
      · exact .pure _
      · exact .pure _
  · exact .failure

theorem always_doEntry [Library]
    (offers : ∀ name content, (Doing.offer plan name content).Always related) (built : Built)
    (entry : Entry) : (doEntry plan options built entry).Always related := by
  unfold doEntry
  split
  · exact .failure
  · split
    · split
      · exact .pure _
      · exact .pure _
    · split
      · exact always_doClass offers built entry _
      · exact .pure _

end

private theorem buildEnds_forM [Library] (follows : rewriter.Follows plan) {build : Rebuild σ}
    {deed : Deed} (store : Store.empty.insertAll deed.records = .ok build.bench.store)
    (same : deed.delta = {}) (entries : List Entry) :
    BuildEnds ((builds rewriter (entries.forM (rebuildEntry path options))).run.run build)
      ((entries.foldlM (doEntry plan options) ⟨build.entries, build.summary⟩).run deed) := by
  induction entries generalizing build deed with
  | nil => exact .done store same
  | cons entry entries ih =>
    rw [List.forM, List.foldlM_cons, run_builds_bind, StateT.run_bind]
    have first : BuildEnds ((builds rewriter (rebuildEntry path options entry)).run.run build) _ :=
      buildEnds_rebuildEntry follows store same entry
    generalize (builds rewriter (rebuildEntry path options entry)).run.run build = outcome at first
    generalize (doEntry plan options ⟨build.entries, build.summary⟩ entry).run
      deed = outcome? at first
    cases first with
    | done store' same' => exact ih store' same'
    | failed never =>
      apply BuildEnds.failed
      intro built more both compatible
      cases outcome? with
      | none => cases both
      | some middle =>
        obtain ⟨built', deed'⟩ := middle
        have grows : (entries.foldlM (doEntry plan options) built').Grows :=
          .foldlM (fun entry _ built => always_doEntry (Doing.grows_offer plan) built entry) built'
        have within := grows deed' built more both
        exact never built' deed' rfl (compatible.sublist (within.records.map Store.single).sublist)

theorem run_doArchive [Library] {disk : Disk} {content : Bytes} {entries : List Entry}
    (room : hasRoom path = true) (file : disk.kind? (disk.aim path) = some (.file content))
    (readable : Library.read? content = some entries) :
    (doArchive plan options disk path).run {} =
      match (entries.foldlM (doEntry plan options) {}).run {} with
      | some (built, deed) =>
        if Library.fits built.entries then
          some (built.summary, { deed with
            delta := deed.delta.andThen
              (.single [] (disk.aim path) (Library.write built.entries)) })
        else none
      | none => none := by
  unfold doArchive
  rw [if_pos room, StateT.run_bind, Doing.run_contentAt, file]
  simp only [Delta.kind?_empty, readable, Option.bind_eq_bind, Option.bind_some]
  rw [StateT.run_bind]
  cases (entries.foldlM (doEntry plan options) {}).run {} with
  | none => rfl
  | some outcome =>
    simp only [Option.bind_eq_bind, Option.bind_some]
    split
    · rfl
    · rfl

theorem run_doArchive_of_noRoom [Library] (full : hasRoom path = false) (disk : Disk)
    (deed : Deed) :
    (doArchive plan options disk path).run deed = none := by
  unfold doArchive
  rw [full]
  rfl

theorem run_doArchive_of_unreadable [Library] {disk : Disk} {content : Bytes}
    (file : disk.kind? (disk.aim path) = some (.file content))
    (unreadable : Library.read? content = none) :
    (doArchive plan options disk path).run {} = none := by
  unfold doArchive
  split
  case isFalse => rfl
  rw [StateT.run_bind, Doing.run_contentAt, file]
  simp only [Delta.kind?_empty, unreadable, Option.bind_eq_bind, Option.bind_some]
  rfl

theorem buildEnds_rebuild [Library] (follows : rewriter.Follows plan) (memory : σ)
    (entries : List Entry) :
    BuildEnds (rebuildBy path rewriter options entries ⟨.empty, memory⟩)
      ((entries.foldlM (doEntry plan options) {}).run {}) :=
  buildEnds_forM follows rfl rfl entries

/-- An archive that was replaced is what its deed says. -/
theorem done_of_replaced [Library] {origin shop' : Workshop σ} {summary : Summary} {place : Place}
    {content : Bytes} {entries : List Entry} {build : Rebuild σ} (follows : rewriter.Follows plan)
    (room : hasRoom path = true)
    (replaced : Replaced path rewriter options origin summary shop' place content entries build) :
    ∃ deed, (doArchive plan options origin.disk path).run {} = some (summary, deed) ∧
      deed.Done origin shop' := by
  have held := replaced.file
  obtain rfl : origin.disk.aim path = place := Disk.aim_of_resolve (replaced.lands.resolve held)
  have rebuilt :
      BuildEnds (rebuildBy path rewriter options entries ⟨.empty, origin.bench.memory⟩) _ :=
    buildEnds_rebuild follows origin.bench.memory entries
  rw [replaced.rebuilt] at rebuilt
  rw [run_doArchive room held replaced.readable]
  generalize (entries.foldlM (doEntry plan options) {}).run {} = outcome? at rebuilt
  cases rebuilt with
  | @done _ deed store same =>
    simp only [replaced.fits, ↓reduceIte, ← replaced.summary]
    have single :
        (Delta.single [] (origin.disk.aim path) (Library.write build.entries)).Open origin.disk :=
      Delta.open_single_iff.mpr ⟨nofun, replaced.updated.free, nofun⟩
    have made : (Delta.single [] (origin.disk.aim path) (Library.write build.entries)).Made
        origin.disk shop'.disk :=
      Delta.made_of_placed ⟨replaced.updated.workPlace, by simpa using replaced.updated.kinds⟩
    refine ⟨_, rfl, ?_, ?_, Store.merge_insertAll_iff.mp ⟨_, store, replaced.merged⟩⟩
    · rw [same]
      exact Delta.open_andThen (.empty _) (.refl _) single
    · rw [same]
      exact (Delta.Made.refl _).andThen made single

/-- An archive whose deed is possible can be built anew. -/
theorem renewable_of_possible [Library] {origin : Workshop σ} {content : Bytes} {summary : Summary}
    {deed : Deed} (follows : rewriter.Follows plan)
    (held : origin.disk.kind? (origin.disk.aim path) = some (.file content))
    (made : (doArchive plan options origin.disk path).run {} = some (summary, deed))
    (room : hasRoom path = true) (possible : deed.Possible origin) :
    Renewable path rewriter options origin.bench content := by
  cases readable : Library.read? content with
  | none =>
    rw [run_doArchive_of_unreadable held readable] at made
    cases made
  | some entries =>
    have rebuilt :
        BuildEnds (rebuildBy path rewriter options entries ⟨.empty, origin.bench.memory⟩) _ :=
      buildEnds_rebuild follows origin.bench.memory entries
    rw [run_doArchive room held readable] at made
    generalize (entries.foldlM (doEntry plan options) {}).run {} = outcome? at made rebuilt
    generalize answered : rebuildBy path rewriter options entries ⟨.empty,
      origin.bench.memory⟩ = answer at rebuilt
    cases rebuilt with
    | @done build own store same =>
      simp only at made
      split at made
      · rename_i fitting
        cases made
        obtain ⟨sum, built, merged⟩ := Store.merge_insertAll_iff.mpr
          (Store.insertAll_eq_ok_iff.mpr ⟨possible.compatible, rfl⟩)
        rw [store] at built
        cases built
        exact ⟨entries, build, _, ⟨readable, answered, fitting⟩, merged⟩
      · cases made
    | failed never =>
      cases outcome? with
      | none => cases made
      | some outcome =>
        obtain ⟨built, own⟩ := outcome
        simp only at made
        split at made
        · cases made
          have compatible : Store.AllCompatible (own.records.map Store.single) :=
            (List.pairwise_cons.mp possible.compatible).2
          exact absurd compatible (never built own rfl)
        · cases made

/-- The rewriting of an archive ends as its deed says. -/
theorem ends_course [Library] {origin : Workshop σ} (rooted : origin.disk.Rooted)
    (follows : rewriter.Follows plan) (file : origin.disk.isFile path = true) :
    ClassCoverage.Ends rewriter (course path options) origin origin
      ((doArchive plan options origin.disk path).run {}) := by
  cases room : hasRoom path with
  | false =>
    obtain ⟨fault, ran⟩ := run_rewrite_of_noRoom file room rewriter options
    rw [run_doArchive_of_noRoom room]
    exact .failed ran nofun
  | true =>
    have ends := rewrite_ends rooted file rewriter options {}
    generalize ran : (rewrite path rewriter options).run.run origin = ending at ends
    cases ends with
    | replaced replaced =>
      obtain ⟨deed, made, done⟩ := done_of_replaced follows room replaced
      rw [made]
      exact .done ran done
    | preserved preserved why =>
      obtain ⟨never, -⟩ := why.resolve_left System.not_refuses_of_default
      have aim := Disk.aim_of_resolve (preserved.lands.resolve preserved.file)
      apply ClassCoverage.Ends.failed ran
      intro value deed made possible
      exact never (renewable_of_possible follows (aim ▸ preserved.file) made room possible)
    | unmoved _ why =>
      cases room.symm.trans (why.resolve_left System.not_refuses_of_default)
    | copyLeft _ refused => exact (System.not_refuses_of_default refused).elim

private theorem always_doArchive [Library] {related : Deed → Deed → Prop} [Std.Refl related]
    [IsTrans Deed related] {disk : Disk}
    (offers : ∀ name content, (Doing.offer plan name content).Always related)
    (puts : ∀ content, (Doing.put [] (disk.aim path) content).Always related) :
    (doArchive plan options disk path).Always related := by
  unfold doArchive
  split
  case isFalse => exact .failure
  refine .bind (.contentAt disk _) fun content => ?_
  split
  · exact .failure
  · refine .bind (.foldlM (fun entry _ built => always_doEntry offers built entry) {}) ?_
    intro built
    split
    · exact .bind (puts _) fun _ => .pure _
    · exact .failure

theorem spreads_doArchive [Library] (plan : Plan) (options : Options) (disk : Disk) (path : Path) :
    (doArchive plan options disk path).Always (Deed.Spreads [disk.aim path]) :=
  always_doArchive (Doing.spreads_offer _ plan) fun content =>
    .put (.put (List.mem_singleton_self _) _ content)

/-- The class in an entry, if there is one. -/
def class? [Library] (entry : Entry) : Option Call :=
  if entry.isClass then
    match entry.stored with
    | some stored => (Entry.content entry.head stored).toOption.map fun content =>
      (entry.name, content)
    | none => none
  else none

theorem class?_of_content [Library] {entry : Entry} {stored content : Bytes}
    (isClass : entry.isClass = true) (found : entry.stored = some stored)
    (expanded : Entry.content entry.head stored = .ok content) :
    class? entry = some (entry.name, content) := by
  unfold class?
  rw [if_pos isClass, found]
  simp only [expanded]
  rfl

theorem class?_of_not_isClass [Library] {entry : Entry} (notClass : entry.isClass = false) :
    class? entry = none := by
  unfold class?
  rw [notClass]
  rfl

/-- The classes in an archive. -/
def classes [Library] (archive : Bytes) :
    List Call := ((Library.read? archive).getD []).filterMap class?

private theorem registers_doClass [Library] (built : Built) {entry : Entry} {stored : Bytes}
    (found : entry.stored = some stored) (isClass : entry.isClass = true) :
    (doClass plan built entry stored).Registers (plan.recordsOf (class? entry).toList) := by
  unfold doClass
  split
  · split
    · exact .failure
    · rename_i content holds
      rw [class?_of_content isClass found holds]
      apply (Doing.Registers.offer plan entry.name content).map
      intro rewritten
      split
      · exact .pure _
      · exact .pure _
  · exact .failure

private theorem registers_doEntry [Library] (built : Built) (entry : Entry) :
    (doEntry plan options built entry).Registers (plan.recordsOf (class? entry).toList) := by
  unfold doEntry
  split
  · exact .failure
  · rename_i stored found
    split
    · rename_i directory
      rw [class?_of_not_isClass (by simp [Entry.isClass, directory])]
      split
      · exact .pure _
      · exact .pure _
    · rename_i file
      split
      · rename_i named
        exact registers_doClass built found (by simp [Entry.isClass, file, named])
      · rename_i unnamed
        rw [class?_of_not_isClass (by simp [Entry.isClass, unnamed])]
        exact .pure _

/-- The records of an archive are those of its classes. -/
theorem records_of_doArchive [Library] {disk : Disk} {content : Bytes} {summary : Summary}
    {deed : Deed} (file : disk.kind? (disk.aim path) = some (.file content))
    (made : (doArchive plan options disk path).run {} = some (summary, deed)) :
    deed.records = plan.recordsOf (classes content) := by
  cases room : hasRoom path with
  | false =>
    rw [run_doArchive_of_noRoom room] at made
    cases made
  | true =>
    cases readable : Library.read? content with
    | none =>
      rw [run_doArchive_of_unreadable file readable] at made
      cases made
    | some entries =>
      have built : (entries.foldlM (doEntry plan options) {}).Registers
          (plan.recordsOf (classes content)) := by
        unfold classes
        rw [readable]
        exact .foldlM (fun entry _ built => registers_doEntry built entry) {}
      rw [run_doArchive room file readable] at made
      split at made
      · rename_i value middle rebuilt
        split at made
        · cases made
          exact built {} value middle rebuilt
        · cases made
      · cases made

end ClassCoverage.Archive
