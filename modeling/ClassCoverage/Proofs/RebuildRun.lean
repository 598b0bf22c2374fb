import ClassCoverage.Archive.Rewrite
import ClassCoverage.Proofs.CourseRuns

/-! Building archives anew. Each entry is left out, carried over, or offered to the rewriter, and a
whole run is the list of what became of the entries. -/
namespace ClassCoverage

namespace Course
variable {α β σ : Type}

/-- What a course comes to that only asks the rewriter. -/
def answer (rewriter : Rewriter σ) : Course α → Bench σ → Except Failure α × Bench σ
  | done outcome, bench => (outcome, bench)
  | watch next, bench => (next default).answer rewriter bench
  | act _ _ _ next, bench => (next (.ok default)).answer rewriter bench
  | keep change next, bench =>
    (next bench.store).answer rewriter { bench with store := change bench.store }
  | offer name content next, bench =>
    (next ((rewriter name content).run.run bench).1).answer rewriter
      ((rewriter name content).run.run bench).2

private theorem answer_bind (rewriter : Rewriter σ) (course : Course α) (next : α → Course β)
    (bench : Bench σ) :
    (course >>= next).answer rewriter bench =
      match course.answer rewriter bench with
      | (.ok value, bench) => (next value).answer rewriter bench
      | (.error failure, bench) => (.error failure, bench) := by
  change (course.bind next).answer rewriter bench = _
  induction course generalizing bench with
  | done outcome => cases outcome <;> rfl
  | watch rest ih => exact ih default bench
  | act operation path change rest ih => exact ih (.ok default) bench
  | keep change rest ih => exact ih bench.store _
  | offer name content rest ih => exact ih _ _

/-- The course does nothing but ask the rewriter, and does not fail. -/
def Asks : Course α → Prop
  | done (.ok _) => True
  | offer _ _ next => ∀ result, (next result).Asks
  | _ => False

theorem Asks.bind {course : Course α} {next : α → Course β} (first : course.Asks)
    (later : ∀ value, (next value).Asks) : (course >>= next).Asks := by
  change (course.bind next).Asks
  induction course with
  | done outcome =>
    cases outcome with
    | ok value => exact later value
    | error failure => exact first.elim
  | offer name content rest ih => exact fun result => ih result (first result)
  | _ => exact first.elim

/-- What only asks the rewriter leaves the disk as it is. -/
theorem Asks.run {course : Course α} (asks : course.Asks) (rewriter : Rewriter σ) (system : System)
    (shop : Workshop σ) :
    (course.carryOut rewriter system).run.run shop =
        ((course.answer rewriter shop.bench).1,
          { shop with bench := (course.answer rewriter shop.bench).2 }) ∧
      ∃ value, (course.answer rewriter shop.bench).1 = .ok value := by
  induction course generalizing shop with
  | done outcome =>
    cases outcome with
    | ok value => exact ⟨rfl, value, rfl⟩
    | error failure => exact asks.elim
  | offer name content rest ih => exact ih _ (asks _) _
  | _ => exact asks.elim

end Course

namespace Entry

/-- Classes are offered to the rewriter. -/
def isClass (entry : Entry) : Bool := !entry.isDirectory && ClassName.isClassFile entry.name

/-- All entries remain, but for directories that are not kept. -/
def remains (keep : Bool) (entry : Entry) : Bool := keep || !entry.isDirectory

/-- The content that an entry is expanded to. -/
def Holds [Archive.Library] (entry : Entry) (content : Bytes) : Prop :=
  isReadable entry.head = true ∧
    ∃ stored, entry.stored = some stored ∧ Entry.content entry.head stored = .ok content

end Entry

namespace Archive
variable {σ : Type}

/-- A class file with its name, as the rewriter is offered it. -/
abbrev Call := String × Bytes

/-- A new archive as far as it has been built, and the bench of the rewriter. -/
structure Rebuild (σ : Type) where
  bench : Bench σ
  entries : List Entry := []
  summary : Summary := {}

/-- What a step of the building comes to by a rewriter. -/
def builds {α : Type} (rewriter : Rewriter σ) (step : Rebuilding α) :
    ExceptT Failure (StateM (Rebuild σ)) α :=
  .mk fun build =>
    match (step.run.run ⟨build.entries, build.summary⟩).answer rewriter build.bench with
    | (.ok (result, built), bench) => (result, ⟨bench, built.entries, built.summary⟩)
    | (.error failure, bench) => (.error failure, { bench := bench })

theorem run_builds {α : Type} {rewriter : Rewriter σ} (step : Rebuilding α) (build : Rebuild σ)
    {result : Except Failure α} {built : Built}
    (answered : ((step.run.run ⟨build.entries, build.summary⟩).answer rewriter build.bench).1 =
      .ok (result, built)) :
    (builds rewriter step).run.run build = (result,
      ⟨((step.run.run ⟨build.entries, build.summary⟩).answer rewriter build.bench).2, built.entries,
        built.summary⟩) := by
  change (match (step.run.run _).answer rewriter build.bench with
    | (.ok (result, built), bench) => (result, (⟨bench, built.entries, built.summary⟩ : Rebuild σ))
    | (.error failure, bench) => (.error failure, { bench := bench })) = _
  generalize (step.run.run ⟨build.entries, build.summary⟩).answer rewriter
    build.bench = answer at answered
  obtain ⟨outcome, bench⟩ := answer
  cases answered
  rfl

theorem run_builds_bind {α β : Type} (step : Rebuilding α) (next : α → Rebuilding β)
    (rewriter : Rewriter σ) (build : Rebuild σ) :
    (builds rewriter (step >>= next)).run.run build =
      match (builds rewriter step).run.run build with
      | (.ok value, build) => (builds rewriter (next value)).run.run build
      | (.error failure, build) => (.error failure, build) := by
  have split (built : Built) : (step >>= next).run.run built = step.run.run built >>= fun answer =>
      match answer with
      | (.ok value, built) => (next value).run.run built
      | (.error failure, built) => pure (.error failure, built) := by
    change (step.run.run built >>= _) = _
    congr 1
    funext answer
    rcases answer with ⟨_ | _, _⟩ <;> rfl
  change (match ((step >>= next).run.run _).answer rewriter build.bench with
    | (.ok (result, built), bench) => (result, (⟨bench, built.entries, built.summary⟩ : Rebuild σ))
    | (.error failure, bench) => (.error failure, { bench := bench })) =
    match (match (step.run.run _).answer rewriter build.bench with
    | (.ok (result, built), bench) => (result, (⟨bench, built.entries, built.summary⟩ : Rebuild σ))
    | (.error failure, bench) => (.error failure, { bench := bench })) with
    | (.ok value, build) => (builds rewriter (next value)).run.run build
    | (.error failure, build) => (.error failure, build)
  rw [split, Course.answer_bind]
  rcases (step.run.run ⟨build.entries, build.summary⟩).answer rewriter build.bench with
    ⟨_ | ⟨_ | _, _⟩, _⟩ <;> rfl

/-- What can become of one entry. -/
inductive EntryStep [Library] (rewriter : Rewriter σ) (keep : Bool) (entry : Entry)
    (build : Rebuild σ) :
    Rebuild σ → Prop where
  | dropped (directory : entry.isDirectory = true) (off : keep = false) :
      EntryStep rewriter keep entry build { build with
        summary := { build.summary with directoriesSkipped := build.summary.directoriesSkipped +
          1 } }
  | carried (found : entry.stored.isSome = true) (notClass : entry.isClass = false)
      (kept : entry.isDirectory = true → keep = true) :
      EntryStep rewriter keep entry build { build with
        entries := build.entries ++ [entry.carriedOver]
        summary := { build.summary with copied := build.summary.copied + 1 } }
  | untouched {content : Bytes} {answer : Rewritten} {bench : Bench σ}
    (isClass : entry.isClass = true)
      (holds : entry.Holds content)
      (answered : (rewriter entry.name content).run.run build.bench = (.ok answer, bench))
      (same : answer.transformed = false) :
      EntryStep rewriter keep entry build {
        bench := bench
        entries := build.entries ++ [entry.carriedOver]
        summary := { build.summary with
          classes := build.summary.classes + 1
          copied := build.summary.copied + 1 } }
  | transformed {content : Bytes} {answer : Rewritten} {bench : Bench σ}
      (isClass : entry.isClass = true) (holds : entry.Holds content)
      (answered : (rewriter entry.name content).run.run build.bench = (.ok answer, bench))
      (new : answer.transformed = true) :
      EntryStep rewriter keep entry build {
        bench := bench
        entries := build.entries ++ [Entry.withContent entry.head answer.bytes]
        summary := { build.summary with
          classes := build.summary.classes + 1
          transformed := build.summary.transformed + 1 } }

theorem run_add (entry : Entry) (count : Summary → Summary) (rewriter : Rewriter σ)
    (build : Rebuild σ) :
    (builds rewriter (add entry count)).run.run build =
      (.ok (), { build with
        entries := build.entries ++ [entry]
        summary := count build.summary }) := rfl

theorem run_modify (change : Built → Built) (rewriter : Rewriter σ) (build : Rebuild σ) :
    (builds rewriter (modify change : Rebuilding Unit)).run.run build =
      (.ok (), {
        bench := build.bench
        entries := (change ⟨build.entries, build.summary⟩).entries
        summary := (change ⟨build.entries, build.summary⟩).summary }) :=
  rfl

private theorem run_fail (failure : Failure) (rewriter : Rewriter σ) (build : Rebuild σ) :
    (builds rewriter (throw failure : Rebuilding Unit)).run.run build = (.error failure, build) :=
  rfl

theorem run_offer (name : String) (content : Bytes) (rewriter : Rewriter σ) (build : Rebuild σ) :
    (builds rewriter (offer name content)).run.run build =
      (((rewriter name content).run.run build.bench).1,
        { build with bench := ((rewriter name content).run.run build.bench).2 }) :=
  rfl

theorem builds_cons_ok [Library] {path : Path} {options : Options} {entry : Entry}
    {entries : List Entry} {rewriter : Rewriter σ} {build build' : Rebuild σ}
    (run : (builds rewriter ((entry :: entries).forM (rebuildEntry path options))).run.run build =
      (.ok (), build')) :
    ∃ middle, (builds rewriter (rebuildEntry path options entry)).run.run build = (.ok (), middle) ∧
      (builds rewriter (entries.forM (rebuildEntry path options))).run.run middle =
        (.ok (), build') := by
  rw [List.forM, run_builds_bind] at run
  cases first : (builds rewriter (rebuildEntry path options entry)).run.run build with
  | mk result middle => cases result with
    | error failure =>
      rw [first] at run
      cases run
    | ok _ =>
      rw [first] at run
      exact ⟨middle, rfl, run⟩

private theorem entryStep_of_rebuildClass [Library] {path : Path} {rewriter : Rewriter σ}
    {keep : Bool} {entry : Entry} {stored : Bytes} (found : entry.stored = some stored)
    (isClass : entry.isClass = true) {build build' : Rebuild σ}
    (run : (builds rewriter (rebuildClass path entry stored)).run.run build = (.ok (), build')) :
    EntryStep rewriter keep entry build build' := by
  unfold rebuildClass at run
  cases readable : Entry.isReadable entry.head with
  | false =>
    simp only [readable, Bool.not_false, ↓reduceIte] at run
    rw [run_builds_bind, run_fail] at run
    cases run
  | true =>
    simp only [readable, Bool.not_true, Bool.false_eq_true, ↓reduceIte] at run
    cases expanded : Entry.content entry.head stored with
    | error fault =>
      simp only [expanded] at run
      cases run
    | ok content =>
      simp only [expanded] at run
      have holds : entry.Holds content := ⟨readable, stored, found, expanded⟩
      rw [run_builds_bind, run_modify] at run
      simp only at run
      rw [run_builds_bind, run_offer] at run
      cases answered : (rewriter entry.name content).run.run build.bench with
      | mk result bench => cases result with
        | error failure =>
          simp only [answered] at run
          cases run
        | ok answer =>
          simp only [answered] at run
          cases new : answer.transformed with
          | true =>
            simp only [new, ↓reduceIte, run_add] at run
            cases run
            exact .transformed isClass holds answered new
          | false =>
            simp only [new, Bool.false_eq_true, ↓reduceIte, carryOver, run_add] at run
            cases run
            exact .untouched isClass holds answered new

theorem entryStep_of_rebuildEntry [Library] {path : Path} {rewriter : Rewriter σ}
    {options : Options} {entry : Entry} {build build' : Rebuild σ}
    (run : (builds rewriter (rebuildEntry path options entry)).run.run build = (.ok (), build')) :
    EntryStep rewriter options.keepDirectoryEntries entry build build' := by
  unfold rebuildEntry at run
  cases found : entry.stored with
  | none =>
    simp only [found] at run
    cases run
  | some stored =>
    have present : entry.stored.isSome = true := by rw [found]; rfl
    simp only [found] at run
    cases directory : entry.isDirectory with
    | true =>
      have notClass : entry.isClass = false := by simp [Entry.isClass, directory]
      simp only [directory, ↓reduceIte] at run
      cases keep : options.keepDirectoryEntries with
      | true =>
        simp only [keep, ↓reduceIte, carryOver, run_add] at run
        cases run
        exact .carried present notClass fun _ => rfl
      | false =>
        simp only [keep, Bool.false_eq_true, ↓reduceIte, run_modify] at run
        cases run
        exact .dropped directory rfl
    | false =>
      simp only [directory, Bool.false_eq_true, ↓reduceIte] at run
      cases named : ClassName.isClassFile entry.name with
      | true =>
        simp only [named, ↓reduceIte] at run
        exact entryStep_of_rebuildClass found (by simp [Entry.isClass, directory, named]) run
      | false =>
        simp only [named, Bool.false_eq_true, ↓reduceIte, carryOver, run_add] at run
        cases run
        exact .carried present
          (by simp [Entry.isClass, named]) fun here => by simp [directory] at here

/-! The building does nothing but ask the rewriter. -/

/-- A step of the building that only asks the rewriter, whatever has been built. -/
def OnlyAsks {α : Type} (step : Rebuilding α) : Prop := ∀ built, (step.run.run built).Asks

namespace OnlyAsks
variable {α β : Type}

theorem bind {step : Rebuilding α} {next : α → Rebuilding β} (first : OnlyAsks step)
    (later : ∀ value, OnlyAsks (next value)) : OnlyAsks (step >>= next) := by
  intro built
  refine (first built).bind ?_
  rintro ⟨_ | value, built'⟩
  · trivial
  · exact later value built'

theorem add (entry : Entry) (count : Summary → Summary) : OnlyAsks (add entry count) :=
  fun _ => trivial

private theorem rebuildClass [Library] (path : Path) (entry : Entry) (stored : Bytes) :
    OnlyAsks (rebuildClass path entry stored) := by
  unfold Archive.rebuildClass
  cases Entry.isReadable entry.head with
  | false => exact fun _ => trivial
  | true =>
    simp only [Bool.not_true, Bool.false_eq_true, ↓reduceIte]
    cases Entry.content entry.head stored with
    | error fault => exact fun _ => trivial
    | ok content =>
      refine bind (fun _ => trivial) fun _ => bind (fun _ _ => trivial) fun rewritten => ?_
      split
      · exact add _ _
      · exact add _ _

private theorem rebuildEntry [Library] (path : Path) (options : Options) (entry : Entry) :
    OnlyAsks (rebuildEntry path options entry) := by
  unfold Archive.rebuildEntry
  cases entry.stored with
  | none => exact fun _ => trivial
  | some stored =>
    simp only
    split
    · split
      · exact add _ _
      · exact fun _ => trivial
    · split
      · exact rebuildClass path entry stored
      · exact add _ _

theorem forM [Library] (path : Path) (options : Options) (entries : List Entry) :
    OnlyAsks (entries.forM (Archive.rebuildEntry path options)) := by
  induction entries with
  | nil => exact fun _ => trivial
  | cons entry entries ih => exact bind (rebuildEntry path options entry) fun _ => ih

end OnlyAsks

/-- A whole archive that is built by a rewriter, as far as that goes. -/
def rebuildBy [Library] (path : Path) (rewriter : Rewriter σ) (options : Options)
    (entries : List Entry) (bench : Bench σ) : Except Failure Unit × Rebuild σ :=
  (builds rewriter (entries.forM (rebuildEntry path options))).run.run { bench := bench }

theorem run_rebuild [Library] (path : Path) (options : Options) (entries : List Entry)
    (rewriter : Rewriter σ) (system : System) (shop : Workshop σ) :
    ((rebuild path options entries).carryOut rewriter system).run.run shop =
      (.ok ((rebuildBy path rewriter options entries shop.bench).1,
          ⟨(rebuildBy path rewriter options entries shop.bench).2.entries,
            (rebuildBy path rewriter options entries shop.bench).2.summary⟩),
        { shop with bench := (rebuildBy path rewriter options entries shop.bench).2.bench }) := by
  obtain ⟨run, ⟨result, built⟩, answered⟩ :=
    (OnlyAsks.forM path options entries {}).run rewriter system shop
  have same : rebuildBy path rewriter options entries shop.bench = _ :=
    run_builds (entries.forM (rebuildEntry path options)) { bench := shop.bench } answered
  rw [same]
  exact run.trans (by rw [answered])

/-- What became of the entries of an archive, with the classes that were offered and the answers
that were given, all in order. `carry` and `renew` say how an entry is carried over and how it is
given new content. -/
inductive Rebuilt [Library] (carry : Entry → Entry → Prop) (renew : Entry → Bytes → Entry → Prop)
    (keep : Bool) :
    List Entry → List Call → List Rewritten → List Entry → Prop where
  | nil : Rebuilt carry renew keep [] [] [] []
  | dropped {entry old calls answers new} (directory : entry.isDirectory =
    true) (off : keep = false)
      (rest : Rebuilt carry renew keep old calls answers new) :
      Rebuilt carry renew keep (entry :: old) calls answers new
  | carried {entry entry' old calls answers new} (notClass : entry.isClass = false)
      (kept : entry.isDirectory = true → keep = true) (same : carry entry entry')
      (rest : Rebuilt carry renew keep old calls answers new) :
      Rebuilt carry renew keep (entry :: old) calls answers (entry' :: new)
  | untouched {entry entry' content answer old calls answers new} (isClass : entry.isClass = true)
      (holds : entry.Holds content) (untransformed : answer.transformed = false)
      (same : carry entry entry') (rest : Rebuilt carry renew keep old calls answers new) :
      Rebuilt carry renew keep (entry :: old) ((entry.name, content) :: calls) (answer :: answers)
        (entry' :: new)
  | transformed {entry entry' content answer old calls answers new} (isClass : entry.isClass = true)
      (holds : entry.Holds content) (changed : answer.transformed = true)
      (renewed : renew entry answer.bytes entry')
        (rest : Rebuilt carry renew keep old calls answers new) :
      Rebuilt carry renew keep (entry :: old) ((entry.name, content) :: calls) (answer :: answers)
        (entry' :: new)

/-- What the builder itself puts into the new archive. -/
def CarriedOver (entry entry' : Entry) : Prop :=
  entry.stored.isSome = true ∧ entry' = entry.carriedOver

def GivenContent (entry : Entry) (content : Bytes) (entry' : Entry) : Prop :=
  entry' = Entry.withContent entry.head content

/-- The answers to a list of calls, one after another. -/
def offerAll (rewriter : Rewriter σ) (calls : List Call) : Rewriting σ (List Rewritten) :=
  calls.mapM fun call => rewriter call.1 call.2

/-- What a run adds to the counts. -/
structure Counted (start : Summary) (old : List Entry) (calls : List Call)
    (answers : List Rewritten) (new : List Entry) (summary : Summary) : Prop where
  classes : summary.classes = start.classes + calls.length
  transformed : summary.transformed =
    start.transformed + (answers.filter Rewritten.transformed).length
  written : summary.transformed + summary.copied = start.transformed + start.copied + new.length
  skipped : summary.directoriesSkipped + new.length = start.directoriesSkipped + old.length

theorem run_offerAll_cons {rewriter : Rewriter σ} {name : String} {content : Bytes}
    {bench bench' bench'' : Bench σ} {answer : Rewritten} {calls : List Call}
    {answers : List Rewritten}
    (first : (rewriter name content).run.run bench = (.ok answer, bench'))
    (later : (offerAll rewriter calls).run.run bench' = (.ok answers, bench'')) :
    (offerAll rewriter ((name, content) :: calls)).run.run bench =
      (.ok (answer :: answers), bench'') := by
  unfold offerAll at later ⊢
  rw [List.mapM_cons, Steps.run_bind, first]
  simp only
  rw [Steps.run_bind, later]
  rfl

theorem offerAll_cons_ok {rewriter : Rewriter σ} {name : String} {content : Bytes}
    {bench bench'' : Bench σ} {calls : List Call} {answer : Rewritten} {answers : List Rewritten}
    (run : (offerAll rewriter ((name, content) :: calls)).run.run bench =
      (.ok (answer :: answers), bench'')) :
    ∃ bench', (rewriter name content).run.run bench = (.ok answer, bench') ∧
      (offerAll rewriter calls).run.run bench' = (.ok answers, bench'') := by
  unfold offerAll at run
  rw [List.mapM_cons] at run
  obtain ⟨_, bench', first, run⟩ := Steps.run_bind_ok run
  obtain ⟨_, _, later, given⟩ := Steps.run_bind_ok run
  cases given
  exact ⟨bench', first, later⟩

theorem rebuilt_of_run [Library] {path : Path} {rewriter : Rewriter σ} {options : Options}
    {old : List Entry} {build build' : Rebuild σ}
    (run : (builds rewriter (old.forM (rebuildEntry path options))).run.run build =
      (.ok (), build')) :
    ∃ calls answers new,
      Rebuilt CarriedOver GivenContent options.keepDirectoryEntries old calls answers new ∧
      (offerAll rewriter calls).run.run build.bench = (.ok answers, build'.bench) ∧
      build'.entries = build.entries ++ new ∧
      Counted build.summary old calls answers new build'.summary := by
  induction old generalizing build with
  | nil =>
    cases run
    exact ⟨[], [], [], .nil, rfl, (List.append_nil _).symm, ⟨rfl, rfl, rfl, rfl⟩⟩
  | cons entry old ih =>
    obtain ⟨middle, first, later⟩ := builds_cons_ok run
    obtain ⟨calls, answers, new, rebuilt, offered, entries, counted⟩ := ih later
    obtain ⟨classes, transformed, written, skipped⟩ := counted
    cases entryStep_of_rebuildEntry first with
    | dropped directory off =>
      simp only at classes transformed written skipped
      refine ⟨calls, answers, new, .dropped directory off rebuilt, offered, entries, ?_⟩
      exact ⟨classes, transformed, written, by rw [List.length_cons]; omega⟩
    | carried found notClass kept =>
      simp only at classes transformed written skipped
      refine ⟨calls, answers, entry.carriedOver :: new, .carried notClass kept ⟨found, rfl⟩ rebuilt,
        offered, by rw [entries]; simp, ?_⟩
      refine ⟨classes, transformed, ?_, ?_⟩ <;> simp only [List.length_cons] <;> omega
    | untouched isClass holds answered same =>
      simp only at classes transformed written skipped
      have found : entry.stored.isSome = true := by
        obtain ⟨-, stored, found, -⟩ := holds
        rw [found]
        rfl
      refine ⟨(entry.name, _) :: calls, _ :: answers, entry.carriedOver :: new,
        .untouched isClass holds same ⟨found, rfl⟩ rebuilt, run_offerAll_cons answered offered,
        by rw [entries]; simp, ?_⟩
      rw [← List.filter_cons_of_neg (by rw [same]; decide)] at transformed
      refine ⟨?_, transformed, ?_, ?_⟩ <;> simp only [List.length_cons] <;> omega
    | transformed isClass holds answered changed =>
      simp only at classes transformed written skipped
      refine ⟨(entry.name, _) :: calls, _ :: answers, Entry.withContent entry.head _ :: new,
        .transformed isClass holds changed rfl rebuilt, run_offerAll_cons answered offered,
        by rw [entries]; simp, ?_⟩
      refine ⟨?_, ?_, ?_, ?_⟩ <;>
        simp only [List.length_cons, List.filter_cons_of_pos changed] <;> omega

end Archive
end ClassCoverage
