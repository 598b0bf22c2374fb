import ClassCoverage.Proofs.ArchiveDeeds
import ClassCoverage.Proofs.TreeRuns

/-! Which classes a rewriter is offered. A run that succeeds offers all classes that there are, in
their order, and a run that fails those up to some point. -/
namespace ClassCoverage
open ClassCoverage.Archive

variable {σ S α β : Type}

/-- What the rewriter has been offered at the end of a run: everything if it succeeded, and else
what comes before some point. -/
def Rewriter.Offered (rewriter : Rewriter σ) (classes : List Call) (bench bench' : Bench σ) :
    Except Failure α → Prop
  | .ok _ => ∃ answers, (offerAll rewriter classes).run.run bench = (.ok answers, bench')
  | .error _ => ∃ calls, calls <+: classes ∧ ((offerAll rewriter calls).run.run bench).2 = bench'

/-- A step that offers classes to the rewriter of a bench. -/
def Offers (bench : S → Bench σ) (rewriter : Rewriter σ) (classes : List Call)
    (step : ExceptT Failure (StateM S) α) (state : S) : Prop :=
  rewriter.Offered classes (bench state) (bench (step.run.run state).2) (step.run.run state).1

private theorem offerAll_append (rewriter : Rewriter σ) (calls more : List Call) :
    offerAll rewriter (calls ++ more) =
      (do let answers ← offerAll rewriter calls; return answers ++ (← offerAll rewriter more)) :=
  List.mapM_append

namespace Offers
variable {bench : S → Bench σ} {rewriter : Rewriter σ} {classes more : List Call} {state : S}
  {step : ExceptT Failure (StateM S) α} {next : α → ExceptT Failure (StateM S) β}

/-- A step that fails before anything is offered. -/
theorem stopped {failure : Failure} (ran : step.run.run state = (.error failure, state)) :
    Offers bench rewriter classes step state := by
  unfold Offers
  rw [ran]
  exact ⟨[], List.nil_prefix, rfl⟩

/-- A step that leaves the bench alone offers nothing. -/
theorem idle (same : bench (step.run.run state).2 = bench state) :
    Offers bench rewriter [] step state := by
  unfold Offers
  rw [same]
  cases (step.run.run state).1 with
  | ok value => exact ⟨[], rfl⟩
  | error failure => exact ⟨[], List.nil_prefix, rfl⟩

theorem bind (first : Offers bench rewriter classes step state)
    (later : ∀ value state', step.run.run state = (.ok value, state') →
      Offers bench rewriter more (next value) state') :
    Offers bench rewriter (classes ++ more) (step >>= next) state := by
  unfold Offers at *
  rw [Steps.run_bind]
  cases ran : step.run.run state with
  | mk result middle =>
    rw [ran] at first
    cases result with
    | error failure =>
      obtain ⟨calls, front, reached⟩ := first
      exact ⟨calls, front.trans (List.prefix_append classes more), reached⟩
    | ok value =>
      obtain ⟨answers, all⟩ := first
      have rest := later value middle ran
      simp only at all ⊢
      cases final : (next value).run.run middle with
      | mk result' after =>
        rw [final] at rest
        cases result' with
        | ok value' =>
          obtain ⟨others, done⟩ := rest
          refine ⟨answers ++ others, ?_⟩
          rw [offerAll_append, Steps.run_bind, all]
          simp only
          rw [Steps.run_bind, done]
          rfl
        | error failure =>
          obtain ⟨calls, front, reached⟩ := rest
          refine ⟨classes ++ calls, (List.prefix_append_right_inj classes).mpr front, ?_⟩
          rw [offerAll_append, Steps.run_bind, all]
          simp only
          rw [Steps.run_bind]
          cases offered : (offerAll rewriter calls).run.run (bench middle) with
          | mk answered last =>
            rw [offered] at reached
            cases answered <;> exact reached

/-- What comes before and leaves the bench alone. -/
theorem after (same : bench (step.run.run state).2 = bench state)
    (later : ∀ value state', step.run.run state = (.ok value, state') →
      Offers bench rewriter classes (next value) state') :
    Offers bench rewriter classes (step >>= next) state :=
  (idle same).bind later

/-- What follows and leaves the bench alone. -/
theorem before (first : Offers bench rewriter classes step state)
    (same : ∀ value state', bench ((next value).run.run state').2 = bench state') :
    Offers bench rewriter classes (step >>= next) state := by
  rw [← List.append_nil classes]
  exact first.bind fun value state' _ => idle (same value state')

end Offers

/-- Work that fails after a step has offered no more than the step. -/
theorem Rewriter.Offered.weaken {rewriter : Rewriter σ} {classes : List Call}
    {bench bench' : Bench σ} {inner : Except Failure α} {outer : Except Failure β}
    (offered : rewriter.Offered classes bench bench' inner)
    (completes : ∀ value, outer = .ok value → ∃ value', inner = .ok value') :
    rewriter.Offered classes bench bench' outer := by
  cases inner with
  | ok value =>
    obtain ⟨answers, all⟩ := offered
    cases outer with
    | ok value' => exact ⟨answers, all⟩
    | error failure => exact ⟨classes, List.prefix_rfl, by rw [all]⟩
  | error failure => cases outer with
    | ok value' =>
      obtain ⟨value, impossible⟩ := completes value' rfl
      cases impossible
    | error failure' => exact offered

theorem filterMap_cons_toList {ι : Type} (class? : ι → Option Call) (item : ι) (items : List ι) :
    (item :: items).filterMap class? = (class? item).toList ++ items.filterMap class? := by
  rw [List.filterMap_eq_flatMap_toList, List.flatMap_cons, ← List.filterMap_eq_flatMap_toList]

/-- One class is offered. -/
theorem offered_single (rewriter : Rewriter σ) (call : Call) (bench : Bench σ) :
    rewriter.Offered [call] bench ((rewriter call.1 call.2).run.run bench).2
      ((rewriter call.1 call.2).run.run bench).1 := by
  have single : (offerAll rewriter [call]).run.run bench =
      (do return [← rewriter call.1 call.2] : Rewriting σ (List Rewritten)).run.run bench := by
    unfold offerAll
    rw [List.mapM_cons, List.mapM_nil]
    rfl
  rw [Steps.run_bind] at single
  cases ran : (rewriter call.1 call.2).run.run bench with
  | mk result bench' =>
    rw [ran] at single
    cases result with
    | ok answer => exact ⟨[answer], single⟩
    | error failure => exact ⟨[call], List.prefix_rfl, congrArg Prod.snd single⟩

theorem Course.carryOut_bind (course : Course α) (next : α → Course β) (rewriter : Rewriter σ) :
    (course >>= next).carryOut rewriter =
      course.carryOut rewriter >>= fun value => (next value).carryOut rewriter := by
  refine Steps.ext fun shop => ?_
  rw [Course.run_bind, Steps.run_bind]
  rcases (course.carryOut rewriter).run.run shop with ⟨_ | _, _⟩ <;> rfl

namespace Archive
variable {rewriter : Rewriter σ} {options : Options} {path : Path}

theorem builds_bind (step : Rebuilding α) (next : α → Rebuilding β) (rewriter : Rewriter σ) :
    builds rewriter (step >>= next) = builds rewriter step >>= fun value =>
    builds rewriter (next value) := by
  refine Steps.ext fun build => ?_
  rw [run_builds_bind, Steps.run_bind]
  rcases (builds rewriter step).run.run build with ⟨_ | _, _⟩ <;> rfl

private theorem offers_offer (name : String) (content : Bytes) (build : Rebuild σ) :
    Offers Rebuild.bench rewriter [(name, content)]
      (builds rewriter (offer name content)) build := by
  unfold Offers
  rw [run_offer]
  exact offered_single rewriter (name, content) build.bench

private theorem offers_rebuildClass [Archive.Library] {entry : Entry} {stored : Bytes}
    (found : entry.stored = some stored) (isClass : entry.isClass = true) (build : Rebuild σ) :
    Offers Rebuild.bench rewriter (class? entry).toList
      (builds rewriter (rebuildClass path entry stored)) build := by
  unfold rebuildClass
  cases readable : Entry.isReadable entry.head with
  | false =>
    simp only [Bool.not_false, ↓reduceIte]
    exact .stopped rfl
  | true =>
    simp only [Bool.not_true, Bool.false_eq_true, ↓reduceIte]
    cases expanded : Entry.content entry.head stored with
    | error fault => exact .stopped rfl
    | ok content =>
      rw [class?_of_content isClass found expanded, builds_bind]
      refine .after rfl fun _ build' _ => ?_
      rw [builds_bind]
      refine (offers_offer entry.name content build').before fun answer build'' => ?_
      split <;> rfl

private theorem offers_rebuildEntry [Archive.Library] (entry : Entry) (build : Rebuild σ) :
    Offers Rebuild.bench rewriter (class? entry).toList
      (builds rewriter (rebuildEntry path options entry)) build := by
  unfold rebuildEntry
  split
  · exact .stopped rfl
  · rename_i stored found
    split
    · rename_i directory
      rw [class?_of_not_isClass (by simp [Entry.isClass, directory])]
      split
      · exact .idle rfl
      · exact .idle rfl
    · rename_i file
      split
      · rename_i named
        exact offers_rebuildClass found (by simp [Entry.isClass, file, named]) build
      · rename_i unnamed
        rw [class?_of_not_isClass (by simp [Entry.isClass, unnamed])]
        exact .idle rfl

/-- The building of an archive offers its classes. -/
theorem offers_rebuild [Archive.Library] (entries : List Entry) (build : Rebuild σ) :
    Offers Rebuild.bench rewriter (entries.filterMap class?)
      (builds rewriter (entries.forM (rebuildEntry path options))) build := by
  induction entries generalizing build with
  | nil => exact .idle rfl
  | cons entry entries ih =>
    rw [List.forM, filterMap_cons_toList, builds_bind]
    exact (offers_rebuildEntry entry build).bind fun _ build' _ => ih build'

/-- The rewriting of an archive offers its classes. Records go to the store only when it succeeds,
but what the rewriter remembers is what it was offered. -/
theorem offered_of_rewrite [Archive.Library] {shop shop' : Workshop σ} {place : Place}
    {content : Bytes} {entries : List Entry} {result : Except Failure Summary}
    (rooted : shop.disk.Rooted) (lands : shop.disk.Lands path place)
    (held : shop.disk.kind? place = some (.file content))
    (readable : Library.read? content = some entries)
    (run : (rewrite path rewriter options).run.run shop = (result, shop')) :
    ∃ bench, rewriter.Offered (classes content) ⟨.empty, shop.bench.memory⟩ bench result ∧
      shop'.bench.memory = bench.memory := by
  have all : classes content = entries.filterMap class? := by
    unfold classes
    rw [readable]
    rfl
  rw [all]
  rcases memory_of_rewrite rooted lands held readable run with ⟨memory,
    completes⟩ | ⟨-, same, failure, rfl⟩
  · have offers : Offers Rebuild.bench rewriter (entries.filterMap class?)
        (builds rewriter (entries.forM (rebuildEntry path options))) { bench := ⟨.empty,
        shop.bench.memory⟩ } :=
      offers_rebuild entries _
    exact ⟨_, Rewriter.Offered.weaken offers fun summary ended =>
      ⟨(), completes summary ended⟩, memory⟩
  · exact ⟨⟨.empty, shop.bench.memory⟩, ⟨[], List.nil_prefix, rfl⟩, by rw [same]⟩

end Archive

namespace ClassTree
open ClassCoverage.Path
variable {rewriter : Rewriter σ} {disk : Disk} {source destination : Path}
  {below : Place} {files : List Place}
  {content : Bytes} {summary : Summary}

private theorem offers_ask (name : String) (content : Bytes) (shop : Workshop σ) :
    Offers Workshop.bench rewriter [(name, content)]
      ((Course.ask name content).carryOut rewriter) shop := by
  unfold Offers
  rw [Course.run_ask]
  exact offered_single rewriter (name, content) shop.bench

theorem bench_see (operation : String) (path : Path) (view : Disk → Except Fault α)
    (shop : Workshop σ) :
    (((Course.see operation path view).carryOut rewriter).run.run shop).2.bench = shop.bench := by
  rw [Course.run_see]

theorem bench_change (operation : String) (path : Path) (step : Disk → Except Fault Disk)
    (shop : Workshop σ) :
    (((Course.change operation path step).carryOut rewriter).run.run shop).2.bench =
      shop.bench := by
  rw [Course.run_change]
  split <;> rfl

/-- What a course leaves alone step by step it leaves alone. -/
theorem bench_bind {course : Course α} {next : α → Course β} {shop : Workshop σ}
    (first : ((course.carryOut rewriter).run.run shop).2.bench = shop.bench)
    (later : ∀ value (shop' : Workshop σ),
      (((next value).carryOut rewriter).run.run shop').2.bench = shop'.bench) :
    (((course >>= next).carryOut rewriter).run.run shop).2.bench = shop.bench := by
  rw [Course.run_bind]
  cases ran : (course.carryOut rewriter).run.run shop with
  | mk result middle =>
    rw [ran] at first
    cases result with
    | ok value => exact (later value middle).trans first
    | error failure => exact first

theorem bench_prepareParent (target : Path) (shop : Workshop σ) :
    (((prepareParent target).carryOut rewriter).run.run shop).2.bench = shop.bench := by
  unfold prepareParent
  split
  · exact bench_change _ _ _ shop
  · rfl

private theorem bench_writeClass (target : Path) (bytes : Bytes) (shop : Workshop σ) :
    (((writeClass target bytes).carryOut rewriter).run.run shop).2.bench = shop.bench :=
  bench_bind (bench_prepareParent target shop) fun _ shop' =>
    bench_bind (bench_change _ _ _ shop') fun _ => bench_change _ _ _

private theorem bench_copyFile (file target : Path) (shop : Workshop σ) :
    (((copyFile file target).carryOut rewriter).run.run shop).2.bench = shop.bench :=
  bench_bind (bench_prepareParent target shop) fun _ shop' =>
    bench_bind (bench_see _ _ _ shop') fun _ shop'' =>
      bench_bind (bench_change _ _ _ shop'') fun _ => bench_change _ _ _

private theorem offers_rewriteClass (inPlace : Bool) (relative : String) (target : Path)
    (content : Bytes) (shop : Workshop σ) : Offers Workshop.bench rewriter [(relative, content)]
      ((rewriteClass inPlace relative target content).carryOut rewriter) shop := by
  unfold rewriteClass
  rw [Course.carryOut_bind]
  refine (offers_ask relative content shop).before fun answer shop' => ?_
  split
  · exact bench_bind (bench_writeClass _ _ shop') fun _ _ => rfl
  · rfl

/-- A class file that is long enough is offered, and no other file. -/
theorem offers_rewriteFile {shop : Workshop σ} {file : Path} (inPlace : Bool)
    (relative : file.relativeTo source = Text.join "/" below)
    (read : shop.disk.read file = .ok content) :
    Offers Workshop.bench rewriter
      (if isOffered (Text.join "/" below) content.length then some (Text.join "/" below, content)
        else none).toList
      ((rewriteFile source destination inPlace summary file).carryOut rewriter) shop := by
  have size : shop.disk.size file = .ok content.length := by
    unfold Disk.size
    rw [read]
    rfl
  unfold rewriteFile
  simp only [relative]
  rw [Course.carryOut_bind]
  refine .after (bench_see _ _ _ shop) fun length shop' looked => ?_
  rw [Course.run_see, size] at looked
  cases looked
  split
  · rw [Course.carryOut_bind]
    refine .after (bench_see _ _ _ shop) fun bytes shop' looked => ?_
    rw [Course.run_see, read] at looked
    cases looked
    rw [Course.carryOut_bind]
    refine (offers_rewriteClass inPlace _ _ content _).before fun answer shop'' => ?_
    split <;> rfl
  · rw [Option.toList_none]
    split
    · exact .idle (bench_bind (bench_copyFile _ _ _) fun _ _ => rfl)
    · exact .idle rfl

private theorem offers_files {shop : Workshop σ}
    (pending : Pending disk source destination files shop.disk) (summary : Summary) :
    Offers Workshop.bench rewriter (files.filterMap (class? disk (disk.aim source)))
      ((files.foldlM (fun summary below =>
        rewriteFile source destination false summary (Scan.pathTo source below))
          summary).carryOut rewriter) shop := by
  induction files generalizing summary shop with
  | nil => exact .idle rfl
  | cons below files ih =>
    obtain ⟨content, before, held, lands, relative⟩ := pending.head
    rw [List.foldlM_cons, filterMap_cons_toList, class?_of_held before, Course.carryOut_bind]
    refine (offers_rewriteFile false relative (lands.read held)).bind fun next shop' first => ?_
    obtain ⟨_, _, -, -, open_, placed⟩ := pending.step_iff.mp first
    exact ih (pending.next open_ placed) next

/-- The rewriting of a tree to another place offers its classes. -/
theorem offered_of_rewrite {origin shop' : Workshop σ} {result : Except Failure Summary}
    (rooted : origin.disk.Rooted)
    (named : ∀ below ∈ filesBelow origin.disk (origin.disk.aim source), ∀ name ∈ below, IsName name)
    (found : Found origin.disk source) (elsewhere : Elsewhere origin.disk source destination)
    (run : (rewrite source destination rewriter).run.run origin = (result, shop')) :
    rewriter.Offered (classes origin.disk (origin.disk.aim source)) origin.bench
      shop'.bench result := by
  by_cases none : filesBelow origin.disk (origin.disk.aim source) = []
  · rw [rewrite, run_course_of_no_files fun _ => none] at run
    cases run
    rw [classes, none]
    exact ⟨[], rfl⟩
  · have directory := kind?_of_filesBelow none
    obtain ⟨listing, here⟩ := Disk.at?_eq_directory_iff.mpr directory
    obtain ⟨below, member⟩ := List.exists_mem_of_ne_nil _ none
    rw [rewrite, run_course_of_files (found none) here,
      sameDirectory_of_elsewhere elsewhere member] at run
    have pending := pending_filesBelow rooted named (found none) directory elsewhere
    have offers : Offers Workshop.bench rewriter _ _ origin := offers_files pending {}
    unfold Offers at offers
    rw [run] at offers
    exact offers

end ClassTree

end ClassCoverage
