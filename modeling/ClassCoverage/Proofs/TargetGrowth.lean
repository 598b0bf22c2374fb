import ClassCoverage.Instrument.Crew
import ClassCoverage.Proofs.DiskGrowth
import ClassCoverage.Proofs.PerformedCourses
import ClassCoverage.Proofs.RebuildRun
import ClassCoverage.Proofs.RegisteredRecords
import ClassCoverage.Proofs.SafetyCopy

/-! What no step of a worker takes away. Directories stay where they are, whatever others do between
the steps, and the rewriting of a tree loses no record. -/
namespace ClassCoverage
open Instrument
variable {α β σ : Type}

/-- A course by whose steps no directory goes away. If it does not stage records, it leaves the
store to the rewriter, and fails where the rewriter fails. -/
def Course.Grows (staging : Prop) : Course α → Prop
  | done _ => True
  | watch next => ∀ disk, (next disk).Grows staging
  | act _ _ change next =>
    (∀ disk disk', disk.Rooted → change disk = .ok disk' → disk.Keeps disk') ∧
      ∀ result, (next result).Grows staging
  | keep _ next => staging ∧ ∀ store, (next store).Grows staging
  | offer _ _ next => (∀ result, (next result).Grows staging) ∧
      (staging ∨ ∀ failure, (next (.error failure)).Lost)

namespace Course.Grows
variable {staging : Prop} {course : Course α} {rewriter : Rewriter σ}

theorem bind {next : α → Course β} (first : course.Grows staging)
    (later : ∀ value, (next value).Grows staging) :
    (course >>= next).Grows staging := by
  change (course.bind next).Grows staging
  induction course with
  | done outcome =>
    cases outcome with
    | ok value => exact later value
    | error failure => trivial
  | watch rest ih => exact fun disk => ih disk (first disk)
  | act operation path change rest ih => exact ⟨first.1, fun result => ih result (first.2 result)⟩
  | keep change rest ih => exact ⟨first.1, fun store => ih store (first.2 store)⟩
  | offer name content rest ih =>
    exact ⟨fun result => ih result (first.1 result), first.2.imp id fun lost failure =>
      (lost failure).bind next⟩

theorem tryCatch {handler : Failure → Course α} (first : course.Grows True)
    (handled : ∀ failure, (handler failure).Grows True) : (tryCatch course handler).Grows True := by
  change (course.tryCatch handler).Grows True
  induction course with
  | done outcome =>
    cases outcome with
    | ok value => trivial
    | error failure => exact handled failure
  | watch rest ih => exact fun disk => ih disk (first disk)
  | act operation path change rest ih => exact ⟨first.1, fun result => ih result (first.2 result)⟩
  | keep change rest ih => exact ⟨first.1, fun store => ih store (first.2 store)⟩
  | offer name content rest ih => exact ⟨fun result => ih result (first.1 result), .inl trivial⟩

/-- A course that loses nothing may as well be among those that stage records. -/
theorem staged (grows : course.Grows staging) : course.Grows True := by
  induction course with
  | done outcome => trivial
  | watch rest ih => exact fun disk => ih disk (grows disk)
  | act operation path change rest ih => exact ⟨grows.1, fun result => ih result (grows.2 result)⟩
  | keep change rest ih => exact ⟨trivial, fun store => ih store (grows.2 store)⟩
  | offer name content rest ih => exact ⟨fun result => ih result (grows.1 result), .inl trivial⟩

private theorem of_asks (asks : course.Asks) : course.Grows True := by
  induction course with
  | done outcome => trivial
  | offer name content rest ih => exact ⟨fun result => ih result (asks result), .inl trivial⟩
  | _ => exact asks.elim

theorem foldlM {step : β → α → Course β} (each : ∀ sum item, (step sum item).Grows staging)
    (items : List α) (sum : β) : (items.foldlM step sum).Grows staging := by
  induction items generalizing sum with
  | nil => trivial
  | cons item items ih =>
    rw [List.foldlM_cons]
    exact (each sum item).bind ih

/-! Operations. -/

private theorem ite {condition : Prop} [Decidable condition] {one other : Course α}
    (yes : one.Grows staging) (no : other.Grows staging) :
    (if condition then one else other).Grows staging := by
  split
  · exact yes
  · exact no

theorem pure (value : α) : (Pure.pure value : Course α).Grows staging := trivial

theorem disk : Course.disk.Grows staging := fun _ => trivial

private theorem store : Course.store.Grows True := ⟨trivial, fun _ => trivial⟩

private theorem setStore (store : Store) :
    (Course.setStore store).Grows True := ⟨trivial, fun _ => trivial⟩

theorem ofAnswer (operation : String) (path : Path) (answer : Except Fault α) :
    (Course.ofAnswer operation path answer).Grows staging := by
  cases answer <;> trivial

theorem change {step : Disk → Except Fault Disk} (operation : String) (path : Path)
    (keeps : ∀ disk disk', disk.Rooted → step disk = .ok disk' → disk.Keeps disk') :
    (Course.change operation path step).Grows staging :=
  ⟨keeps, fun _ => ofAnswer ..⟩

theorem see (operation : String) (path : Path) (view : Disk → Except Fault α) :
    (Course.see operation path view).Grows staging := by
  refine ⟨fun disk disk' _ seen => ?_, fun _ => ofAnswer ..⟩
  change (view disk).map (fun _ => disk) = .ok disk' at seen
  cases answered : view disk with
  | ok value =>
    rw [answered] at seen
    cases seen
    exact .refl disk
  | error fault =>
    rw [answered] at seen
    cases seen

private theorem write (operation : String) (path : Path) (content : Bytes) :
    (Course.write operation path content).Grows staging :=
  (change operation path fun _ _ rooted => Disk.keeps_of_write rooted).bind fun _ =>
    change operation path fun _ _ rooted => Disk.keeps_of_fill rooted

private theorem ask (name : String) (content : Bytes) : (Course.ask name content).Grows staging :=
  ⟨fun _ => trivial, .inr fun failure => ⟨failure, rfl⟩⟩

/-! What is left. -/

private theorem step (grows : course.Grows staging) {shop : Workshop σ}
    (rooted : shop.disk.Rooted) :
    shop.disk.Keeps ((course.step rewriter {}).run shop).2.disk ∧
      ((course.step rewriter {}).run shop).1.Grows staging := by
  cases course with
  | done outcome => exact ⟨.refl _, trivial⟩
  | watch next => exact ⟨.refl _, grows shop.disk⟩
  | act operation path change next =>
    unfold Course.step
    simp only [StateT.run_bind, StateT.run_get, pure_bind, System.attempt_of_default]
    cases changed : change shop.disk with
    | ok disk' => exact ⟨grows.1 _ _ rooted changed, grows.2 (.ok shop.disk)⟩
    | error fault => exact ⟨.refl _, grows.2 (.error fault)⟩
  | keep change next => exact ⟨.refl _, grows.2 shop.bench.store⟩
  | offer name content next => exact ⟨.refl _, grows.1 _⟩

/-- A course that does not stage records keeps those it finds. -/
theorem includes (registers : rewriter.Registers) (grows : course.Grows False)
    {store store' : Store} {moments : List (Moment σ)} {value : α}
    (performed : course.Performed rewriter store moments (.ok value) store') :
    store'.Includes store := by
  induction course generalizing store moments with
  | done outcome =>
    obtain ⟨-, -, rfl⟩ := performed.of_done
    exact .refl _
  | watch next ih =>
    obtain ⟨moment, rest, -, later⟩ := performed.of_watch
    exact ih _ (grows _) later
  | act operation path change next ih =>
    obtain ⟨moment, rest, -, ⟨-, later⟩ | ⟨fault, -, later⟩⟩ := performed.of_act
    · exact ih _ (grows.2 _) later
    · exact ih _ (grows.2 _) later
  | keep change next ih => exact grows.1.elim
  | offer name content next ih =>
    obtain ⟨moment, rest, -, rfl, noted, later⟩ := performed.of_offer
    have more := ih _ (grows.1 _) later
    cases answered : (rewriter name content).run.run moment.before.bench with
    | mk result bench' =>
      rw [answered] at later noted
      cases result with
      | ok answer =>
        rw [noted] at more
        exact more.trans (registers.includes answered)
      | error failure => exact absurd later (grows.2.resolve_left id failure).not_performed

end Course.Grows

/-! Trees. -/

namespace ClassTree

theorem grows_prepareParent (target : Path) : (prepareParent target).Grows False := by
  unfold prepareParent
  cases target.parent? with
  | none => trivial
  | some parent => exact .change _ _ fun _ _ rooted => Disk.keeps_of_makeDirectories rooted

private theorem keeps_of_fillFrom {disk disk' : Disk} (rooted : disk.Rooted) {file target : Path}
    (done : fillFrom file target disk = .ok disk') : disk.Keeps disk' := by
  unfold fillFrom at done
  split at done
  · exact Disk.keeps_of_fill rooted done
  · cases done
    exact .refl disk

private theorem grows_copyFile (file target : Path) : (copyFile file target).Grows False := by
  unfold copyFile
  refine (grows_prepareParent target).bind fun _ => (Course.Grows.see ..).bind fun _ => ?_
  exact (Course.Grows.change _ _ fun _ _ rooted => Disk.keeps_of_write rooted).bind fun _ =>
    .change _ _ fun _ _ rooted => keeps_of_fillFrom rooted

private theorem grows_rewriteClass (inPlace : Bool) (relative : String) (target : Path)
    (content : Bytes) :
    (rewriteClass inPlace relative target content).Grows False := by
  unfold rewriteClass writeClass
  refine (Course.Grows.ask relative content).bind fun rewritten => ?_
  split
  · exact ((grows_prepareParent target).bind fun _ => .write ..).bind fun _ => .pure _
  · exact .pure _

private theorem grows_rewriteFile (source destination : Path) (inPlace : Bool) (summary : Summary)
    (file : Path) :
    (rewriteFile source destination inPlace summary file).Grows False := by
  unfold rewriteFile
  dsimp only
  generalize file.relativeTo source = relative
  generalize destination.join ⟨relative⟩ = target
  refine (Course.Grows.see ..).bind fun size => .ite ?offered ?copied
  case offered =>
    exact (Course.Grows.see ..).bind fun content => (grows_rewriteClass ..).bind fun rewritten =>
      .ite (.pure _) (.pure _)
  case copied => exact .ite ((grows_copyFile ..).bind fun _ => .pure _) (.pure _)

private theorem grows_walk (source : Path) (top : Place) (depth : Nat) (below : Place) :
    (walk source top depth below).Grows False := by
  induction depth generalizing below with
  | zero => exact .pure _
  | succ depth ih =>
    refine (Course.Grows.see ..).bind fun entries => .foldlM (fun files entry => ?_) entries []
    refine Course.Grows.bind ?_ fun _ => .pure _
    exact .ite (.pure _) (.ite (ih _) (.pure _))

private theorem grows_scan (source : Path) : (scan source).Grows False := by
  unfold scan
  refine Course.Grows.disk.bind fun disk => .ite (.pure _) ?_
  exact (Course.Grows.ofAnswer ..).bind fun top => (grows_walk ..).bind fun _ => .pure _

theorem grows_course (source destination : Path) : (course source destination).Grows False := by
  unfold course
  refine Course.Grows.disk.bind fun disk => .ite (.pure _) ?_
  refine Course.Grows.disk.bind fun disk' => Course.Grows.disk.bind fun disk'' => ?_
  exact (grows_scan source).bind fun files =>
    .foldlM (grows_rewriteFile source destination _) files {}

end ClassTree

/-! Archives. -/

namespace Archive

theorem keeps_of_removeFile {disk disk' : Disk} (rooted : disk.Rooted) {path : Path}
    (done : disk.removeFile path = .ok disk') : disk.Keeps disk' := by
  cases resolved : disk.resolve path with
  | error fault =>
    unfold Disk.removeFile at done
    rw [resolved] at done
    cases done
  | ok place =>
    unfold Disk.removeFile at done
    rw [resolved] at done
    dsimp only [bind, Except.bind] at done
    split at done
    · rename_i found
      have held := Disk.at?_eq_file_iff.mp found
      rw [← Except.ok.inj done]
      exact ((Disk.lands_of_resolve rooted resolved held).erased held).keeps
    · cases done
    · cases done

private theorem keeps_of_makeSafetyFile {disk disk' : Disk} (rooted : disk.Rooted) {path : Path}
    (done : makeSafetyFile path disk = .ok disk') : disk.Keeps disk' :=
  Disk.keeps_of_write rooted (write_of_makeSafetyFile done)

private theorem grows_moveAside (path : Path) : (moveAside path).Grows True := by
  unfold moveAside createSafetyFile moveTo
  refine Course.Grows.bind ⟨fun _ _ rooted => keeps_of_makeSafetyFile rooted, fun _ =>
    .ofAnswer ..⟩ fun copy => ?_
  refine Course.Grows.bind (.tryCatch ?moved fun failure => ?handled) fun _ => .pure _
  case moved =>
    refine (Course.Grows.see ..).bind fun content => ?_
    exact (Course.Grows.change _ _ fun _ _ rooted => Disk.keeps_of_fill rooted).bind fun _ =>
      .change _ _ fun _ _ rooted => keeps_of_removeFile rooted
  case handled =>
    exact Course.Grows.bind ⟨fun _ _ rooted => keeps_of_removeFile rooted, fun _ =>
      .pure _⟩ fun _ => trivial

private theorem grows_rewriteFrom [Library] (path copy : Path) (options : Options) :
    (rewriteFrom path copy options).Grows True := by
  unfold rewriteFrom
  refine (Course.Grows.see ..).bind fun content => ?_
  split
  · trivial
  · refine (Course.Grows.change _ _ fun _ _ rooted => Disk.keeps_of_write rooted).bind fun _ => ?_
    refine (Course.Grows.of_asks (OnlyAsks.forM path options _ {})).bind fun (result, built) => ?_
    cases result with
    | error failure =>
      exact Course.Grows.bind ⟨fun _ _ rooted => Disk.keeps_of_fill rooted, fun _ =>
        .pure _⟩ fun _ => trivial
    | ok done =>
      refine (Course.Grows.change _ _ fun _ _ rooted => Disk.keeps_of_fill rooted).bind fun _ => ?_
      split
      · exact .pure _
      · trivial

private theorem grows_course [Library] (path : Path) (options : Options) :
    (course path options).Grows True := by
  unfold course
  refine Course.Grows.disk.bind fun disk => ?_
  split
  · trivial
  · refine (grows_moveAside path).bind fun copy => Course.Grows.store.bind fun store => ?_
    refine Course.Grows.bind (.tryCatch ?replaced fun failure => ?handled) fun summary => ?_
    case replaced =>
      unfold replace
      refine (Course.Grows.setStore _).bind fun _ =>
        (grows_rewriteFrom path copy options).bind fun summary => ?_
      refine Course.Grows.store.bind fun staged => ?_
      split
      · trivial
      · exact (Course.Grows.setStore _).bind fun _ => .pure _
    case handled => exact (Course.Grows.setStore store).bind fun _ => trivial
    exact (Course.Grows.change _ _ fun _ _ rooted => keeps_of_removeFile rooted).bind fun _ =>
      .pure _

end Archive

namespace Instrument

/-- No target takes a directory away. -/
theorem grows_course [Archive.Library] (options : Options) (target : Target) :
    (course options target).Grows True := by
  cases target with
  | archive path => exact (Archive.grows_course path _).bind fun _ => .pure _
  | directory path => exact (ClassTree.grows_course path _).staged.bind fun _ => .pure _

/-- Nor does a crew. -/
theorem keeps_of_advances {rewriter : Rewriter σ} {crew crew' : Crew} {disk disk' : Disk}
    {memory memory' : σ} {history : List (Moment σ)}
    (advances : Advances rewriter crew disk memory history crew' disk' memory')
    (rooted : disk.Rooted) (grows : ∀ worker ∈ crew, worker.course.Grows True) :
    disk.Keeps disk' := by
  induction advances with
  | rest => exact .refl _
  | @step crew _ disk _ memory _ _ number worker course shop found _ stepped _ ih =>
    have member := List.mem_of_getElem? found
    have before : (Workshop.mk disk ⟨worker.store, memory⟩).disk.Rooted := rooted
    have goes := @Course.Grows.step _ _ _ _ rewriter (grows worker member) _ before
    rw [stepped] at goes
    refine goes.1.trans (ih (rooted.keep goes.1) fun other held => ?_)
    rcases List.mem_or_eq_of_mem_set held with old | rfl
    · exact grows other old
    · exact goes.2

theorem grows_ofTargets [Archive.Library] (options : Options) (count : Nat)
    (targets : List Target) :
    ∀ worker ∈ Crew.ofTargets options count targets, worker.course.Grows True := by
  intro worker member
  obtain ⟨number, -, rfl⟩ := List.mem_map.mp member
  exact .foldlM (fun _ target => (grows_course options target).bind fun _ => .pure _) _ _

end Instrument
end ClassCoverage
