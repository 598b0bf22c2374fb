import ClassCoverage.Course
import ClassCoverage.Proofs.StepRuns
import ClassCoverage.Proofs.DiskFiles

/-! Courses that are carried out without a break. One that only works on the disk leads from one
disk to another, whatever the rewriter and its bench are. -/
namespace ClassCoverage
variable {α β σ : Type}

@[simp] theorem System.attempt_of_default (operation : String) (path : Path)
    (change : Disk → Except Fault Disk) (disk : Disk) :
    ({} : System).attempt operation path change disk = change disk := rfl

/-- Some operation is refused. -/
def System.Refuses (system : System) : Prop :=
  ∃ operation path disk fault, system.refuses operation path disk = some fault

theorem System.not_refuses_of_default : ¬ ({} : System).Refuses := by
  rintro ⟨_, _, _, _, refused⟩
  cases refused

theorem System.of_attempt_error {system : System} {operation : String} {path : Path}
    {change : Disk → Except Fault Disk} {disk : Disk} {fault : Fault}
    (attempted : system.attempt operation path change disk = .error fault) :
    system.Refuses ∨ change disk = .error fault := by
  unfold attempt at attempted
  split at attempted
  · rename_i refused
    exact .inl ⟨_, _, _, _, refused⟩
  · exact .inr attempted

theorem System.of_attempt_ok {system : System} {operation : String} {path : Path}
    {change : Disk → Except Fault Disk} {disk disk' : Disk}
    (attempted : system.attempt operation path change disk = .ok disk') :
    change disk = .ok disk' := by
  unfold attempt at attempted
  split at attempted
  · cases attempted
  · exact attempted

namespace Course
variable {rewriter : Rewriter σ} {system : System} {shop : Workshop σ}

theorem run_act (operation : String) (path : Path) (change : Disk → Except Fault Disk)
    (next : Except Fault Disk → Course α) (rewriter : Rewriter σ) (system : System)
    (shop : Workshop σ) :
    ((act operation path change next).carryOut rewriter system).run.run shop =
      match system.attempt operation path change shop.disk with
      | .ok disk =>
        ((next (.ok shop.disk)).carryOut rewriter system).run.run { shop with disk := disk }
      | .error fault => ((next (.error fault)).carryOut rewriter system).run.run shop := by
  rw [carryOut, Steps.run_bind, Steps.run_get]
  simp only
  cases system.attempt operation path change shop.disk with
  | ok disk => rfl
  | error fault => rfl

theorem run_bind (course : Course α) (next : α → Course β) (rewriter : Rewriter σ) (system : System)
    (shop : Workshop σ) :
    ((course >>= next).carryOut rewriter system).run.run shop =
      match (course.carryOut rewriter system).run.run shop with
      | (.ok value, shop) => ((next value).carryOut rewriter system).run.run shop
      | (.error failure, shop) => (.error failure, shop) := by
  change ((course.bind next).carryOut rewriter system).run.run shop = _
  induction course generalizing shop with
  | done outcome => cases outcome <;> rfl
  | watch rest ih => exact ih shop.disk shop
  | act operation path change rest ih =>
    rw [Course.bind, run_act, run_act]
    cases system.attempt operation path change shop.disk with
    | ok disk => exact ih (.ok shop.disk) _
    | error fault => exact ih (.error fault) _
  | keep change rest ih => exact ih shop.bench.store _
  | offer name content rest ih => exact ih _ _

/-- A handler takes over where the course that failed left off. -/
theorem run_tryCatch (course : Course α) (handler : Failure → Course α) (rewriter : Rewriter σ)
    (system : System) (shop : Workshop σ) :
    ((tryCatch course handler).carryOut rewriter system).run.run shop =
      match (course.carryOut rewriter system).run.run shop with
      | (.ok value, shop) => (.ok value, shop)
      | (.error failure, shop) => ((handler failure).carryOut rewriter system).run.run shop := by
  change ((course.tryCatch handler).carryOut rewriter system).run.run shop = _
  induction course generalizing shop with
  | done outcome => cases outcome <;> rfl
  | watch rest ih => exact ih shop.disk shop
  | act operation path change rest ih =>
    rw [Course.tryCatch, run_act, run_act]
    cases system.attempt operation path change shop.disk with
    | ok disk => exact ih (.ok shop.disk) _
    | error fault => exact ih (.error fault) _
  | keep change rest ih => exact ih shop.bench.store _
  | offer name content rest ih => exact ih _ _

/-- A course that succeeded is made of two that did. -/
theorem run_bind_ok {course : Course α} {next : α → Course β} {shop after : Workshop σ} {value : β}
    (run : ((course >>= next).carryOut rewriter system).run.run shop = (.ok value, after)) :
    ∃ first middle, (course.carryOut rewriter system).run.run shop = (.ok first, middle) ∧
      ((next first).carryOut rewriter system).run.run middle = (.ok value, after) := by
  rw [run_bind] at run
  cases result : (course.carryOut rewriter system).run.run shop with
  | mk outcome middle => cases outcome with
    | error failure =>
      rw [result] at run
      cases run
    | ok first =>
      rw [result] at run
      exact ⟨first, middle, rfl, run⟩

theorem run_disk (rewriter : Rewriter σ) (system : System) (shop : Workshop σ) :
    (disk.carryOut rewriter system).run.run shop = (.ok shop.disk, shop) := rfl

theorem run_store (rewriter : Rewriter σ) (system : System) (shop : Workshop σ) :
    (store.carryOut rewriter system).run.run shop = (.ok shop.bench.store, shop) := rfl

theorem run_setStore (store : Store) (rewriter : Rewriter σ) (system : System) (shop : Workshop σ) :
    ((setStore store).carryOut rewriter system).run.run shop =
      (.ok (), { shop with bench := { shop.bench with store := store } }) := rfl

theorem run_ask (name : String) (content : Bytes) (rewriter : Rewriter σ) (system : System)
    (shop : Workshop σ) :
    ((ask name content).carryOut rewriter system).run.run shop =
      (((rewriter name content).run.run shop.bench).1,
        { shop with bench := ((rewriter name content).run.run shop.bench).2 }) := rfl

theorem run_ofAnswer (operation : String) (path : Path) (answer : Except Fault α)
    (rewriter : Rewriter σ) (system : System) (shop : Workshop σ) :
    ((ofAnswer operation path answer).carryOut rewriter system).run.run shop =
      (answer.mapError fun fault => .io operation (some path) (some fault), shop) := by
  cases answer <;> rfl

theorem run_change (operation : String) (path : Path) (step : Disk → Except Fault Disk)
    (rewriter : Rewriter σ) (system : System) (shop : Workshop σ) :
    ((change operation path step).carryOut rewriter system).run.run shop =
      match system.attempt operation path step shop.disk with
      | .ok disk => (.ok (), { shop with disk := disk })
      | .error fault => (.error (.io operation (some path) (some fault)), shop) := by
  unfold change
  rw [run_act]
  cases system.attempt operation path step shop.disk <;> rfl

private theorem run_changeIfPossible (operation : String) (path : Path)
    (step : Disk → Except Fault Disk) (rewriter : Rewriter σ) (system : System)
      (shop : Workshop σ) :
    ((changeIfPossible operation path step).carryOut rewriter system).run.run shop =
      match system.attempt operation path step shop.disk with
      | .ok disk => (.ok (), { shop with disk := disk })
      | .error _ => (.ok (), shop) := by
  unfold changeIfPossible
  rw [run_act]
  cases system.attempt operation path step shop.disk <;> rfl

theorem run_see (operation : String) (path : Path) (view : Disk → Except Fault α)
    (rewriter : Rewriter σ) (shop : Workshop σ) :
    ((see operation path view).carryOut rewriter).run.run shop =
      ((view shop.disk).mapError fun fault => .io operation (some path) (some fault), shop) := by
  unfold see
  rw [run_act]
  simp only [System.attempt_of_default]
  cases seen : view shop.disk with
  | ok value =>
    simp only [Except.map]
    rw [run_ofAnswer]
    simp only [Except.bind, seen]
  | error fault => rfl

/-- An operation is either carried out, or fails and changes nothing. -/
theorem change_cases (operation : String) (path : Path) (step : Disk → Except Fault Disk)
    (rewriter : Rewriter σ) (system : System) (shop : Workshop σ) :
    (∃ disk', step shop.disk = .ok disk' ∧
      ((change operation path step).carryOut rewriter system).run.run shop =
        (.ok (), { shop with disk := disk' })) ∨
    ∃ fault, ((change operation path step).carryOut rewriter system).run.run shop =
        (.error (.io operation (some path) (some fault)), shop) ∧
      (system.Refuses ∨ step shop.disk = .error fault) := by
  rw [run_change]
  cases attempted : system.attempt operation path step shop.disk with
  | ok disk' => exact .inl ⟨disk', System.of_attempt_ok attempted, rfl⟩
  | error fault => exact .inr ⟨fault, rfl, System.of_attempt_error attempted⟩

theorem changeIfPossible_cases (operation : String) (path : Path) (step : Disk → Except Fault Disk)
    (rewriter : Rewriter σ) (system : System) (shop : Workshop σ) :
    ∃ disk', ((changeIfPossible operation path step).carryOut rewriter system).run.run shop =
        (.ok (), { shop with disk := disk' }) ∧
      (step shop.disk = .ok disk' ∨ disk' = shop.disk) := by
  rw [run_changeIfPossible]
  cases attempted : system.attempt operation path step shop.disk with
  | ok disk' => exact ⟨disk', rfl, .inl (System.of_attempt_ok attempted)⟩
  | error fault => exact ⟨shop.disk, rfl, .inr rfl⟩

theorem see_cases (operation : String) (path : Path) (view : Disk → Except Fault α)
    (rewriter : Rewriter σ) (system : System) (shop : Workshop σ) :
    (∃ value, view shop.disk = .ok value ∧
      ((see operation path view).carryOut rewriter system).run.run shop = (.ok value, shop)) ∨
    ∃ fault, ((see operation path view).carryOut rewriter system).run.run shop =
        (.error (.io operation (some path) (some fault)), shop) ∧
      (system.Refuses ∨ view shop.disk = .error fault) := by
  unfold see
  rw [run_act]
  cases attempted : system.attempt operation path (fun disk => (view disk).map fun _ => disk)
      shop.disk with
  | error fault =>
    refine .inr ⟨fault, rfl, (System.of_attempt_error attempted).imp_right fun failed => ?_⟩
    cases found : view shop.disk with
    | ok value =>
      rw [found] at failed
      cases failed
    | error fault' =>
      rw [found] at failed
      cases failed
      rfl
  | ok disk' =>
    have seen := System.of_attempt_ok attempted
    cases found : view shop.disk with
    | error fault =>
      rw [found] at seen
      cases seen
    | ok value =>
      rw [found] at seen
      cases seen
      refine .inl ⟨value, rfl, ?_⟩
      simp only [run_ofAnswer, Except.bind, found]
      rfl

/-! A course that only works on the disk. -/

/-- The course leads from one disk to another, and leaves the bench as it is. -/
structure Leads (course : Course α) (disk : Disk) (outcome : Except Failure α) (disk' : Disk) :
    Prop where
  run : ∀ {σ : Type} (rewriter : Rewriter σ) (bench : Bench σ),
    (course.carryOut rewriter).run.run ⟨disk, bench⟩ = (outcome, ⟨disk', bench⟩)

namespace Leads
variable {course : Course α} {disk disk' disk'' : Disk} {operation : String} {path : Path}

theorem pure (value : α) (disk : Disk) : Leads (Pure.pure value) disk (.ok value) disk :=
  ⟨fun _ _ => rfl⟩

theorem bind {next : α → Course β} {value : α} {outcome : Except Failure β}
    (first : Leads course disk (.ok value) disk')
      (later : Leads (next value) disk' outcome disk'') :
    Leads (course >>= next) disk outcome disk'' where
  run rewriter bench := by
    rw [run_bind, first.run]
    exact later.run rewriter bench

theorem stop {next : α → Course β} {failure : Failure}
    (first : Leads course disk (.error failure) disk') :
    Leads (course >>= next) disk (.error failure) disk' where
  run rewriter bench := by rw [run_bind, first.run]

theorem change {step : Disk → Except Fault Disk} (done : step disk = .ok disk') :
    Leads (Course.change operation path step) disk (.ok ()) disk' where
  run rewriter bench := by
    rw [run_change, System.attempt_of_default]
    simp only [done]

theorem refuse {step : Disk → Except Fault Disk} {fault : Fault}
    (refused : step disk = .error fault) :
    Leads (Course.change operation path step) disk (.error (.io operation (some path) (some fault)))
      disk where
  run rewriter bench := by
    rw [run_change, System.attempt_of_default]
    simp only [refused]

theorem see {view : Disk → Except Fault α} {value : α} (seen : view disk = .ok value) :
    Leads (Course.see operation path view) disk (.ok value) disk where
  run rewriter bench := by
    rw [run_see, seen]
    rfl

theorem overlook {view : Disk → Except Fault α} {fault : Fault}
    (missed : view disk = .error fault) :
    Leads (Course.see operation path view) disk (.error (.io operation (some path) (some fault)))
      disk where
  run rewriter bench := by
    rw [run_see, missed]
    rfl

theorem look {next : Disk → Course α} {outcome : Except Failure α}
    (leads : Leads (next disk) disk outcome disk') :
    Leads (Course.disk >>= next) disk outcome disk' where
  run rewriter bench := leads.run rewriter bench

/-- Steps that leave the disk as it is. -/
theorem foldlM {β : Type} {step : α → β → Course α} {answer : α → β → α} {items : List β}
    (each : ∀ value, ∀ item ∈ items, Leads (step value item) disk (.ok (answer value item)) disk)
    (value : α) : Leads (items.foldlM step value) disk (.ok (items.foldl answer value)) disk := by
  induction items generalizing value with
  | nil => exact .pure value disk
  | cons item items ih =>
    rw [List.foldlM_cons, List.foldl_cons]
    apply (each value item (List.mem_cons_self ..)).bind
    exact ih (fun value other member => each value other (List.mem_cons_of_mem item member)) _

/-- What a course does on a disk is what it leads to. -/
theorem run_eq {outcome : Except Failure α} (leads : Leads course disk outcome disk')
    (rewriter : Rewriter σ) {shop : Workshop σ} (here : shop.disk = disk) :
    (course.carryOut rewriter).run.run shop = (outcome, { shop with disk := disk' }) := by
  subst here
  exact leads.run rewriter shop.bench

end Leads

end Course

namespace Disk
variable {disk : Disk} {path : Path} {place : Place}

namespace Lands

theorem fill (lands : Lands disk path place) {old : Bytes}
    (file : disk.kind? place = some (.file old)) (content : Bytes) :
    disk.fill path content = .ok (disk.putFile (content ++ old.drop content.length) place) := by
  unfold Disk.fill
  simp only [lands.resolve file, at?_eq_file_iff.mpr file]

theorem size (lands : Lands disk path place) {content : Bytes}
    (file : disk.kind? place = some (.file content)) : disk.size path = .ok content.length := by
  unfold Disk.size
  rw [lands.read file]
  rfl

end Lands

/-- A file that is emptied and then filled holds what it was filled with. -/
theorem Updated.fill {made : Disk} (emptied : Updated disk made place (some (.file [])))
    (lands : Lands disk path place) (rooted : Rooted disk) (content : Bytes) :
    ∃ filled, made.fill path content = .ok filled ∧
      Updated disk filled place (some (.file content)) := by
  have landsAgain := lands.keep emptied.keeps
  have there : made.kind? place ≠ some .directory := by simp [emptied.here]
  have written := landsAgain.written (rooted.keep emptied.keeps) there content
  refine ⟨made.putFile content place, ?_, ?_⟩
  · have filled := landsAgain.fill emptied.here content
    rwa [List.drop_nil, List.append_nil] at filled
  · refine ⟨written.workPlace.trans emptied.workPlace, emptied.free, by simp, fun other => ?_⟩
    rw [written.kinds, emptied.kinds]
    split <;> rfl

/-- A file is written in two steps. -/
theorem Lands.leads_write (lands : Lands disk path place) (rooted : Rooted disk)
    (free : disk.kind? place ≠ some .directory) (operation : String) (content : Bytes) :
    ∃ disk', Course.Leads (Course.write operation path content) disk (.ok ()) disk' ∧
      Updated disk disk' place (some (.file content)) := by
  have emptied := lands.written rooted free []
  obtain ⟨filled, fills, updated⟩ := emptied.fill lands rooted content
  exact ⟨filled, Course.Leads.bind (.change (lands.write free [])) (.change fills), updated⟩

end Disk
end ClassCoverage
