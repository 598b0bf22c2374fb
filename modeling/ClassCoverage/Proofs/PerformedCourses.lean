import ClassCoverage.Proofs.CrewRuns
import ClassCoverage.Proofs.UpheldCourses

/-! Courses that are performed among others. The steps of one worker, taken out of the history of
its crew, are those of its course: each was taken on the disk and with the memory that were there at
its moment, and the store was handed on from one to the next. -/
namespace ClassCoverage
open Instrument
variable {α β σ : Type}

/-- A course whose steps were taken at some moments, and what it came to. -/
inductive Course.Performed (rewriter : Rewriter σ) :
    Course α → Store → List (Moment σ) → Except Failure α → Store → Prop where
  | done {outcome : Except Failure α} {store : Store} :
    Performed rewriter (.done outcome) store [] outcome store
  | step {course course' : Course α} {moment : Moment σ} {moments : List (Moment σ)}
    {outcome : Except Failure α}
      {store' : Store} (going : ¬ course.Over)
      (stepped : (course.step rewriter {}).run moment.before = (course', moment.after))
      (later : Performed rewriter course' moment.after.bench.store moments outcome store') :
      Performed rewriter course moment.before.bench.store (moment :: moments) outcome store'

/-- The moments of a worker perform its course. -/
theorem Instrument.Advances.performed {rewriter : Rewriter σ} {crew crew' : Crew}
    {disk disk' : Disk} {memory memory' : σ} {history : List (Moment σ)}
    (advances : Advances rewriter crew disk memory history crew' disk' memory') {number : Nat}
    {worker worker' : Worker} (found : crew[number]? = some worker)
    (found' : crew'[number]? = some worker') {outcome : Except Failure Summary}
    (final : worker'.course = .done outcome) :
    worker.course.Performed rewriter worker.store (history.filter fun moment =>
    moment.worker = number) outcome
      worker'.store := by
  induction advances generalizing worker with
  | rest =>
    cases found.symm.trans found'
    rw [final]
    exact .done
  | @step crew _ disk _ memory _ history other mate course shop held going stepped _ ih =>
    by_cases same : other = number
    · subst same
      cases found.symm.trans held
      have later := ih (List.getElem?_set_self (List.getElem?_eq_some_iff.mp held).1) found'
      rw [List.filter_cons_of_pos (p := fun moment : Moment σ => decide (moment.worker = other))
        (decide_eq_true rfl)]
      let moment : Moment σ := ⟨other, ⟨disk, ⟨mate.store, memory⟩⟩, shop⟩
      have went : (mate.course.step rewriter {}).run moment.before = (course, moment.after) :=
        stepped
      exact .step going went later
    · rw [List.filter_cons_of_neg (by simpa using same)]
      refine ih ?_ found'
      rw [List.getElem?_set_ne same]
      exact found

namespace Course
variable {rewriter : Rewriter σ} {course : Course α} {store store' : Store}
  {moments : List (Moment σ)}

/-- A course that is lost comes to nothing. -/
theorem Lost.not_performed (lost : course.Lost) {value : α} :
    ¬ course.Performed rewriter store moments (.ok value) store' := by
  intro performed
  generalize outcomes : (Except.ok value : Except Failure α) = outcome at performed
  induction performed with
  | done =>
    obtain ⟨failure, rfl⟩ := lost
    cases outcomes
  | @step _ course' moment _ _ _ _ stepped _ ih =>
    have still := lost.step rewriter {} moment.before
    rw [stepped] at still
    exact ih still outcomes

namespace Performed

/-! One step. -/

theorem of_done {outcome outcome' : Except Failure α}
    (performed : (Course.done outcome).Performed rewriter store moments outcome' store') :
    moments = [] ∧ outcome' = outcome ∧ store' = store := by
  cases performed with
  | done => exact ⟨rfl, rfl, rfl⟩
  | step going => exact absurd trivial going

theorem of_pure {value value' : α}
    (performed : (Pure.pure value : Course α).Performed rewriter store moments
      (.ok value') store') :
    moments = [] ∧ value' = value ∧ store' = store := by
  obtain ⟨none, same, kept⟩ := of_done performed
  exact ⟨none, Except.ok.inj same, kept⟩

theorem of_step {outcome : Except Failure α} (going : ¬ course.Over)
    (performed : course.Performed rewriter store moments outcome store') :
    ∃ moment rest, moments = moment :: rest ∧ moment.before.bench.store = store ∧
      moment.after = ((course.step rewriter {}).run moment.before).2 ∧
      ((course.step rewriter {}).run moment.before).1.Performed rewriter
        moment.after.bench.store rest outcome
        store' := by
  cases performed with
  | done => exact absurd trivial going
  | @step _ course' moment rest _ _ _ stepped later =>
    refine ⟨moment, rest, rfl, rfl, ?_, ?_⟩
    · rw [stepped]
    · rwa [stepped]

theorem of_watch {next : Disk → Course α} {outcome : Except Failure α}
    (performed : (watch next).Performed rewriter store moments outcome store') :
    ∃ moment rest, moments = moment :: rest ∧
      (next moment.before.disk).Performed rewriter store rest outcome store' := by
  obtain ⟨moment, rest, rfl, rfl, went, later⟩ := of_step id performed
  refine ⟨moment, rest, rfl, ?_⟩
  rwa [went] at later

theorem of_act {operation : String} {path : Path} {change : Disk → Except Fault Disk}
    {next : Except Fault Disk → Course α} {outcome : Except Failure α}
    (performed : (act operation path change next).Performed rewriter store moments outcome store') :
    ∃ moment rest, moments = moment :: rest ∧
      ((change moment.before.disk = .ok moment.after.disk ∧
          (next (.ok moment.before.disk)).Performed rewriter store rest outcome store') ∨
        ∃ fault, change moment.before.disk = .error fault ∧
          (next (.error fault)).Performed rewriter store rest outcome store') := by
  obtain ⟨moment, rest, rfl, rfl, went, later⟩ := of_step id performed
  refine ⟨moment, rest, rfl, ?_⟩
  rw [went] at later ⊢
  unfold Course.step at later ⊢
  simp only [StateT.run_bind, StateT.run_get, pure_bind, System.attempt_of_default] at later ⊢
  cases changed : change moment.before.disk with
  | ok disk' =>
    simp only [changed] at later
    exact .inl ⟨rfl, later⟩
  | error fault =>
    simp only [changed] at later
    exact .inr ⟨fault, rfl, later⟩

theorem of_keep {change : Store → Store} {next : Store → Course α} {outcome : Except Failure α}
    (performed : (keep change next).Performed rewriter store moments outcome store') :
    ∃ moment rest, moments = moment :: rest ∧
      (next store).Performed rewriter (change store) rest outcome store' := by
  obtain ⟨moment, rest, rfl, rfl, went, later⟩ := of_step id performed
  refine ⟨moment, rest, rfl, ?_⟩
  rwa [went] at later

theorem of_offer {name : String} {content : Bytes} {next : Except Failure Rewritten → Course α}
    {outcome : Except Failure α}
    (performed : (offer name content next).Performed rewriter store moments outcome store') :
    ∃ moment rest, moments = moment :: rest ∧ moment.before.bench.store = store ∧
      moment.after.bench = ((rewriter name content).run.run moment.before.bench).2 ∧
      (next ((rewriter name content).run.run moment.before.bench).1).Performed rewriter
        moment.after.bench.store rest
        outcome store' := by
  obtain ⟨moment, rest, rfl, rfl, went, later⟩ := of_step id performed
  exact ⟨moment, rest, rfl, rfl, congrArg Workshop.bench went, later⟩

end Performed

/-! One course after another. -/

private theorem step_bind (going : ¬ course.Over) (next : α → Course β) (shop : Workshop σ) :
    ((course >>= next).step rewriter {}).run shop =
      (((course.step rewriter {}).run shop).1 >>=
        next, ((course.step rewriter {}).run shop).2) := by
  cases course with
  | done outcome => exact absurd trivial going
  | act operation path change rest =>
    change ((act operation path change fun result =>
      (rest result).bind next).step rewriter {}).run shop = _
    unfold Course.step
    simp only [StateT.run_bind, StateT.run_get, pure_bind, System.attempt_of_default]
    cases change shop.disk <;> rfl
  | _ => rfl

private theorem step_tryCatch (going : ¬ course.Over) (handler : Failure → Course α)
    (shop : Workshop σ) :
    ((tryCatch course handler).step rewriter {}).run shop =
      (tryCatch ((course.step rewriter {}).run shop).1 handler,
      ((course.step rewriter {}).run shop).2) := by
  cases course with
  | done outcome => exact absurd trivial going
  | act operation path change rest =>
    change ((act operation path change fun result => (rest result).tryCatch handler).step
      rewriter {}).run shop = _
    unfold Course.step
    simp only [StateT.run_bind, StateT.run_get, pure_bind, System.attempt_of_default]
    cases change shop.disk <;> rfl
  | _ => rfl

theorem Over.eq_done (ended : course.Over) : ∃ outcome, course = done outcome := by
  cases course with
  | done outcome => exact ⟨outcome, rfl⟩
  | _ => exact ended.elim

private theorem over_of_bind {next : α → Course β}
    (ended : (course >>= next).Over) : course.Over := by
  cases course with
  | done outcome => trivial
  | _ => exact ended

private theorem over_of_tryCatch {handler : Failure → Course α}
    (ended : (tryCatch course handler).Over) : course.Over := by
  cases course with
  | done outcome => trivial
  | _ => exact ended

namespace Performed

private theorem split_of_over {next : α → Course β} {value : β} (ended : course.Over)
    (performed : (course >>= next).Performed rewriter store moments (.ok value) store') :
    ∃ front back middle own, moments = front ++ back ∧
      course.Performed rewriter store front (.ok middle) own ∧
      (next middle).Performed rewriter own back (.ok value) store' := by
  obtain ⟨outcome, rfl⟩ := ended.eq_done
  cases outcome with
  | ok middle => exact ⟨[], moments, middle, store, rfl, .done, performed⟩
  | error failure => cases (of_done performed).2.1

/-- The performance of two courses is one of the first and one of the second. -/
theorem of_bind {next : α → Course β} {value : β}
    (performed : (course >>= next).Performed rewriter store moments (.ok value) store') :
    ∃ front back middle own, moments = front ++ back ∧
      course.Performed rewriter store front (.ok middle) own ∧
      (next middle).Performed rewriter own back (.ok value) store' := by
  induction moments generalizing course store with
  | nil =>
    refine split_of_over (not_not.mp fun going => ?_) performed
    obtain ⟨_, _, none, -⟩ := of_step (mt over_of_bind going) performed
    cases none
  | cons moment moments ih =>
    by_cases ended : course.Over
    · exact split_of_over ended performed
    · obtain ⟨_, _, same, rfl, went, later⟩ := of_step (mt over_of_bind ended) performed
      cases same
      rw [step_bind ended] at went later
      obtain ⟨front, back, middle, own, rfl, first, second⟩ := ih later
      exact ⟨moment :: front, back, middle, own, rfl,
        .step ended (Prod.ext rfl went.symm) first, second⟩

private theorem untroubled_of_over {handler : Failure → Course α}
    (handled : ∀ failure, (handler failure).Lost) {value : α} (ended : course.Over)
    (performed : (tryCatch course handler).Performed rewriter store moments (.ok value) store') :
    course.Performed rewriter store moments (.ok value) store' := by
  obtain ⟨outcome, rfl⟩ := ended.eq_done
  cases outcome with
  | ok middle => exact performed
  | error failure => exact absurd performed (handled failure).not_performed

/-- A handler that fails again has not been needed. -/
theorem of_tryCatch {handler : Failure → Course α}
    (handled : ∀ failure, (handler failure).Lost) {value : α}
    (performed : (tryCatch course handler).Performed rewriter store moments (.ok value) store') :
    course.Performed rewriter store moments (.ok value) store' := by
  induction moments generalizing course store with
  | nil =>
    refine untroubled_of_over handled (not_not.mp fun going => ?_) performed
    obtain ⟨_, _, none, -⟩ := of_step (mt over_of_tryCatch going) performed
    cases none
  | cons moment moments ih =>
    by_cases ended : course.Over
    · exact untroubled_of_over handled ended performed
    · obtain ⟨_, _, same, rfl, went, later⟩ := of_step (mt over_of_tryCatch ended) performed
      cases same
      rw [step_tryCatch ended] at went later
      exact .step ended (Prod.ext rfl went.symm) (ih later)

/-! The operations of a course. -/

theorem of_ofAnswer {operation : String} {path : Path} {answer : Except Fault α} {value : α}
    (performed : (ofAnswer operation path answer).Performed rewriter store moments
      (.ok value) store') :
    moments = [] ∧ answer = .ok value ∧ store' = store := by
  cases answer with
  | ok other =>
    obtain ⟨none, same, kept⟩ := of_pure performed
    exact ⟨none, congrArg Except.ok same.symm, kept⟩
  | error fault => cases (of_done performed).2.1

theorem of_change {operation : String} {path : Path}
    {step : Disk → Except Fault Disk} {value : Unit}
    (performed : (Course.change operation path step).Performed rewriter store moments
      (.ok value) store') :
    ∃ moment, moments = [moment] ∧ step moment.before.disk =
      .ok moment.after.disk ∧ store' = store := by
  obtain ⟨moment, rest, rfl, ⟨changed, later⟩ | ⟨fault, -, later⟩⟩ := of_act performed
  · obtain ⟨rfl, -, rfl⟩ := of_ofAnswer later
    exact ⟨moment, rfl, changed, rfl⟩
  · cases (of_ofAnswer later).2.1

theorem of_see {operation : String} {path : Path} {view : Disk → Except Fault α} {value : α}
    (performed : (Course.see operation path view).Performed rewriter store moments
      (.ok value) store') :
    ∃ moment, moments = [moment] ∧ view moment.before.disk = .ok value ∧ store' = store := by
  obtain ⟨moment, rest, rfl, ⟨-, later⟩ | ⟨fault, -, later⟩⟩ := of_act performed
  · obtain ⟨rfl, seen, rfl⟩ := of_ofAnswer later
    exact ⟨moment, rfl, seen, rfl⟩
  · cases (of_ofAnswer later).2.1

theorem of_disk {disk : Disk}
    (performed : Course.disk.Performed rewriter store moments (.ok disk) store') :
    ∃ moment, moments = [moment] ∧ disk = moment.before.disk ∧ store' = store := by
  obtain ⟨moment, rest, rfl, later⟩ := of_watch performed
  obtain ⟨rfl, same, rfl⟩ := of_pure later
  exact ⟨moment, rfl, same, rfl⟩

theorem of_store {own : Store}
    (performed : Course.store.Performed rewriter store moments (.ok own) store') :
    ∃ moment, moments = [moment] ∧ own = store ∧ store' = store := by
  obtain ⟨moment, rest, rfl, later⟩ := of_keep performed
  obtain ⟨rfl, same, rfl⟩ := of_pure later
  exact ⟨moment, rfl, same, rfl⟩

theorem of_setStore {own : Store} {value : Unit}
    (performed : (Course.setStore own).Performed rewriter store moments (.ok value) store') :
    ∃ moment, moments = [moment] ∧ store' = own := by
  obtain ⟨moment, rest, rfl, later⟩ := of_keep performed
  obtain ⟨rfl, -, rfl⟩ := of_pure later
  exact ⟨moment, rfl, rfl⟩

end Performed
end Course
end ClassCoverage
