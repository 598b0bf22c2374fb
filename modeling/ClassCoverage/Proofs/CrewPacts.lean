import ClassCoverage.Proofs.CrewRuns
import ClassCoverage.Proofs.UpheldCourses
import Mathlib.Logic.Function.Basic

/-! Crews whose workers keep to a pact. Every worker has its part of what is on the disk, and what
it does to its part goes well with those of the others. So all of them get through, or some of them
fail and the run was blocked from the start. -/
namespace ClassCoverage.Instrument
variable {σ κ : Type}

/-- What the part of one worker is to the disk, with the parts of all workers. -/
def pactOf (joint : (Nat → κ) → Disk → Prop) (number : Nat) : Pact κ (Nat → κ) :=
  fun own parts disk => joint (Function.update parts number own) disk

/-- Every worker upholds the pact from here on. -/
structure Sound (rewriter : Rewriter σ) (joint : (Nat → κ) → Disk → Prop) (blocked : Prop)
    (post : Nat → Summary → κ → Store → Prop) (crew : Crew) (parts : Nat → κ) (disk : Disk) :
    Prop where
  holds : joint parts disk
  upholds : ∀ (number : Nat) (worker : Worker), crew[number]? = some worker →
    worker.course.Upholds rewriter (pactOf joint number) blocked (post number)
      (parts number) worker.store

/-- Some worker will fail, as it may. -/
def Stuck (blocked : Prop) (crew : Crew) : Prop :=
  blocked ∧ ∃ (number : Nat) (worker : Worker), crew[number]? = some worker ∧ worker.course.Lost

variable {rewriter : Rewriter σ} {joint : (Nat → κ) → Disk → Prop} {blocked : Prop}
  {post : Nat → Summary → κ → Store → Prop} {crew crew' : Crew} {parts : Nat →
  κ} {disk disk' : Disk}
  {memory memory' : σ} {history : List (Moment σ)}

/-- A worker that will fail will fail after any steps. -/
theorem Stuck.advances (stuck : Stuck blocked crew)
    (advances : Advances rewriter crew disk memory history crew' disk' memory') :
    Stuck blocked crew' := by
  induction advances with
  | rest => exact stuck
  | @step crew _ disk _ memory _ _ number worker course shop found _ stepped _ ih =>
    apply ih
    obtain ⟨block, other, mate, held, lost⟩ := stuck
    refine ⟨block, other, ?_⟩
    by_cases same : number = other
    · subst same
      rw [found] at held
      cases held
      have still := lost.step rewriter {} ⟨disk, ⟨worker.store, memory⟩⟩
      rw [stepped] at still
      exact ⟨_, List.getElem?_set_self (List.getElem?_eq_some_iff.mp found).1, still⟩
    · rw [List.getElem?_set_ne same]
      exact ⟨mate, held, lost⟩

theorem Sound.advances (sound : Sound rewriter joint blocked post crew parts disk)
    (advances : Advances rewriter crew disk memory history crew' disk' memory') :
    Stuck blocked crew' ∨ ∃ parts', Sound rewriter joint blocked post crew' parts' disk' := by
  induction advances generalizing parts with
  | rest => exact .inr ⟨parts, sound⟩
  | @step crew _ disk _ memory _ _ number worker course shop found _ stepped later ih =>
    have inside := (List.getElem?_eq_some_iff.mp found).1
    have holds : pactOf joint number (parts number) parts disk := by
      unfold pactOf
      rw [Function.update_eq_self]
      exact sound.holds
    have goes := (sound.upholds number worker found).step holds memory
    rw [stepped] at goes
    rcases goes with ⟨lost, block⟩ | ⟨own, holds', upholds⟩
    · exact .inl (Stuck.advances ⟨block, number, _, List.getElem?_set_self inside, lost⟩ later)
    · have sound' : Sound rewriter joint blocked post (crew.set number ⟨course, shop.bench.store⟩)
          (Function.update parts number own) shop.disk := by
        refine ⟨holds', fun other mate held => ?_⟩
        by_cases same : number = other
        · subst same
          rw [List.getElem?_set_self inside] at held
          cases held
          rw [Function.update_self]
          exact upholds
        · rw [List.getElem?_set_ne same] at held
          rw [Function.update_of_ne (Ne.symm same)]
          exact sound.upholds other mate held
      exact ih sound'

/-! The end of a run. -/

theorem mapM_id_of_error {results : List (Except Failure (Store × Summary))} {failure : Failure}
    (member : .error failure ∈ results) : ∃ failure, results.mapM id = .error failure := by
  induction results with
  | nil => cases member
  | cons result results ih =>
    rw [List.mapM_cons]
    cases result with
    | error other => exact ⟨other, rfl⟩
    | ok answer =>
      rcases List.mem_cons.mp member with same | later
      · cases same
      · obtain ⟨failure, failed⟩ := ih later
        rw [failed]
        exact ⟨failure, rfl⟩

theorem mapM_id_of_ok (answers : List (Store × Summary)) :
    (answers.map Except.ok).mapM (id : Except Failure (Store × Summary) → _) = .ok answers := by
  induction answers with
  | nil => rfl
  | cons answer answers ih =>
    rw [List.map_cons, List.mapM_cons, ih]
    rfl

/-- Some worker has failed, or all of them have something to answer. -/
theorem ended_cases {results : List (Except Failure (Store × Summary))}
    (ended : List.Forall₂ Worker.Ended crew results) :
    (∃ (number : Nat) (worker : Worker) (failure : Failure), crew[number]? = some worker ∧
      worker.course = .done (.error failure) ∧
      .error failure ∈ results) ∨
    ∃ answers : List (Store × Summary), results = answers.map .ok ∧ answers.length = crew.length ∧
      ∀ (number : Nat) store summary, answers[number]? = some (store, summary) →
        crew[number]? = some ⟨.done (.ok summary), store⟩ := by
  induction ended with
  | nil => exact .inr ⟨[], rfl, rfl, by simp⟩
  | @cons worker result crew results first _ ih =>
    obtain ⟨outcome, final, rfl⟩ := first
    cases outcome with
    | error failure => exact .inl ⟨0, worker, failure, rfl, final, List.mem_cons_self ..⟩
    | ok summary =>
      rcases ih with ⟨number, mate, failure, held, failed, member⟩ | ⟨answers, rfl, length, own⟩
      · exact .inl ⟨number + 1, mate, failure, held, failed, List.mem_cons_of_mem _ member⟩
      · refine .inr ⟨(worker.store, summary) :: answers, rfl, by simp [length], fun number => ?_⟩
        cases number with
        | zero =>
          intro store summary' same
          cases same
          rw [List.getElem?_cons_zero, ← final]
        | succ number => exact own number

/-- A crew that keeps to a pact gets through, or was blocked. -/
theorem Sound.finish {shop : Workshop σ}
    (sound : Sound rewriter joint blocked post crew parts shop.disk) (turns : List Nat)
    {results : List (Except Failure (Store × Summary))} {shop' : Workshop σ}
    (finished : (crew.finish rewriter turns).run shop = (results, shop')) :
    (blocked ∧ ∃ failure, results.mapM id = .error failure) ∨
      ∃ (answers : List (Store × Summary)) (parts' : Nat → κ), results.mapM id = .ok answers ∧
        answers.length = crew.length ∧ joint parts' shop'.disk ∧
        ∀ (number : Nat) store summary, answers[number]? = some (store, summary) →
          post number summary (parts' number) store := by
  obtain ⟨history, crew', advances, ended⟩ := advances_of_finish rewriter turns crew shop
  rw [finished] at advances ended
  rcases sound.advances advances with ⟨block, number, worker, held, lost⟩ | ⟨parts', goes⟩
  · rcases ended_cases ended with ⟨_, _, _, _, _, member⟩ | ⟨answers, rfl, length, own⟩
    · exact .inl ⟨block, mapM_id_of_error member⟩
    · -- A worker that will fail has nothing to answer.
      have inside : number < answers.length := length ▸ (List.getElem?_eq_some_iff.mp held).1
      have same := own number answers[number].1 answers[number].2 (List.getElem?_eq_getElem inside)
      rw [held] at same
      cases same
      obtain ⟨failure, impossible⟩ := lost
      cases impossible
  · rcases ended_cases ended with ⟨number, worker, failure, held, failed,
      member⟩ | ⟨answers, rfl, length, own⟩
    · have block := goes.upholds number worker held
      rw [failed] at block
      exact .inl ⟨block, mapM_id_of_error member⟩
    · refine .inr ⟨answers, parts', mapM_id_of_ok answers,
        length.trans advances.length, goes.holds, ?_⟩
      intro number store summary answered
      exact goes.upholds number _ (own number store summary answered)

end ClassCoverage.Instrument
