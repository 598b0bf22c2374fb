import ClassCoverage.Instrument
import ClassCoverage.Proofs.CourseRuns
import Mathlib.Algebra.BigOperators.Group.List.Basic
import Mathlib.Data.List.Flatten
import Mathlib.Data.List.Induction
import Mathlib.Data.List.Nodup

/-! Runs of a crew. Whatever turns its workers take, a crew goes on by one step of one worker after
another, until every worker has come to the end of its course. -/
namespace ClassCoverage

/-- A run of a course is a step and the run of what is left. -/
theorem Course.run_step {α σ : Type} (course : Course α) (rewriter : Rewriter σ)
    (shop : Workshop σ) :
    (course.carryOut rewriter).run.run shop =
      ((((course.step rewriter {}).run shop).1).carryOut rewriter).run.run
        ((course.step rewriter {}).run shop).2 := by
  cases course with
  | done outcome => rfl
  | watch next => rfl
  | act operation path change next =>
    rw [run_act]
    unfold Course.step
    simp only [StateT.run_bind, StateT.run_get, pure_bind, System.attempt_of_default]
    cases change shop.disk <;> rfl
  | keep change next => rfl
  | offer name content next => rfl

/-- A course that has come to its end. -/
def Course.Over {α : Type} : Course α → Prop
  | done _ => True
  | _ => False

namespace Instrument
variable {σ : Type}

/-! Dealing out. -/

private theorem perm_cons_flatMap {α : Type} {numbers : List Nat} (distinct : numbers.Nodup)
    {number : Nat} (member : number ∈ numbers) (item : α) (hand : Nat → List α) :
    (numbers.flatMap fun other => if number = other then item :: hand other else hand other).Perm
      (item :: numbers.flatMap hand) := by
  induction numbers with
  | nil => cases member
  | cons first rest ih =>
    obtain ⟨apart, distinct⟩ := List.nodup_cons.mp distinct
    rw [List.flatMap_cons, List.flatMap_cons]
    by_cases same : number = first
    · have others :
          (rest.flatMap fun other => if number = other then item :: hand other else hand other) =
          rest.flatMap hand := by
        refine List.flatMap_congr fun other held => if_neg ?_
        rintro rfl
        exact apart (same ▸ held)
      rw [if_pos same, others, List.cons_append]
    · rw [if_neg same]
      have later := ih distinct ((List.mem_cons.mp member).resolve_left same)
      exact (later.append_left (hand first)).trans List.perm_middle

private theorem perm_dealt {count : Nat} (positive : 0 < count) (items : List (Target × Nat)) :
    ((List.range count).flatMap fun number => items.filterMap fun (target, index) =>
      if index % count = number then some target else none).Perm (items.map Prod.fst) := by
  induction items with
  | nil => simp
  | cons item items ih =>
    obtain ⟨target, index⟩ := item
    have member : index % count ∈ List.range count := List.mem_range.mpr (Nat.mod_lt index positive)
    have dealt := perm_cons_flatMap List.nodup_range member target fun number =>
      items.filterMap fun (target, index) => if index % count = number then some target else none
    refine List.Perm.trans (.of_eq ?_) (dealt.trans (ih.cons target))
    refine List.flatMap_congr fun number _ => ?_
    rw [List.filterMap_cons]
    by_cases mine : index % count = number
    · simp only [if_pos mine]
    · simp only [if_neg mine]

theorem crewSize_pos (machine : Machine) (jobs targets : Nat) : 0 < crewSize machine jobs targets :=
  Nat.lt_of_lt_of_le Nat.zero_lt_one (Nat.le_max_left ..)

/-- Every target is dealt to one worker. -/
theorem perm_shares {count : Nat} (positive : 0 < count) (targets : List Target) :
    ((List.range count).flatMap fun number => Crew.share count number targets).Perm targets := by
  have dealt := perm_dealt positive targets.zipIdx
  rwa [List.zipIdx_map_fst] at dealt

theorem share_sublist (count number : Nat) (targets : List Target) :
    (Crew.share count number targets).Sublist targets := by
  have picked : Crew.share count number targets =
      ((targets.zipIdx.filter fun item => item.2 % count = number).map Prod.fst) := by
    unfold Crew.share
    induction targets.zipIdx with
    | nil => rfl
    | cons item items ih =>
      rw [List.filterMap_cons, List.filter_cons, ih]
      by_cases mine : item.2 % count = number <;> simp [mine]
  rw [picked]
  have part := (List.filter_sublist (l := targets.zipIdx) (p := fun item =>
    item.2 % count = number)).map Prod.fst
  rwa [List.zipIdx_map_fst] at part

/-- The number of a target among all tells who serves it. -/
theorem home_of_mem_share {count number : Nat} {targets : List Target} (distinct : targets.Nodup)
    {target : Target} (member : target ∈ Crew.share count number targets) :
    targets.idxOf target % count = number := by
  obtain ⟨⟨other, index⟩, held, mine⟩ := List.mem_filterMap.mp member
  simp only at mine
  split at mine
  · rename_i same
    cases mine
    have here : targets[index]? = some target := List.mem_zipIdx_iff_getElem?.mp held
    obtain ⟨inside, rfl⟩ := List.getElem?_eq_some_iff.mp here
    rw [distinct.idxOf_getElem]
    exact same
  · cases mine

/-! Sums of summaries. -/

theorem total_eq (summaries : List Summary) : total summaries = {
    archives := (summaries.map Summary.archives).sum
    directories := (summaries.map Summary.directories).sum
    classes := (summaries.map Summary.classes).sum
    transformed := (summaries.map Summary.transformed).sum } := by
  induction summaries using List.reverseRecOn with
  | nil => rfl
  | append_singleton front last ih =>
    rw [total] at ih
    rw [total, List.foldl_append, ih]
    simp [Summary.add]

theorem total_append_singleton (summaries : List Summary) (last : Summary) :
    total (summaries ++ [last]) = (total summaries).add last :=
  List.foldl_append

theorem total_perm {summaries summaries' : List Summary} (order : summaries.Perm summaries') :
    total summaries = total summaries' := by
  rw [total_eq, total_eq, (order.map _).sum_eq, (order.map _).sum_eq, (order.map _).sum_eq,
    (order.map _).sum_eq]

theorem total_flatten (groups : List (List Summary)) :
    total groups.flatten = total (groups.map total) := by
  have sums (field : Summary → Nat) (own : ∀ group, field (total group) = (group.map field).sum) :
      (groups.flatten.map field).sum = ((groups.map total).map field).sum := by
    rw [List.map_flatten, List.sum_flatten, List.map_map, List.map_map]
    exact congrArg List.sum (List.map_congr_left fun group _ => (own group).symm)
  rw [total_eq, total_eq (groups.map total)]
  congr 1 <;> exact sums _ fun group => by rw [total_eq]

/-! Steps. -/

/-- A step that a worker took: the workshop as the worker found it, with a store of its own, and as
it left it. -/
structure Moment (σ : Type) where
  worker : Nat
  before : Workshop σ
  after : Workshop σ

/-- A crew that goes on, on a disk and with the memory of the rewriter. -/
inductive Advances (rewriter : Rewriter σ) :
    Crew → Disk → σ → List (Moment σ) → Crew → Disk → σ → Prop where
  | rest {crew : Crew} {disk : Disk} {memory : σ} :
    Advances rewriter crew disk memory [] crew disk memory
  | step {crew crew' : Crew} {disk disk' : Disk} {memory memory' : σ} {history : List (Moment σ)}
      {number : Nat} {worker : Worker} {course : Course Summary} {shop : Workshop σ}
      (found : crew[number]? = some worker) (going : ¬ worker.course.Over)
      (stepped : (worker.course.step rewriter {}).run ⟨disk,
        ⟨worker.store, memory⟩⟩ = (course, shop))
      (later : Advances rewriter (crew.set number ⟨course, shop.bench.store⟩) shop.disk
        shop.bench.memory history crew' disk' memory') :
      Advances rewriter crew disk memory (⟨number, ⟨disk, ⟨worker.store, memory⟩⟩, shop⟩ :: history)
        crew' disk' memory'

namespace Advances
variable {rewriter : Rewriter σ} {crew crew' crew'' : Crew} {disk disk' disk'' : Disk}
  {memory memory' memory'' : σ} {history more : List (Moment σ)}

theorem trans (first : Advances rewriter crew disk memory history crew' disk' memory')
    (later : Advances rewriter crew' disk' memory' more crew'' disk'' memory'') :
    Advances rewriter crew disk memory (history ++ more) crew'' disk'' memory'' := by
  induction first with
  | rest => exact later
  | step found going stepped _ ih => exact .step found going stepped (ih later)

theorem length (advances : Advances rewriter crew disk memory history crew' disk' memory') :
    crew'.length = crew.length := by
  induction advances with
  | rest => rfl
  | step _ _ _ _ ih => rw [ih, List.length_set]

end Advances

/-- A worker that has come to the end of its course, and what it answers. -/
def Worker.Ended (worker : Worker) (result : Except Failure (Store × Summary)) : Prop :=
  ∃ outcome, worker.course = .done outcome ∧ result = outcome.map fun summary =>
    (worker.store, summary)

variable (rewriter : Rewriter σ)

private theorem advances_turn (crew : Crew) (number : Nat) (shop : Workshop σ) :
    ∃ history, Advances rewriter crew shop.disk shop.bench.memory history
      ((crew.turn rewriter number).run shop).1 ((crew.turn rewriter number).run shop).2.disk
      ((crew.turn rewriter number).run shop).2.bench.memory := by
  unfold Crew.turn
  cases found : crew[number]? with
  | none => exact ⟨[], .rest⟩
  | some worker =>
    obtain ⟨course, store⟩ := worker
    cases course with
    | done outcome =>
      have same : crew.set number ⟨.done outcome, store⟩ = crew := by
        obtain ⟨inside, here⟩ := List.getElem?_eq_some_iff.mp found
        rw [← here, List.set_getElem_self]
      refine ⟨[], ?_⟩
      change Advances rewriter crew shop.disk shop.bench.memory []
        (crew.set number ⟨.done outcome, store⟩)
        shop.disk shop.bench.memory
      rw [same]
      exact .rest
    | _ => exact ⟨_, .step found id rfl .rest⟩

private theorem advances_turns (turns : List Nat) (crew : Crew) (shop : Workshop σ) :
    ∃ history, Advances rewriter crew shop.disk shop.bench.memory history
      ((turns.foldlM (Crew.turn rewriter) crew).run shop).1
      ((turns.foldlM (Crew.turn rewriter) crew).run shop).2.disk
      ((turns.foldlM (Crew.turn rewriter) crew).run shop).2.bench.memory := by
  induction turns generalizing crew shop with
  | nil => exact ⟨[], .rest⟩
  | cons number turns ih =>
    obtain ⟨history, first⟩ := advances_turn rewriter crew number shop
    obtain ⟨more, later⟩ :=
      ih ((crew.turn rewriter number).run shop).1 ((crew.turn rewriter number).run shop).2
    exact ⟨history ++ more, first.trans later⟩

/-- A step of a worker, and what the worker comes to from there. -/
private theorem advances_onward {crew : Crew} {number : Nat} {course course' : Course Summary}
    {store : Store} {disk : Disk} {memory : σ} {shop after : Workshop σ} {worker : Worker}
    (found : crew[number]? = some ⟨course, store⟩) (going : ¬ course.Over)
    (stepped : (course.step rewriter {}).run ⟨disk, ⟨store, memory⟩⟩ = (course', shop))
    (later : ∀ crew : Crew, crew[number]? = some ⟨course', shop.bench.store⟩ →
      ∃ history, Advances rewriter crew shop.disk shop.bench.memory history (crew.set number worker)
        after.disk after.bench.memory) :
    ∃ history, Advances rewriter crew disk memory history (crew.set number worker) after.disk
      after.bench.memory := by
  have here := List.getElem?_set_self (a := (⟨course', shop.bench.store⟩ : Worker))
    (List.getElem?_eq_some_iff.mp found).1
  obtain ⟨history, advances⟩ := later _ here
  rw [List.set_set] at advances
  exact ⟨_, .step found going stepped advances⟩

/-- A worker that takes all steps it has left. -/
theorem advances_carryOut {crew : Crew} {number : Nat} {course : Course Summary} {store : Store}
    (found : crew[number]? = some ⟨course, store⟩) (disk : Disk) (memory : σ)
    {outcome : Except Failure Summary} {shop : Workshop σ}
    (ran : (course.carryOut rewriter).run.run ⟨disk, ⟨store, memory⟩⟩ = (outcome, shop)) :
    ∃ history, Advances rewriter crew disk memory history
      (crew.set number ⟨.done outcome, shop.bench.store⟩) shop.disk shop.bench.memory := by
  induction course generalizing crew store disk memory with
  | done result =>
    cases ran
    have same : crew.set number ⟨.done outcome, store⟩ = crew := by
      obtain ⟨inside, here⟩ := List.getElem?_eq_some_iff.mp found
      rw [← here, List.set_getElem_self]
    rw [same]
    exact ⟨[], .rest⟩
  | watch next ih =>
    exact advances_onward rewriter found id rfl fun crew here => ih disk here disk memory ran
  | act operation path change next ih =>
    rw [Course.run_act, System.attempt_of_default] at ran
    cases changed : change disk with
    | ok disk' =>
      have stepped : ((Course.act operation path change next).step rewriter {}).run
          ⟨disk, ⟨store, memory⟩⟩ = (next (.ok disk), ⟨disk', ⟨store, memory⟩⟩) := by
        unfold Course.step
        simp only [StateT.run_bind, StateT.run_get, pure_bind, System.attempt_of_default, changed]
        rfl
      simp only [changed] at ran
      exact advances_onward rewriter found id stepped fun crew here =>
        ih (.ok disk) here disk' memory ran
    | error fault =>
      have stepped : ((Course.act operation path change next).step rewriter {}).run
          ⟨disk, ⟨store, memory⟩⟩ = (next (.error fault), ⟨disk, ⟨store, memory⟩⟩) := by
        unfold Course.step
        simp only [StateT.run_bind, StateT.run_get, pure_bind, System.attempt_of_default, changed]
        rfl
      simp only [changed] at ran
      exact advances_onward rewriter found id stepped fun crew here =>
        ih (.error fault) here disk memory ran
  | keep change next ih =>
    exact advances_onward rewriter found id rfl fun crew here => ih store here disk memory ran
  | offer name content next ih =>
    exact advances_onward rewriter found id rfl fun crew here => ih _ here disk _ ran

private theorem advances_finish {crew : Crew} {number : Nat} {worker : Worker}
    (found : crew[number]? = some worker) (shop : Workshop σ) :
    ∃ history worker', Advances rewriter crew shop.disk shop.bench.memory history
      (crew.set number worker') ((worker.finish rewriter).run shop).2.disk
      ((worker.finish rewriter).run shop).2.bench.memory ∧
      worker'.Ended ((worker.finish rewriter).run shop).1 := by
  obtain ⟨history, advances⟩ := advances_carryOut rewriter found shop.disk shop.bench.memory rfl
  exact ⟨history, _, advances, _, rfl, rfl⟩

/-- The workers that are left take all their steps, one worker after another. -/
theorem advances_mapM (front crew : Crew) (shop : Workshop σ) :
    ∃ history crew', Advances rewriter (front ++ crew) shop.disk shop.bench.memory
      history (front ++ crew')
      ((crew.mapM (Worker.finish rewriter)).run shop).2.disk
      ((crew.mapM (Worker.finish rewriter)).run shop).2.bench.memory ∧
      List.Forall₂ Worker.Ended crew' ((crew.mapM (Worker.finish rewriter)).run shop).1 := by
  induction crew generalizing front shop with
  | nil => exact ⟨[], [], .rest, .nil⟩
  | cons worker crew ih =>
    have found : (front ++ worker :: crew)[front.length]? = some worker := by simp
    obtain ⟨history, worker', first, ended⟩ := advances_finish rewriter found shop
    obtain ⟨more, crew', later, others⟩ :=
      ih (front ++ [worker']) ((worker.finish rewriter).run shop).2
    have replaced : (front ++ worker :: crew).set front.length worker' =
        front ++ [worker'] ++ crew := by
      simp
    rw [replaced] at first
    refine ⟨history ++ more, worker' :: crew', ?_, ?_⟩
    · rw [List.mapM_cons]
      have whole := first.trans later
      rwa [List.append_assoc, List.singleton_append] at whole
    · rw [List.mapM_cons]
      exact .cons ended others

/-- A crew that finishes goes on until all workers have ended. -/
theorem advances_of_finish (turns : List Nat) (crew : Crew) (shop : Workshop σ) :
    ∃ history crew', Advances rewriter crew shop.disk shop.bench.memory history crew'
      ((crew.finish rewriter turns).run shop).2.disk
        ((crew.finish rewriter turns).run shop).2.bench.memory ∧
      List.Forall₂ Worker.Ended crew' ((crew.finish rewriter turns).run shop).1 := by
  obtain ⟨history, first⟩ := advances_turns rewriter turns crew shop
  obtain ⟨more, crew', later, ended⟩ := advances_mapM rewriter []
    ((turns.foldlM (Crew.turn rewriter) crew).run shop).1
      ((turns.foldlM (Crew.turn rewriter) crew).run shop).2
  exact ⟨history ++ more, crew', first.trans later, ended⟩

variable {rewriter}

/-! Whole runs. -/

/-- The number of jobs only counts when targets are dealt out. -/
theorem ofTargets_of_jobs [Archive.Library] (options : Options) (jobs : Nat) :
    Crew.ofTargets { options with jobs := jobs } = Crew.ofTargets options := by
  have targets : course { options with jobs := jobs } = course options := by
    funext target
    cases target <;> rfl
  funext count all
  unfold Crew.ofTargets courseOfAll
  rw [targets]

/-- What is answered once a crew is done. -/
theorem run_rewriteAll [Archive.Library] {machine : Machine} {options : Options}
    {targets : List Target} {shop shop' : Workshop σ}
    {results : List (Except Failure (Store × Summary))}
    (finished : ((Crew.ofTargets options (crewSize machine options.jobs targets.length)
      targets).finish rewriter machine.turns).run shop = (results, shop')) :
    (rewriteAll machine options rewriter targets).run.run shop =
      match results.mapM id with
      | .error failure => (.error failure, shop')
      | .ok results =>
        match Store.fold (results.map Prod.fst) with
        | .error conflict => (.error (.ofConflict conflict), shop')
        | .ok store => (.ok (store, total (results.map Prod.snd)), shop') := by
  unfold rewriteAll
  rw [Steps.run_bind, Steps.run_get]
  simp only [finished]
  rw [Steps.run_bind, Steps.run_set]
  simp only
  cases results.mapM id with
  | error failure => rfl
  | ok results =>
    simp only
    cases Store.fold (results.map Prod.fst) <;> rfl

/-! A single worker. -/

private theorem share_one (targets : List Target) : Crew.share 1 0 targets = targets := by
  have all : ∀ item ∈ targets.zipIdx,
      (if item.2 % 1 = 0 then some item.1 else none) = some item.1 :=
    fun item _ => if_pos (Nat.mod_one _)
  unfold Crew.share
  rw [List.filterMap_congr all]
  exact (List.filterMap_eq_map (f := Prod.fst) ▸ List.zipIdx_map_fst 0 targets)

/-- A worker that is alone takes its steps, whatever the turns. -/
theorem finish_alone (rewriter : Rewriter σ) (turns : List Nat) (worker : Worker)
    (shop : Workshop σ) :
    (Crew.finish rewriter turns [worker]).run shop =
      ([((worker.course.carryOut rewriter).run.run ⟨shop.disk,
      ⟨worker.store, shop.bench.memory⟩⟩).1.map
          fun summary => (((worker.course.carryOut rewriter).run.run
            ⟨shop.disk, ⟨worker.store, shop.bench.memory⟩⟩).2.bench.store, summary)],
        ((worker.course.carryOut rewriter).run.run ⟨shop.disk,
        ⟨worker.store, shop.bench.memory⟩⟩).2) := by
  induction turns generalizing worker shop with
  | nil => rfl
  | cons number turns ih =>
    cases number with
    | zero =>
      have next :=
        ih ⟨((worker.course.step rewriter {}).run ⟨shop.disk, ⟨worker.store, shop.bench.memory⟩⟩).1,
        ((worker.course.step rewriter {}).run ⟨shop.disk,
        ⟨worker.store, shop.bench.memory⟩⟩).2.bench.store⟩
        ((worker.course.step rewriter {}).run ⟨shop.disk, ⟨worker.store, shop.bench.memory⟩⟩).2
      rw [Course.run_step worker.course]
      exact next
    | succ number => exact ih worker shop

/-- A worker that is alone rewrites all targets, one after another. -/
theorem run_rewriteAll_alone [Archive.Library] {machine : Machine} {options : Options}
    {targets : List Target} (alone : crewSize machine options.jobs targets.length = 1)
    (shop : Workshop σ) :
    (rewriteAll machine options rewriter targets).run.run shop =
      match ((courseOfAll options targets).carryOut rewriter).run.run ⟨shop.disk,
      ⟨.empty, shop.bench.memory⟩⟩ with
      | (.error failure, after) => (.error failure, after)
      | (.ok summary, after) => (.ok (after.bench.store, summary), after) := by
  have crew : Crew.ofTargets options (crewSize machine options.jobs targets.length) targets =
      [⟨courseOfAll options targets, .empty⟩] := by
    rw [alone]
    exact congrArg (fun share =>
      [(⟨courseOfAll options share, .empty⟩ : Worker)]) (share_one targets)
  have finished := finish_alone rewriter machine.turns ⟨courseOfAll options targets, .empty⟩ shop
  rw [← crew] at finished
  rw [run_rewriteAll finished]
  generalize ((courseOfAll options targets).carryOut rewriter).run.run ⟨shop.disk,
    ⟨.empty, shop.bench.memory⟩⟩ =
    ending
  obtain ⟨result, after⟩ := ending
  cases result with
  | error failure => rfl
  | ok summary =>
    have sum : total [summary] = summary := by simp [total_eq]
    have store : Store.fold [after.bench.store] = .ok after.bench.store := rfl
    have answered : [(Except.ok summary : Except Failure Summary).map fun summary =>
        (after.bench.store, summary)].mapM
        id = .ok [(after.bench.store, summary)] := rfl
    simp only [answered, List.map_cons, List.map_nil, store, sum]

end Instrument
end ClassCoverage
