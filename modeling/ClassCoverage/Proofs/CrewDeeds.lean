import ClassCoverage.Proofs.ServedTargets
import ClassCoverage.Proofs.SettledTrees

/-! What the work of a crew comes to. Targets that have nothing to do with each other can be
rewritten in any order and by any workers: all of them together are possible or not, and what is
done is the same. -/
namespace ClassCoverage

/-- Such a rewriter follows a plan, whatever it remembers at each of its calls. -/
theorem Rewriter.Follows.varying {σ : Type} {rewriter : Rewriter σ} {plan : Plan}
    (follows : rewriter.Follows plan) (fallback : σ) :
    (rewriter.varying fallback).Follows plan where
  refuses none bench := by
    obtain ⟨failure, after, ran⟩ := follows.refuses none ⟨bench.store, bench.memory.headD fallback⟩
    exact ⟨failure, _, by rw [Rewriter.run_varying, ran]⟩
  answers some bench inserted := by
    obtain ⟨memory, ran⟩ := follows.answers some ⟨bench.store, bench.memory.headD fallback⟩ inserted
    exact ⟨_, by rw [Rewriter.run_varying, ran]⟩
  conflicts some bench refused := by
    obtain ⟨failure, after, ran⟩ :=
      follows.conflicts some ⟨bench.store, bench.memory.headD fallback⟩ refused
    exact ⟨failure, _, by rw [Rewriter.run_varying, ran]⟩

namespace Instrument
variable {σ : Type}

/-- What is to be done: by which options and which plan, and on what disk at the start. -/
structure Task where
  options : Options
  plan : Plan
  disk : Disk

namespace Task
variable {task : Task} {targets : List Target}

def outcome? [Archive.Library] (task : Task) (target : Target) : Option (Summary × Deed) :=
  (doTarget task.options task.plan task.disk target).run {}

/-- Nothing is done for a target that cannot be rewritten. -/
def outcome [Archive.Library] (task : Task) (target : Target) :
    Summary × Deed := (task.outcome? target).getD ({}, {})

def summary [Archive.Library] (task : Task) (target : Target) : Summary := (task.outcome target).1

def delta [Archive.Library] (task : Task) (target : Target) : Delta := (task.outcome target).2.delta

def records [Archive.Library] (task : Task) (target : Target) :
    List Record := (task.outcome target).2.records

def stores [Archive.Library] (task : Task) (targets : List Target) :
    List Store := (targets.flatMap task.records).map Store.single

/-- All files that are new once all targets are rewritten. -/
def news [Archive.Library] (task : Task) (targets : List Target) :
    Delta := .gather (targets.map task.delta)

/-- All targets can be rewritten on one disk, and their records can be joined in one store. -/
structure Possible [Archive.Library] (task : Task) (targets : List Target) : Prop where
  each : ∀ target ∈ targets, (task.outcome? target).isSome
  open_ : (task.news targets).Open task.disk
  compatible : Store.AllCompatible (task.stores targets)

/-- Targets that are found, and that have nothing to do with each other. -/
structure Fit (task : Task) (targets : List Target) : Prop where
  rooted : task.disk.Rooted
  distinct : targets.Nodup
  ready : ∀ target ∈ targets, target.Ready task.disk
  separate : targets.Pairwise (Target.Separate task.options.outputDirectory task.disk)

theorem outcome_eq [Archive.Library] {target : Target} {summary : Summary} {deed : Deed}
    (known : task.outcome? target = some (summary, deed)) :
    task.summary target = summary ∧ task.delta target = deed.delta ∧
    task.records target = deed.records := by
  unfold Task.summary delta records outcome
  rw [known]
  exact ⟨rfl, rfl, rfl⟩

theorem goals_of_delta [Archive.Library] {target : Target} {place : Place}
    (written : place ∈ (task.delta target).places) :
    place ∈ target.goals task.options.outputDirectory task.disk := by
  cases known : task.outcome? target with
  | none =>
    unfold delta outcome at written
    rw [known] at written
    cases written
  | some outcome =>
    obtain ⟨summary, deed⟩ := outcome
    rw [(outcome_eq known).2.1] at written
    rcases spreads_doTarget target {} summary deed known place written with early | goal
    · cases early
    · exact goal

theorem news_cons [Archive.Library] (target : Target) :
    task.news (target :: targets) = (task.news targets).andThen (task.delta target) :=
  Delta.gather_cons _ _

theorem mem_places_news_iff [Archive.Library] {place : Place} :
    place ∈ (task.news targets).places ↔ ∃ target ∈ targets,
    place ∈ (task.delta target).places := by
  unfold news
  rw [Delta.mem_places_gather_iff]
  constructor
  · rintro ⟨delta, member, own⟩
    obtain ⟨target, held, rfl⟩ := List.mem_map.mp member
    exact ⟨target, held, own⟩
  · rintro ⟨target, held, own⟩
    exact ⟨_, List.mem_map_of_mem held, own⟩

theorem mem_ways_news_iff [Archive.Library] {place : Place} :
    place ∈ (task.news targets).ways ↔ ∃ target ∈ targets, place ∈ (task.delta target).ways := by
  unfold news
  rw [Delta.mem_ways_gather_iff]
  constructor
  · rintro ⟨delta, member, own⟩
    obtain ⟨target, held, rfl⟩ := List.mem_map.mp member
    exact ⟨target, held, own⟩
  · rintro ⟨target, held, own⟩
    exact ⟨_, List.mem_map_of_mem held, own⟩

theorem Possible.sublist [Archive.Library] {fewer : List Target} (part : fewer.Sublist targets)
    (possible : task.Possible targets) :
    task.Possible fewer where
  each target member := possible.each target (part.subset member)
  open_ := possible.open_.subset fun _ member => (part.map task.delta).subset member
  compatible :=
    List.Pairwise.sublist ((part.flatMap task.records).map Store.single) possible.compatible

theorem Fit.sublist {fewer : List Target} (part : fewer.Sublist targets) (fit : task.Fit targets) :
    task.Fit fewer where
  rooted := fit.rooted
  distinct := fit.distinct.sublist part
  ready target member := fit.ready target (part.subset member)
  separate := fit.separate.sublist part

/-- No two targets write the same file. -/
theorem Fit.apart [Archive.Library] (fit : task.Fit targets) :
    Delta.Apart (targets.map task.delta) := by
  apply List.pairwise_map.mpr
  apply fit.separate.imp
  intro one other separate place own theirs
  exact separate.writes place (goals_of_delta own) (goals_of_delta theirs)

section
variable [Archive.Library] {rewriter : Rewriter σ} {fallback : σ}
  {parts : Target → Disk} {shared : Disk}
  {target other : Target}

/-- What a file that can be written comes to: it is written, or was there and can stay as it was. -/
theorem Fit.goal_cases (fit : task.Fit targets) (possible : task.Possible targets)
    (member : target ∈ targets) {place : Place}
    (goal : place ∈ target.goals task.options.outputDirectory task.disk) :
    place ∈ (task.delta target).places ∨ ∃ content, task.disk.kind? place =
      some (.file content) := by
  cases target with
  | archive path =>
    have ready := fit.ready _ member
    cases ready with
    | archive file =>
      obtain ⟨content, -, held⟩ := Target.kind?_of_isFile fit.rooted file
      exact .inr ⟨content, List.mem_singleton.mp goal ▸ held⟩
  | directory path =>
    obtain ⟨below, file, rfl⟩ := List.mem_map.mp goal
    cases away :
      ClassTree.sameDirectory task.disk path (task.options.outputDirectory.getD path) with
    | true =>
      rw [← ClassTree.aim_of_sameDirectory away]
      exact .inr (ClassTree.mem_filesBelow_iff.mp file).2.2
    | false =>
      obtain ⟨⟨summary, deed⟩, known⟩ := Option.isSome_iff_exists.mp (possible.each _ member)
      obtain ⟨done, deed', made, rest⟩ := Doing.run_bind_some known
      cases rest
      rw [(outcome_eq known).2.1]
      exact .inl (ClassTree.leaves_doTree task.plan away file {} done deed made).1

/-- Where a target has to make directories, no other one writes. -/
theorem Fit.clash (fit : task.Fit targets) (member : target ∈ targets) (member' : other ∈ targets)
    {place : Place} (goal : place ∈ target.goals task.options.outputDirectory task.disk)
    (way : place ∈ other.ways task.options.outputDirectory task.disk) :
    task.disk.kind? place = some .directory ∨ ¬ task.Possible targets := by
  by_cases possible : task.Possible targets
  case neg => exact .inr possible
  cases other with
  | archive path => cases way
  | directory path =>
    obtain ⟨below, file, way⟩ := List.mem_flatMap.mp way
    have some : ClassTree.filesBelow task.disk (task.disk.aim path) ≠ [] := List.ne_nil_of_mem file
    have ready := fit.ready _ member'
    cases ready with
    | directory found named =>
      cases away :
        ClassTree.sameDirectory task.disk path (task.options.outputDirectory.getD path) with
      | true =>
        have fileOf : ClassTree.FileOf task.disk path (task.disk.aim path) below :=
          ⟨found some, ClassTree.kind?_of_filesBelow some, file, named below file⟩
        exact .inl (fileOf.ways fit.rooted away place way)
      | false =>
        obtain ⟨⟨summary, deed⟩, known⟩ := Option.isSome_iff_exists.mp (possible.each _ member')
        obtain ⟨done, deed', made, rest⟩ := Doing.run_bind_some known
        cases rest
        have ways := (ClassTree.leaves_doTree task.plan away file {} done deed made).2 way
        have made : place ∈ (task.news targets).ways :=
          mem_ways_news_iff.mpr ⟨_, member', (outcome_eq known).2.1 ▸ ways⟩
        rcases fit.goal_cases possible member goal with written | ⟨content, held⟩
        · exact absurd made
            (possible.open_.apart place (mem_places_news_iff.mpr ⟨target, member, written⟩))
        · exact absurd held (possible.open_.clear place made content)

/-! What becomes of the targets. -/

/-- What became of targets that were served is what they come to by their names and contents. -/
structure Fulfilled (task : Task) (parts : Target → Disk) (target : Target) : Prop where
  planned : (task.outcome? target).isSome
  open_ : (task.delta target).Open task.disk
  made : (task.delta target).Made task.disk (parts target)

theorem fulfilled_of_served (rooted : task.disk.Rooted)
    (ready : ∀ target ∈ targets, target.Ready task.disk) (follows : rewriter.Follows task.plan)
    {summaries : List Summary} {store : Store}
    (served : Served task.options rewriter fallback task.disk parts targets summaries store) :
    summaries = targets.map task.summary ∧
    Store.empty.insertAll (targets.flatMap task.records) = .ok store ∧
      ∀ target ∈ targets, task.Fulfilled parts target := by
  induction served with
  | none => exact ⟨rfl, rfl, nofun⟩
  | @next front target summaries summary store store' before ran ih =>
    obtain ⟨readyFront, readyLast⟩ := List.forall_mem_append.mp ready
    obtain ⟨counted, inserted, each⟩ := ih readyFront
    obtain ⟨memories, ran⟩ := ran
    have ended : Ends (rewriter.varying fallback) (course task.options target)
        ⟨task.disk, ⟨store, memories ++ []⟩⟩ ⟨task.disk, ⟨store, memories ++ []⟩⟩
          (task.outcome? target) :=
      ends_course rooted (follows.varying fallback) (readyLast target (List.mem_singleton_self _))
    generalize known : task.outcome? target = outcome? at ended
    cases ended with
    | failed failed =>
      have same := failed.symm.trans (ran [])
      cases same
    | @done summary' deed shop ran' done =>
      have same := ran'.symm.trans (ran [])
      cases same
      obtain ⟨counts, delta, records⟩ := outcome_eq known
      refine ⟨?_, ?_, ?_⟩
      · rw [List.map_append, ← counted, List.map_singleton, counts]
      · rw [List.flatMap_append, List.flatMap_singleton, Store.insertAll_append, inserted, records]
        exact done.store
      · rintro other member
        rcases List.mem_append.mp member with early | last
        · exact each other early
        · rw [List.mem_singleton.mp last]
          exact ⟨by rw [known]; rfl, delta ▸ done.open_, delta ▸ done.made⟩

theorem open_of_fulfilled
    (holds : (Target.realm task.options.outputDirectory task.disk targets).Shared parts shared)
    (each : ∀ target ∈ targets, task.Fulfilled parts target) :
    (task.news targets).Open task.disk where
  clear place way := by
    obtain ⟨target, member, own⟩ := mem_ways_news_iff.mp way
    exact (each target member).open_.clear place own
  free place written := by
    obtain ⟨target, member, own⟩ := mem_places_news_iff.mp written
    exact (each target member).open_.free place own
  apart place written way := by
    -- The file is on the shared disk, and so would the directory be.
    obtain ⟨target, member, own⟩ := mem_places_news_iff.mp written
    obtain ⟨other, member', theirs⟩ := mem_ways_news_iff.mp way
    have absent : place ∉ (task.delta other).places := fun twice =>
      (each other member').open_.apart place twice theirs
    have directory : (parts other).kind? place = some .directory := by
      rw [(each other member').made.kinds, Delta.kind?_eq_directory_iff absent]
      exact .inl theirs
    obtain ⟨content, look⟩ := Delta.mem_places_iff.mp own
    have file : (parts target).kind? place = some (.file content) := by
      rw [(each target member).made.kinds, Delta.kind?, look]
    have shown := (holds.inside target place ⟨member, .inl (goals_of_delta own)⟩ content).mpr file
    have shown' := (holds.directory place).mpr ⟨other, directory⟩
    rw [shown] at shown'
    cases shown'

/-- Where every target has become what it comes to, the shared disk has all that is new. -/
theorem made_of_fulfilled (fit : task.Fit targets)
    (holds : (Target.realm task.options.outputDirectory task.disk targets).Shared parts shared)
    (each : ∀ target ∈ targets, task.Fulfilled parts target)
    (rest : ∀ target ∉ targets, parts target = task.disk) :
    (task.news targets).Made task.disk shared where
  workPlace := holds.workPlace
  kinds place := by
    have opened := open_of_fulfilled holds each
    by_cases written : place ∈ (task.news targets).places
    · obtain ⟨content, look⟩ := Delta.mem_places_iff.mp written
      obtain ⟨_, held, own⟩ := (Delta.lookup_gather_iff fit.apart).mp look
      obtain ⟨target, member, rfl⟩ := List.mem_map.mp held
      have file : (parts target).kind? place = some (.file content) := by
        rw [(each target member).made.kinds, Delta.kind?, own]
      have mine : place ∈ (task.delta target).places := Delta.mem_places_iff.mpr ⟨content, own⟩
      rw [Delta.kind?, look]
      exact (holds.inside target place ⟨member, .inl (goals_of_delta mine)⟩ content).mpr file
    · have absent (target : Target) (member : target ∈ targets) :
          place ∉ (task.delta target).places :=
        fun own => written (mem_places_news_iff.mpr ⟨target, member, own⟩)
      apply Option.ext
      intro kind
      cases kind with
      | file content =>
        rw [Delta.kind?_eq_file_iff opened written]
        by_cases someone : ∃ target,
          (Target.realm task.options.outputDirectory task.disk targets).area target place
        · obtain ⟨target, member, area⟩ := someone
          rw [holds.inside target place ⟨member, area⟩, (each target member).made.kinds,
            Delta.kind?_eq_file_iff (each target member).open_ (absent target member)]
        · exact holds.outside place (fun target area => someone ⟨target, area⟩) content
      | directory =>
        rw [holds.directory, Delta.kind?_eq_directory_iff written, mem_ways_news_iff]
        constructor
        · rintro ⟨target, found⟩
          by_cases member : target ∈ targets
          · rw [(each target member).made.kinds,
              Delta.kind?_eq_directory_iff (absent target member)] at found
            exact found.imp_left fun way => ⟨target, member, way⟩
          · exact .inr (rest target member ▸ found)
        · rintro (⟨target, member, way⟩ | before)
          · refine ⟨target, ?_⟩
            rw [(each target member).made.kinds,
              Delta.kind?_eq_directory_iff (absent target member)]
            exact .inl way
          · exact ⟨Classical.arbitrary Target, (holds.each _).keeps.directory place before⟩

/-- A target that cannot be rewritten after others spoils all of them. -/
theorem not_possible_of_canFail (fit : task.Fit targets) (follows : rewriter.Follows task.plan)
    {front : List Target} {summaries : List Summary} {store : Store}
    (part : (front ++ [target]).Sublist targets)
    (served : Served task.options rewriter fallback task.disk parts front summaries store)
    (fails : (course task.options target).CanFail rewriter fallback task.disk store) :
    ¬ task.Possible targets := by
  intro possible
  have whole := possible.sublist part
  have fitting := fit.sublist part
  have last : target ∈ front ++ [target] := List.mem_append_right _ (List.mem_singleton_self _)
  obtain ⟨-, inserted, -⟩ := fulfilled_of_served fit.rooted
    (fun other early => fitting.ready other (List.mem_append_left _ early)) follows served
  obtain ⟨⟨summary, deed⟩, known⟩ := Option.isSome_iff_exists.mp (whole.each target last)
  obtain ⟨-, delta, records⟩ := outcome_eq known
  obtain ⟨memories, failure, shop, failed⟩ := fails
  have ended : Ends (rewriter.varying fallback) (course task.options target)
      ⟨task.disk, ⟨store, memories⟩⟩ ⟨task.disk, ⟨store, memories⟩⟩ (task.outcome? target) :=
    ends_course fit.rooted (follows.varying fallback) (fitting.ready target last)
  rw [known] at ended
  cases ended with
  | done ran _ =>
    have same := failed.symm.trans ran
    cases same
  | failed _ never =>
    refine never summary deed rfl ⟨?_, ?_⟩
    · have alone := (whole.sublist (List.singleton_sublist.mpr last)).open_
      rw [news_cons, delta] at alone
      exact (Delta.open_of_andThen (.refl _) alone).2
    · have compatible := whole.compatible
      unfold stores at compatible
      rw [← Store.allCompatible_empty_iff, List.flatMap_append, List.flatMap_singleton,
        records] at compatible
      have all := Store.insertAll_eq_ok_iff.mpr ⟨compatible, rfl⟩
      rw [Store.insertAll_append, inserted] at all
      exact (Store.insertAll_eq_ok_iff.mp all).1

/-- What a worker answers that has served some targets: the records of all of them, and their
counts. -/
def answer (task : Task) (targets : List Target) : Store × Summary :=
  (Store.total (task.stores targets), total (targets.map task.summary))

private theorem answer_of_served (fit : task.Fit targets) (follows : rewriter.Follows task.plan)
    {summaries : List Summary} {store : Store}
    (served : Served task.options rewriter fallback task.disk parts targets summaries store) :
    (store, total summaries) = task.answer targets ∧ Store.AllCompatible (task.stores targets) := by
  obtain ⟨rfl, inserted, -⟩ := fulfilled_of_served fit.rooted fit.ready follows served
  obtain ⟨compatible, same⟩ := Store.insertAll_eq_ok_iff.mp inserted
  rw [Store.empty_sum] at same
  exact ⟨by rw [answer, same]; rfl, Store.allCompatible_empty_iff.mp compatible⟩

private theorem stores_flatten (task : Task) (groups : List (List Target)) :
    task.stores groups.flatten = (groups.map task.stores).flatten := by
  induction groups with
  | nil => rfl
  | cons group groups ih =>
    rw [List.flatten_cons, List.map_cons, List.flatten_cons, ← ih]
    unfold stores
    rw [List.flatMap_append, List.map_append]

/-- The stores of all workers are joined where the records of all targets can be. -/
theorem fold_answers {groups : List (List Target)}
    (each : ∀ group ∈ groups, Store.AllCompatible (task.stores group)) {sum : Store} :
    Store.fold ((groups.map task.answer).map Prod.fst) = .ok sum ↔
      Store.AllCompatible (task.stores groups.flatten) ∧
      sum = Store.total (task.stores groups.flatten) := by
  have totals : (groups.map task.answer).map Prod.fst =
      (groups.map task.stores).map Store.total := by
    rw [List.map_map, List.map_map]
    rfl
  rw [Store.fold_eq, Store.foldlM_merge_eq_ok_iff, Store.allCompatible_empty_iff, stores_flatten,
    Store.allCompatible_flatten_iff, Store.total_flatten, totals]
  constructor
  · rintro ⟨compatible, same⟩
    exact ⟨⟨List.forall_mem_map.mpr each, compatible⟩, same⟩
  · rintro ⟨⟨-, compatible⟩, same⟩
    exact ⟨compatible, same⟩

/-- Every worker answers what its share comes to. -/
theorem answers_of_served (fit : task.Fit targets) (follows : rewriter.Follows task.plan)
    {count : Nat} {answers : List (Store × Summary)} (length : answers.length = count)
    (each : ∀ (number : Nat) store summary, answers[number]? = some (store, summary) →
      ∃ summaries, summary = total summaries ∧ Served task.options rewriter fallback task.disk parts
        (Crew.share count number targets) summaries store) :
    answers = ((List.range count).map fun number =>
    Crew.share count number targets).map task.answer ∧
      ∀ group ∈ (List.range count).map fun number => Crew.share count number targets,
        Store.AllCompatible (task.stores group) ∧ ∀ target ∈ group,
        task.Fulfilled parts target := by
  have served (number : Nat) (inside : number < count) :
      answers[number]? = some (task.answer (Crew.share count number targets)) ∧
        Store.AllCompatible (task.stores (Crew.share count number targets)) ∧
        ∀ target ∈ Crew.share count number targets, task.Fulfilled parts target := by
    have fitting := fit.sublist (share_sublist count number targets)
    have found := List.getElem?_eq_getElem (length ▸ inside : number < answers.length)
    obtain ⟨summaries, counted, served⟩ := each number _ _ found
    obtain ⟨same, compatible⟩ := answer_of_served fitting follows served
    refine ⟨?_, compatible, (fulfilled_of_served fit.rooted fitting.ready follows served).2.2⟩
    rw [found, ← same, ← counted]
    rfl
  constructor
  · apply List.ext_getElem?
    intro number
    rw [List.getElem?_map, List.getElem?_map]
    by_cases inside : number < count
    · rw [(served number inside).1, List.getElem?_range inside]
      rfl
    · rw [List.getElem?_eq_none (by omega), List.getElem?_eq_none (by simpa using inside)]
      rfl
  · rw [List.forall_mem_map]
    exact fun number member => (served number (List.mem_range.mp member)).2

end

end Task

/-- All targets are rewritten where that is possible, with the same answer and the same disk whoever
does it and whenever. -/
theorem run_rewriteAll_of_fit [Archive.Library] {task : Task} {targets : List Target}
    {rewriter : Rewriter σ} {shop : Workshop σ} (fit : task.Fit targets)
    (follows : rewriter.Follows task.plan) (start : shop.disk = task.disk) (machine : Machine)
    (jobs : Nat) :
    (task.Possible targets → ∃ shop',
      (rewriteAll machine { task.options with jobs := jobs } rewriter targets).run.run shop =
        (.ok (Store.total (task.stores targets), total (targets.map task.summary)), shop') ∧
      (task.news targets).Made task.disk shop'.disk) ∧
    (¬ task.Possible targets → ∃ failure shop',
      (rewriteAll machine { task.options with jobs := jobs } rewriter targets).run.run shop =
        (.error failure, shop')) := by
  have positive := crewSize_pos machine jobs targets.length
  have dealt := perm_shares positive targets
  have fair : (Target.realm task.options.outputDirectory task.disk targets).Fair
      (¬ task.Possible targets) :=
    Target.fair_realm fit.separate fun target member other member' place goal way =>
      fit.clash member member' goal way
  have hosted (target : Target) (member : target ∈ targets) :=
    Target.hosted_of_ready fit.rooted fit.separate member (fit.ready target member)
  have fails (front : List Target) (target : Target) (parts : Target → Disk)
      (summaries : List Summary) (store : Store)
      (part : (front ++ [target]).Sublist targets)
      (served : Served task.options rewriter shop.bench.memory task.disk parts
        front summaries store) :=
    Task.not_possible_of_canFail fit follows part served
  cases finished :
    ((Crew.ofTargets { task.options with jobs := jobs } (crewSize machine jobs targets.length)
      targets).finish rewriter machine.turns).run shop with
  | mk results shop' =>
    rw [run_rewriteAll finished]
    rw [ofTargets_of_jobs] at finished
    rcases finish_of_hosted fair fit.distinct hosted fails positive
      machine.turns start finished with
      ⟨never, failure, answered⟩ |
      ⟨answers, parts, answered, length, holds, rest, each⟩
    · rw [answered]
      exact ⟨fun possible => absurd possible never, fun _ => ⟨failure, shop', rfl⟩⟩
    · obtain ⟨rfl, groups⟩ := Task.answers_of_served fit follows length each
      rw [List.flatMap_def] at dealt
      generalize (List.range _).map (fun number => Crew.share _ number targets) =
        shares at dealt groups answered
      have each (target : Target) (member : target ∈ targets) : task.Fulfilled parts target := by
        obtain ⟨share, held, own⟩ := List.mem_flatten.mp (dealt.mem_iff.mpr member)
        exact (groups share held).2 target own
      have stores : (task.stores shares.flatten).Perm (task.stores targets) :=
        (dealt.flatMap_right task.records).map Store.single
      have counts : total ((shares.map task.answer).map Prod.snd) =
          total (targets.map task.summary) := by
        rw [← total_perm (dealt.map task.summary), List.map_flatten, total_flatten,
          List.map_map, List.map_map]
        rfl
      have folds := @Task.fold_answers task _ shares fun share held => (groups share held).1
      rw [answered]
      simp only [counts]
      constructor
      · intro possible
        have compatible := possible.compatible.perm stores.symm
        rw [folds.mpr ⟨compatible, rfl⟩, Store.total_perm stores compatible]
        exact ⟨shop', rfl, Task.made_of_fulfilled fit holds each rest⟩
      · intro impossible
        cases folded : Store.fold ((shares.map task.answer).map Prod.fst) with
        | error conflict => exact ⟨_, shop', rfl⟩
        | ok sum =>
          have compatible := (folds.mp folded).1
          exact absurd ⟨fun target member => (each target member).planned,
            Task.open_of_fulfilled holds each,
            compatible.perm stores⟩ impossible

end Instrument
end ClassCoverage
