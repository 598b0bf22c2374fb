import ClassCoverage.Proofs.CourseRuns
import ClassCoverage.Proofs.DiskDeltas
import ClassCoverage.Proofs.StoreSums
import ClassCoverage.Rewriter.Marking

/-! What courses come to. A deed says which files are written, which directories are made for them
and which records are registered. A course that refines a deed in the making does exactly this, or
fails because something is in the way. -/
namespace ClassCoverage

/-- What becomes of a class, and the records that are registered for it, by its name and content
alone. Some classes are refused. -/
abbrev Plan := String → Bytes → Option (Rewritten × List Record)

/-- The records that are registered for classes, one class after another. -/
def Plan.recordsOf (plan : Plan) (classes : List (String × Bytes)) : List Record :=
  classes.flatMap fun (name, content) => (plan name content).elim [] Prod.snd

theorem Plan.recordsOf_filterMap_cons {ι : Type} (plan : Plan)
    (class? : ι → Option (String × Bytes)) (item : ι) (items : List ι) :
    plan.recordsOf ((item :: items).filterMap class?) =
      plan.recordsOf (class? item).toList ++ plan.recordsOf (items.filterMap class?) := by
  simp only [List.filterMap_eq_flatMap_toList, List.flatMap_cons,
    Plan.recordsOf, List.flatMap_append]

/-- A rewriter that does what a plan says, whatever it remembers, and fails when a record is
refused. -/
structure Rewriter.Follows {σ : Type} (rewriter : Rewriter σ) (plan : Plan) : Prop where
  refuses {name : String} {content : Bytes} (none : plan name content = none) (bench : Bench σ) :
    ∃ failure bench', (rewriter name content).run.run bench = (.error failure, bench')
  answers {name : String} {content : Bytes} {answer : Rewritten}
    {records : List Record} {store : Store}
    (some : plan name content = some (answer, records)) (bench : Bench σ)
    (inserted : bench.store.insertAll records = .ok store) :
    ∃ memory, (rewriter name content).run.run bench = (.ok answer, ⟨store, memory⟩)
  conflicts {name : String} {content : Bytes} {answer : Rewritten} {records : List Record}
    {conflict : Conflict} (some : plan name content = some (answer, records)) (bench : Bench σ)
    (refused : bench.store.insertAll records = .error conflict) :
    ∃ failure bench', (rewriter name content).run.run bench = (.error failure, bench')

structure Deed where
  delta : Delta := {}
  records : List Record := []

namespace Deed
variable {σ : Type}

/-- Nothing is in the way of the files, and the records do not clash with each other or with the
store. -/
structure Possible (deed : Deed) (shop : Workshop σ) : Prop where
  open_ : deed.delta.Open shop.disk
  compatible : Store.AllCompatible (shop.bench.store :: deed.records.map Store.single)

/-- What the workshop is like after a deed that was possible. -/
structure Done (deed : Deed) (shop shop' : Workshop σ) : Prop where
  open_ : deed.delta.Open shop.disk
  made : deed.delta.Made shop.disk shop'.disk
  store : shop.bench.store.insertAll deed.records = .ok shop'.bench.store

/-- A deed that goes at least as far. -/
structure Within (deed more : Deed) : Prop where
  places : deed.delta.places ⊆ more.delta.places
  ways : deed.delta.ways ⊆ more.delta.ways
  records : deed.records <+: more.records

theorem Within.refl (deed : Deed) : deed.Within deed := ⟨fun _ => id, fun _ => id, List.prefix_rfl⟩

theorem Within.trans {a b c : Deed} (first : a.Within b) (second : b.Within c) : a.Within c :=
  ⟨fun _ own => second.places (first.places own), fun _ own => second.ways (first.ways own),
    first.records.trans second.records⟩

theorem Within.put (deed : Deed) (above : List Place) (place : Place) (content : Bytes) :
    deed.Within { deed with delta := deed.delta.andThen (.single above place content) } where
  places := by
    rw [Delta.places_andThen]
    exact List.subset_append_right _ _
  ways := List.subset_append_right _ _
  records := List.prefix_rfl

theorem Within.offer (deed : Deed) (records : List Record) :
    deed.Within { deed with records := deed.records ++ records } :=
  ⟨fun _ => id, fun _ => id, List.prefix_append _ _⟩

instance : Std.Refl Within := ⟨.refl⟩

instance : IsTrans Deed Within := ⟨fun _ _ _ => .trans⟩

/-- A deed that goes on writes none but these files. -/
def Spreads (goals : List Place) (deed more : Deed) : Prop :=
  ∀ place ∈ more.delta.places, place ∈ deed.delta.places ∨ place ∈ goals

instance (goals : List Place) : Std.Refl (Spreads goals) := ⟨fun _ _ => .inl⟩

instance (goals : List Place) : IsTrans Deed (Spreads goals) where
  trans _ _ _ first second place member := by
    rcases second place member with early | late
    · exact first place early
    · exact .inr late

theorem Spreads.put {goals : List Place} {place : Place} (goal : place ∈ goals) (above : List Place)
    (content : Bytes) (deed : Deed) :
    Spreads goals deed { deed with delta := deed.delta.andThen (.single above place content) } := by
  intro other member
  rw [Delta.places_andThen] at member
  rcases List.mem_append.mp member with late | early
  · rw [List.mem_singleton.mp late]
    exact .inr goal
  · exact .inl early

/-- A deed that goes on makes no directory. -/
def Settled (deed more : Deed) : Prop := more.delta.ways = deed.delta.ways

instance : Std.Refl Settled := ⟨fun _ => rfl⟩

instance : IsTrans Deed Settled := ⟨fun _ _ _ first second => second.trans first⟩

theorem Possible.within {deed more : Deed} {shop : Workshop σ} (possible : more.Possible shop)
    (within : deed.Within more) : deed.Possible shop where
  open_ := possible.open_.mono within.places within.ways
  compatible := possible.compatible.sublist ((within.records.map Store.single).sublist.cons_cons _)

theorem Done.keeps {deed : Deed} {shop shop' : Workshop σ} (done : deed.Done shop shop') :
    shop.disk.Keeps shop'.disk :=
  done.made.keeps done.open_

/-- A file stays a file. -/
theorem Done.file {deed : Deed} {shop shop' : Workshop σ} (done : deed.Done shop shop')
    {place : Place} {content : Bytes} (file : shop.disk.kind? place = some (.file content)) :
    ∃ bytes, deed.delta.kind? (shop.disk.kind? place) place = some (.file bytes) ∧
      shop'.disk.kind? place = some (.file bytes) := by
  rw [done.made.kinds]
  simp only [and_self]
  by_cases own : place ∈ deed.delta.places
  · obtain ⟨bytes, written⟩ := Delta.mem_places_iff.mp own
    refine ⟨bytes, ?_⟩
    rw [Delta.kind?, written]
  · exact ⟨content, (Delta.kind?_eq_file_iff done.open_ own content).mpr file⟩

theorem Done.start (shop : Workshop σ) : ({} : Deed).Done shop shop := ⟨.empty _, .refl _, rfl⟩

end Deed

/-- A step that adds to a deed. It fails where no disk and no store could make it succeed. -/
abbrev Doing := StateT Deed Option

namespace Doing

/-- Writes a file, and makes the directories above it. -/
def put (above : List Place) (place : Place) (content : Bytes) : Doing Unit :=
  modify fun deed => { deed with delta := deed.delta.andThen (.single above place content) }

/-- What is in a file now, on a disk that was like this at the start. -/
def contentAt (disk : Disk) (place : Place) : Doing Bytes := do
  match (← get).delta.kind? (disk.kind? place) place with
  | some (.file content) => return content
  | _ => failure

theorem run_contentAt (disk : Disk) (place : Place) (deed : Deed) :
    (contentAt disk place).run deed =
      match deed.delta.kind? (disk.kind? place) place with
      | some (.file content) => some (content, deed)
      | _ => none := by
  unfold contentAt
  rw [StateT.run_bind]
  change (match deed.delta.kind? (disk.kind? place) place with
    | some (.file content) => pure content
    | _ => failure : Doing Bytes).run deed = _
  split <;> rfl

/-- Offers a class to a rewriter that follows a plan. -/
def offer (plan : Plan) (name : String) (content : Bytes) : Doing Rewritten := do
  match plan name content with
  | none => failure
  | some (answer, records) =>
    modify fun deed => { deed with records := deed.records ++ records }
    return answer

theorem run_offer_of_some {plan : Plan} {name : String} {content : Bytes} {answer : Rewritten}
    {records : List Record} (planned : plan name content = some (answer, records)) (deed : Deed) :
    (offer plan name content).run deed =
      some (answer, { deed with records := deed.records ++ records }) := by
  unfold offer
  rw [planned]
  rfl

theorem run_offer_of_none {plan : Plan} {name : String} {content : Bytes}
    (planned : plan name content = none) (deed : Deed) :
    (offer plan name content).run deed = none := by
  unfold offer
  rw [planned]
  rfl

variable {α β : Type}

theorem run_bind_some {doing : Doing α} {next : α → Doing β} {deed more : Deed} {value : β}
    (made : (doing >>= next).run deed = some (value, more)) :
    ∃ first middle, doing.run deed = some (first, middle) ∧ (next first).run middle =
      some (value, more) := by
  rw [StateT.run_bind] at made
  obtain ⟨⟨first, middle⟩, own, later⟩ := Option.bind_eq_some_iff.mp made
  exact ⟨first, middle, own, later⟩

/-- What is done then is always related like this to what was done before. -/
def Always (related : Deed → Deed → Prop) (doing : Doing α) : Prop :=
  ∀ deed value more, doing.run deed = some (value, more) → related deed more

namespace Always
variable {related : Deed → Deed → Prop}

theorem failure : Always related (failure : Doing α) := by
  intro _ _ _ made
  cases made

theorem pure [Std.Refl related] (value : α) : Always related (Pure.pure value) := by
  intro deed _ more made
  cases made
  exact Std.Refl.refl deed

theorem bind [IsTrans Deed related] {doing : Doing α} {next : α → Doing β}
    (first : Always related doing) (later : ∀ value, Always related (next value)) :
    Always related (doing >>= next) := by
  intro deed value more made
  obtain ⟨between, middle, own, rest⟩ := run_bind_some made
  exact IsTrans.trans _ _ _ (first deed between middle own) (later between middle value more rest)

theorem foldlM [Std.Refl related] [IsTrans Deed related] {ι : Type} {step : β → ι → Doing β}
    {items : List ι} (each : ∀ item ∈ items, ∀ value, Always related (step value item))
      (value : β) :
    Always related (items.foldlM step value) := by
  induction items generalizing value with
  | nil => exact pure value
  | cons item items ih =>
    rw [List.foldlM_cons]
    apply (each item (List.mem_cons_self ..) value).bind
    exact ih fun other member => each other (List.mem_cons_of_mem item member)

theorem contentAt [Std.Refl related] (disk : Disk) (place : Place) :
    Always related (Doing.contentAt disk place) := by
  intro deed value more made
  rw [run_contentAt] at made
  split at made
  · cases made
    exact Std.Refl.refl deed
  · cases made

theorem put {above : List Place} {place : Place} {content : Bytes}
    (adds : ∀ deed,
      related deed { deed with delta := deed.delta.andThen (.single above place content) }) :
    Always related (Doing.put above place content) := by
  intro deed _ _ made
  cases made
  exact adds deed

theorem offer (adds : ∀ deed records, related deed { deed with records := deed.records ++ records })
    (plan : Plan) (name : String) (content : Bytes) :
    Always related (Doing.offer plan name content) := by
  intro deed value more made
  cases planned : plan name content with
  | none =>
    rw [run_offer_of_none planned] at made
    cases made
  | some outcome =>
    rw [run_offer_of_some planned] at made
    cases made
    exact adds deed outcome.2

end Always

/-- Nothing that is done gets lost. -/
abbrev Grows (doing : Doing α) : Prop := Always Deed.Within doing

theorem grows_offer (plan : Plan) (name : String) (content : Bytes) :
    Grows (offer plan name content) :=
  .offer .offer plan name content

/-- This file is written, and these directories are made for it. -/
abbrev Leaves (above : List Place) (place : Place) (doing : Doing α) : Prop :=
  Always (fun _ more => place ∈ more.delta.places ∧ above ⊆ more.delta.ways) doing

namespace Leaves
variable {above : List Place} {place : Place}

theorem put (above : List Place) (place : Place) (content : Bytes) :
    Leaves above place (Doing.put above place content) :=
  Always.put fun _ => ⟨List.mem_cons_self .., List.subset_append_left ..⟩

theorem first {doing : Doing α} {next : α → Doing β} (leaves : Leaves above place doing)
    (grows : ∀ value, Grows (next value)) : Leaves above place (doing >>= next) := by
  intro deed value more made
  obtain ⟨between, middle, own, rest⟩ := run_bind_some made
  obtain ⟨written, ways⟩ := leaves deed between middle own
  have within := grows between middle value more rest
  exact ⟨within.places written, List.Subset.trans ways within.ways⟩

theorem later {doing : Doing α} {next : α → Doing β}
    (leaves : ∀ value, Leaves above place (next value)) :
    Leaves above place (doing >>= next) := by
  intro deed value more made
  obtain ⟨between, middle, -, rest⟩ := run_bind_some made
  exact leaves between middle value more rest

theorem foldlM {ι : Type} {step : β → ι → Doing β} {item : ι} {items : List ι}
    (member : item ∈ items) (leaves : ∀ value, Leaves above place (step value item))
    (grows : ∀ item ∈ items, ∀ value, Grows (step value item)) (value : β) :
    Leaves above place (items.foldlM step value) := by
  induction items generalizing value with
  | nil => cases member
  | cons first items ih =>
    rw [List.foldlM_cons]
    obtain ⟨-, growsLater⟩ := List.forall_mem_cons.mp grows
    rcases List.mem_cons.mp member with rfl | rest
    · exact (leaves value).first fun value => .foldlM growsLater value
    · exact later fun value => ih rest growsLater value

end Leaves

theorem spreads_offer (goals : List Place) (plan : Plan) (name : String) (content : Bytes) :
    Always (Deed.Spreads goals) (offer plan name content) :=
  .offer (fun _ _ _ => .inl) plan name content

/-- These records are registered, in this order. -/
abbrev Registers (records : List Record) (doing : Doing α) : Prop :=
  Always (fun deed more => more.records = deed.records ++ records) doing

namespace Registers

instance :
    Std.Refl fun deed more : Deed => more.records = deed.records ++ [] :=
    ⟨fun _ => (List.append_nil _).symm⟩

theorem pure (value : α) : Registers [] (Pure.pure value) := Always.pure value

theorem bind {records more : List Record} {doing : Doing α} {next : α → Doing β}
    (first : Registers records doing) (later : ∀ value, Registers more (next value)) :
    Registers (records ++ more) (doing >>= next) := by
  intro deed value final made
  obtain ⟨between, middle, own, rest⟩ := run_bind_some made
  rw [later between middle value final rest, first deed between middle own, List.append_assoc]

theorem foldlM {plan : Plan} {ι : Type} {step : β → ι → Doing β}
    {class? : ι → Option (String × Bytes)} {items : List ι}
    (each : ∀ item ∈ items, ∀ value, Registers (plan.recordsOf (class? item).toList)
      (step value item)) (value : β) :
    Registers (plan.recordsOf (items.filterMap class?)) (items.foldlM step value) := by
  induction items generalizing value with
  | nil => exact pure value
  | cons item items ih =>
    rw [List.foldlM_cons, Plan.recordsOf_filterMap_cons]
    apply (each item (List.mem_cons_self ..) value).bind
    exact ih fun other member => each other (List.mem_cons_of_mem item member)

/-- Work after which nothing is registered. -/
theorem map {records : List Record} {doing : Doing α} {next : α → Doing β}
    (first : Registers records doing) (later : ∀ value, Registers [] (next value)) :
    Registers records (doing >>= next) :=
  List.append_nil records ▸ first.bind later

theorem put (above : List Place) (place : Place) (content : Bytes) :
    Registers [] (Doing.put above place content) :=
  Always.put fun _ => (List.append_nil _).symm

theorem offer (plan : Plan) (name : String) (content : Bytes) :
    Registers (plan.recordsOf [(name, content)]) (Doing.offer plan name content) := by
  intro deed value more made
  simp only [Plan.recordsOf, List.flatMap_singleton]
  cases planned : plan name content with
  | none =>
    rw [run_offer_of_none planned] at made
    cases made
  | some outcome =>
    rw [run_offer_of_some planned] at made
    cases made
    rfl

end Registers
end Doing

/-! Refinement. -/

variable {σ α β : Type}

/-- How a course ends that was to come to something. It fails only where that was not possible. -/
inductive Ends (rewriter : Rewriter σ) (course : Course α) (origin shop : Workshop σ) :
    Option (α × Deed) → Prop where
  | done {value : α} {deed : Deed} {shop' : Workshop σ}
      (ran : (course.carryOut rewriter).run.run shop = (.ok value, shop'))
        (done : deed.Done origin shop') :
      Ends rewriter course origin shop (some (value, deed))
  | failed {outcome? : Option (α × Deed)} {failure : Failure} {shop' : Workshop σ}
      (ran : (course.carryOut rewriter).run.run shop = (.error failure, shop'))
      (never : ∀ value deed, outcome? = some (value, deed) → ¬ deed.Possible origin) :
      Ends rewriter course origin shop outcome?

section
variable {rewriter : Rewriter σ} {origin shop : Workshop σ} {course : Course α}

/-- Only the run of the course counts. -/
theorem Ends.of_run {course' : Course α} {shop' : Workshop σ} {outcome? : Option (α × Deed)}
    (same : (course.carryOut rewriter).run.run shop = (course'.carryOut rewriter).run.run shop')
    (ended : Ends rewriter course' origin shop' outcome?) :
    Ends rewriter course origin shop outcome? := by
  cases ended with
  | done ran done => exact .done (same.trans ran) done
  | failed ran never => exact .failed (same.trans ran) never

theorem Ends.bind {next : α → Course β} {outcome? : Option (α × Deed)}
    {next? : α × Deed → Option (β × Deed)} (first : Ends rewriter course origin shop outcome?)
    (later : ∀ value deed shop', deed.Done origin shop' →
      Ends rewriter (next value) origin shop' (next? (value, deed)))
    (grows : ∀ value deed outcome, next? (value, deed) = some outcome → deed.Within outcome.2) :
    Ends rewriter (course >>= next) origin shop (outcome? >>= next?) := by
  have opened := Course.run_bind course next rewriter {} shop
  cases first with
  | @done value deed shop' ran done =>
    rw [ran] at opened
    exact .of_run opened (later value deed shop' done)
  | @failed _ failure shop' ran never =>
    rw [ran] at opened
    apply Ends.failed opened
    intro value more both possible
    cases outcome? with
    | none => cases both
    | some outcome =>
      obtain ⟨value', deed⟩ := outcome
      exact never value' deed rfl (possible.within (grows value' deed (value, more) both))

/-- A course that is followed by an answer. -/
theorem Ends.map {doing : Doing α} (answer : α → β)
    (ended : Ends rewriter course origin origin (doing.run {})) :
    Ends rewriter (do return answer (← course)) origin origin
      ((do return answer (← doing)).run {}) := by
  rw [StateT.run_bind]
  apply ended.bind
  · intro value deed shop' done
    exact .done rfl done
  · intro value deed outcome made
    cases made
    exact .refl deed

end

/-- A course that puts a file where it may, and fails where it may not. -/
structure Puts (course : Course Unit) (disk : Disk) (above : List Place) (place : Place)
    (content : Bytes) :
    Prop where
  opened : disk.Open above place → ∃ disk', course.Leads disk (.ok ()) disk' ∧
    disk.Placed disk' above place content
  closed : ¬ disk.Open above place → ∃ failure disk', course.Leads disk (.error failure) disk'

theorem Ends.put {rewriter : Rewriter σ} {course : Course Unit} {above : List Place} {place : Place}
    {content : Bytes} {deed : Deed} {origin shop : Workshop σ} (done : deed.Done origin shop)
    (puts : Puts course shop.disk above place content) :
    Ends rewriter course origin shop
      (some ((), { deed with delta := deed.delta.andThen (.single above place content) })) := by
  by_cases open_ : shop.disk.Open above place
  · obtain ⟨disk', leads, placed⟩ := puts.opened open_
    have single : (Delta.single above place content).Open shop.disk :=
      Delta.open_single_iff.mpr open_
    have made := Delta.made_of_placed placed
    refine .done (leads.run_eq rewriter rfl) ⟨?_, ?_, done.store⟩
    · exact Delta.open_andThen done.open_ done.made single
    · exact done.made.andThen made single
  · obtain ⟨failure, disk', leads⟩ := puts.closed open_
    apply Ends.failed (leads.run_eq rewriter rfl)
    intro value more same possible
    cases same
    exact open_ (Delta.open_single_iff.mp (Delta.open_of_andThen done.made possible.open_).2)

/-- A course that goes on from any deed as a deed in the making does. -/
structure Refines (rewriter : Rewriter σ) (origin : Workshop σ) (course : Course α)
    (doing : Doing α) : Prop where
  grows : doing.Grows
  ends : ∀ {deed shop}, deed.Done origin shop → Ends rewriter course origin shop (doing.run deed)

namespace Refines
variable {rewriter : Rewriter σ} {origin : Workshop σ}

theorem pure (value : α) : Refines rewriter origin (Pure.pure value) (Pure.pure value) where
  grows := .pure value
  ends done := .done rfl done

theorem bind {course : Course α} {doing : Doing α} {next : α → Course β} {next' : α → Doing β}
    (first : Refines rewriter origin course doing)
    (later : ∀ value, Refines rewriter origin (next value) (next' value)) :
    Refines rewriter origin (course >>= next) (doing >>= next') where
  grows := first.grows.bind fun value => (later value).grows
  ends {deed _} done := by
    rw [StateT.run_bind]
    apply (first.ends done).bind
    · intro value middle shop' done
      exact (later value).ends done
    · intro value middle outcome made
      exact (later value).grows middle outcome.1 outcome.2 made

/-- Taking one item after another. -/
theorem foldlM {ι : Type} {items : List ι} {step : β → ι → Course β} {step' : β → ι → Doing β}
    (each : ∀ item ∈ items, ∀ value, Refines rewriter origin (step value item) (step' value item))
    (value : β) :
    Refines rewriter origin (items.foldlM step value) (items.foldlM step' value) := by
  induction items generalizing value with
  | nil => exact pure value
  | cons item items ih =>
    rw [List.foldlM_cons, List.foldlM_cons]
    apply (each item (List.mem_cons_self ..) value).bind
    intro value
    exact ih (fun other member => each other (List.mem_cons_of_mem item member)) value

theorem ask {plan : Plan} (follows : rewriter.Follows plan) (name : String) (content : Bytes) :
    Refines rewriter origin (Course.ask name content) (Doing.offer plan name content) where
  grows := Doing.grows_offer plan name content
  ends {deed shop} done := by
    have ran := Course.run_ask name content rewriter {} shop
    cases planned : plan name content with
    | none =>
      obtain ⟨failure, bench, refused⟩ := follows.refuses planned shop.bench
      rw [refused] at ran
      rw [Doing.run_offer_of_none planned]
      exact .failed ran nofun
    | some outcome =>
      obtain ⟨answer, records⟩ := outcome
      rw [Doing.run_offer_of_some planned]
      have whole : origin.bench.store.insertAll (deed.records ++ records) =
          shop.bench.store.insertAll records := by
        rw [Store.insertAll_append, done.store]
        rfl
      cases inserted : shop.bench.store.insertAll records with
      | ok store =>
        obtain ⟨memory, answered⟩ := follows.answers planned shop.bench inserted
        rw [answered] at ran
        exact .done ran ⟨done.open_, done.made, whole.trans inserted⟩
      | error conflict =>
        obtain ⟨failure, bench, refused⟩ := follows.conflicts planned shop.bench inserted
        rw [refused] at ran
        apply Ends.failed ran
        intro value more made possible
        cases made
        have accepted := Store.insertAll_eq_ok_iff.mpr ⟨possible.compatible, rfl⟩
        rw [whole, inserted] at accepted
        cases accepted

/-- A file that was there at the start is still there, and holds what was written last. -/
theorem see {path : Path} {place : Place} {content : Bytes} {view : Disk → Except Fault α}
    {seen : Bytes → α} {next : α → Course β} {next' : Bytes → Doing β}
    (file : origin.disk.kind? place = some (.file content)) (operation : String)
    (views : ∀ disk, origin.disk.Keeps disk → ∀ bytes, disk.kind? place = some (.file bytes) →
      view disk = .ok (seen bytes))
    (later : ∀ bytes, Refines rewriter origin (next (seen bytes)) (next' bytes)) :
    Refines rewriter origin (Course.see operation path view >>= next)
      (Doing.contentAt origin.disk place >>= next') where
  grows := (Doing.Always.contentAt origin.disk place).bind fun bytes => (later bytes).grows
  ends {deed shop} done := by
    obtain ⟨bytes, now, held⟩ := done.file file
    rw [StateT.run_bind, Doing.run_contentAt, now]
    refine .of_run ?_ ((later bytes).ends done)
    rw [Course.run_bind, Course.run_see, views shop.disk done.keeps bytes held]
    rfl

theorem put {course : Course Unit} {above : List Place} {place : Place} {content : Bytes}
    (puts : ∀ disk, origin.disk.Keeps disk → Puts course disk above place content) :
    Refines rewriter origin course (Doing.put above place content) where
  grows := .put fun deed => .put deed above place content
  ends done := .put done (puts _ done.keeps)

/-- Puts something that depends on what is in a file now. -/
theorem copy {course : Course Unit} {above : List Place} {place source : Place} {content : Bytes}
    {copied : Bytes → Bytes} (file : origin.disk.kind? source = some (.file content))
    (puts : ∀ disk, origin.disk.Keeps disk → ∀ bytes, disk.kind? source = some (.file bytes) →
      Puts course disk above place (copied bytes)) :
    Refines rewriter origin course
      (do Doing.put above place (copied (← Doing.contentAt origin.disk source))) where
  grows := (Doing.Always.contentAt origin.disk source).bind fun bytes =>
    .put fun deed => .put deed above place (copied bytes)
  ends {deed shop} done := by
    obtain ⟨bytes, now, held⟩ := done.file file
    rw [StateT.run_bind, Doing.run_contentAt, now]
    exact .put done (puts _ done.keeps bytes held)

end Refines

/-! Marking rewriters. -/

namespace Marking

def recordFor? (marking : Marking) (entry : String) : Option Record :=
  (marking.record.name <|> ClassName.ofEntry? entry).map fun name => {
    name := name
    sourceFile := marking.record.sourceFile
    lines := marking.record.lines
    branches := marking.record.branches }

/-- What a marking rewriter makes of a class, if it looks at all of them. -/
def plan (marking : Marking) : Plan := fun entry content =>
  if marking.failOn = some entry then none
  else if isMarked content then some (⟨content, false⟩, [])
  else (marking.recordFor? entry).map fun record => (⟨content ++ mark, true⟩, [record])

private theorem run_recordFor (marking : Marking) (entry : String) (bench : Bench Nat) :
    (marking.recordFor entry).run.run bench =
      match marking.recordFor? entry with
      | some record => (.ok record, bench)
      | none => (.error (.rewriter entry "cannot derive class name from entry"), bench) := by
  unfold recordFor recordFor? Rewriting.classNameOf
  cases marking.record.name with
  | some name => rfl
  | none => cases ClassName.ofEntry? entry <;> rfl

/-- A class that the rewriter does not fail on is left alone if it is marked, and marked
otherwise. -/
theorem run_rewriter {marking : Marking} (all : marking.every = 1) (entry : String)
    (content : Bytes) (bench : Bench Nat) :
    (marking.rewriter entry content).run.run bench =
      if marking.failOn = some entry then
        (.error (.rewriter entry "unsupported class version"), ⟨bench.store, bench.memory + 1⟩)
      else if isMarked content then (.ok ⟨content, false⟩, ⟨bench.store, bench.memory + 1⟩)
      else
        match marking.recordFor? entry with
        | none => (.error (.rewriter entry "cannot derive class name from entry"),
          ⟨bench.store, bench.memory + 1⟩)
        | some record =>
          match bench.store.insert record with
          | .ok store => (.ok ⟨content ++ mark, true⟩, ⟨store, bench.memory + 1⟩)
          | .error conflict =>
            (.error (.ofConflict conflict), ⟨bench.store, bench.memory + 1⟩) := by
  unfold rewriter
  rw [Steps.run_bind, Steps.run_get]
  simp only
  rw [Steps.run_bind, Steps.run_modify]
  simp only
  split
  · rfl
  · rw [all, Nat.mod_one]
    cases isMarked content with
    | true => rfl
    | false =>
      simp only [ne_eq, not_true_eq_false, decide_false, Bool.or_self,
        Bool.false_eq_true, ↓reduceIte]
      rw [Steps.run_bind, run_recordFor]
      cases marking.recordFor? entry with
      | none => rfl
      | some record =>
        simp only
        rw [Steps.run_bind, Rewriting.run_register]
        cases bench.store.insert record with
        | ok store => rfl
        | error conflict => rfl

/-- A planned class is answered as planned once its records are in the store. -/
theorem run_of_plan {marking : Marking} (all : marking.every = 1) {entry : String} {content : Bytes}
    {answer : Rewritten} {records : List Record}
    (planned : marking.plan entry content = some (answer, records)) (bench : Bench Nat) :
    (marking.rewriter entry content).run.run bench =
      match bench.store.insertAll records with
      | .ok store => (.ok answer, ⟨store, bench.memory + 1⟩)
      | .error conflict => (.error (.ofConflict conflict), ⟨bench.store, bench.memory + 1⟩) := by
  rw [run_rewriter all]
  unfold plan at planned
  split at planned
  · cases planned
  · rename_i passes
    rw [if_neg passes]
    split at planned
    · rename_i marked
      cases planned
      rw [if_pos marked]
      rfl
    · rename_i unmarked
      obtain ⟨record, named, same⟩ := Option.map_eq_some_iff.mp planned
      cases same
      rw [if_neg unmarked, named, Store.insertAll_singleton]
      rfl

private theorem run_of_plan_none {marking : Marking} (all : marking.every = 1) {entry : String}
    {content : Bytes} (planned : marking.plan entry content = none) (bench : Bench Nat) :
    ∃ failure bench', (marking.rewriter entry content).run.run bench =
      (.error failure, bench') := by
  rw [run_rewriter all]
  unfold plan at planned
  split at planned
  · rename_i fails
    exact ⟨_, _, if_pos fails⟩
  · rename_i passes
    rw [if_neg passes]
    split at planned
    · cases planned
    · rename_i unmarked
      rw [if_neg unmarked, Option.map_eq_none_iff.mp planned]
      exact ⟨_, _, rfl⟩

theorem follows {marking : Marking} (all : marking.every = 1) :
    marking.rewriter.Follows marking.plan where
  refuses none bench := run_of_plan_none all none bench
  answers planned bench inserted := by
    rw [run_of_plan all planned, inserted]
    exact ⟨_, rfl⟩
  conflicts planned bench refused := by
    rw [run_of_plan all planned, refused]
    exact ⟨_, _, rfl⟩

end Marking
end ClassCoverage
