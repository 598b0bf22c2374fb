import ClassCoverage.Proofs.CourseRuns

/-! Courses among others. A worker that shares a disk with others has a part of it to itself; a pact
says what the disk is like, given this part and that of the others. A course upholds the pact if it
does so step by step, whatever the others have done to their part between the steps. -/
namespace ClassCoverage
variable {α β σ ι ε : Type}

/-- What holds between the own part of a disk, the part of the others, and the disk. -/
abbrev Pact (ι ε : Type) := ι → ε → Disk → Prop

/-- A part that the pact leaves possible. -/
def Pact.Allows (pact : Pact ι ε) (own : ι) : Prop := ∃ others disk, pact own others disk

/-- An own part of a kind that knows of no directory that was there before and is gone. -/
def Pact.Since (pact : Pact ι ε) (P : ι → Prop) (before : Disk) (own : ι) : Prop :=
  P own ∧ ∀ others disk, pact own others disk → before.Keeps disk

/-- Whoever has a part of this kind can note what the disk is like: directories stay. -/
def Pact.Notes (pact : Pact ι ε) (P : ι → Prop) : Prop :=
  ∀ own others disk, P own → pact own others disk →
    ∃ own', pact.Since P disk own' ∧ pact own' others disk

/-- What was noted before is still known when more is noted. -/
theorem Pact.Notes.since {pact : Pact ι ε} {P : ι → Prop} (notes : pact.Notes P) (before : Disk) :
    pact.Notes (pact.Since P before) := by
  rintro own others disk ⟨kind, known⟩ holds
  obtain ⟨own', ⟨kind', keeps⟩, holds'⟩ := notes own others disk kind holds
  refine ⟨own', ⟨⟨kind', fun others' disk' holds'' => ?_⟩, keeps⟩, holds'⟩
  exact (known others disk holds).trans (keeps others' disk' holds'')

namespace Course

/-- A course that fails in the end, whatever happens. -/
def Lost : Course α → Prop
  | done outcome => ∃ failure, outcome = .error failure
  | watch next => ∀ disk, (next disk).Lost
  | act _ _ _ next => ∀ result, (next result).Lost
  | keep _ next => ∀ store, (next store).Lost
  | offer _ _ next => ∀ result, (next result).Lost

/-- A course that leads to an own part and a store of a kind. It is lost only where it is
blocked. -/
def Upholds (rewriter : Rewriter σ) (pact : Pact ι ε) (blocked : Prop)
    (post : α → ι → Store → Prop) : Course α → ι → Store → Prop
  | done (.ok value), own, store => post value own store
  | done (.error _), _, _ => blocked
  | watch next, own, store => (watch next).Lost ∧ blocked ∨
      ∀ others disk, pact own others disk → ∃ own', pact own' others disk ∧
        (next disk).Upholds rewriter pact blocked post own' store
  | act operation path change next, own, store => (act operation path change next).Lost ∧ blocked ∨
      ∀ others disk, pact own others disk →
        (∀ disk', change disk = .ok disk' → ∃ own', pact own' others disk' ∧
          (next (.ok disk)).Upholds rewriter pact blocked post own' store) ∧
        ∀ fault, change disk = .error fault →
          (next (.error fault)).Upholds rewriter pact blocked post own store
  | keep change next, own, store => (keep change next).Lost ∧ blocked ∨
      (next store).Upholds rewriter pact blocked post own (change store)
  | offer name content next, own, store => (offer name content next).Lost ∧ blocked ∨
      ∀ memory, (next ((rewriter name content).run.run ⟨store, memory⟩).1).Upholds rewriter pact
        blocked post own ((rewriter name content).run.run ⟨store, memory⟩).2.store

namespace Lost
variable {course : Course α}

theorem throw (failure : Failure) : (MonadExcept.throw failure : Course α).Lost := ⟨failure, rfl⟩

theorem bind (lost : course.Lost) (next : α → Course β) : (course >>= next).Lost := by
  change (course.bind next).Lost
  induction course with
  | done outcome =>
    obtain ⟨failure, rfl⟩ := lost
    exact ⟨failure, rfl⟩
  | watch rest ih => exact fun disk => ih disk (lost disk)
  | act operation path change rest ih => exact fun result => ih result (lost result)
  | keep change rest ih => exact fun store => ih store (lost store)
  | offer name content rest ih => exact fun result => ih result (lost result)

/-- A course is lost if it goes on with what is lost. -/
theorem of_next (course : Course α) {next : α → Course β} (later : ∀ value, (next value).Lost) :
    (course >>= next).Lost := by
  change (course.bind next).Lost
  induction course with
  | done outcome =>
    cases outcome with
    | ok value => exact later value
    | error failure => exact ⟨failure, rfl⟩
  | watch rest ih => exact fun disk => ih disk
  | act operation path change rest ih => exact fun result => ih result
  | keep change rest ih => exact fun store => ih store
  | offer name content rest ih => exact fun result => ih result

private theorem tryCatch (lost : course.Lost) {handler : Failure → Course α}
    (handled : ∀ failure, (handler failure).Lost) : (tryCatch course handler).Lost := by
  change (course.tryCatch handler).Lost
  induction course with
  | done outcome =>
    obtain ⟨failure, rfl⟩ := lost
    exact handled failure
  | watch rest ih => exact fun disk => ih disk (lost disk)
  | act operation path change rest ih => exact fun result => ih result (lost result)
  | keep change rest ih => exact fun store => ih store (lost store)
  | offer name content rest ih => exact fun result => ih result (lost result)

theorem step (lost : course.Lost) (rewriter : Rewriter σ) (system : System) (shop : Workshop σ) :
    ((course.step rewriter system).run shop).1.Lost := by
  cases course with
  | done outcome => exact lost
  | watch next => exact lost shop.disk
  | act operation path change next =>
    unfold Course.step
    simp only [StateT.run_bind, StateT.run_get, pure_bind]
    cases system.attempt operation path change shop.disk with
    | ok disk => exact lost (.ok shop.disk)
    | error fault => exact lost (.error fault)
  | keep change next => exact lost shop.bench.store
  | offer name content next => exact lost _

theorem carryOut (lost : course.Lost) (rewriter : Rewriter σ) (system : System)
    (shop : Workshop σ) :
    ∃ failure shop', (course.carryOut rewriter system).run.run shop = (.error failure, shop') := by
  induction course generalizing shop with
  | done outcome =>
    obtain ⟨failure, rfl⟩ := lost
    exact ⟨failure, shop, rfl⟩
  | watch next ih => exact ih shop.disk (lost shop.disk) shop
  | act operation path change next ih =>
    rw [run_act]
    cases system.attempt operation path change shop.disk with
    | ok disk => exact ih (.ok shop.disk) (lost _) _
    | error fault => exact ih (.error fault) (lost _) _
  | keep change next ih => exact ih shop.bench.store (lost _) _
  | offer name content next ih => exact ih _ (lost _) _

end Lost

namespace Upholds
variable {rewriter : Rewriter σ} {pact : Pact ι ε} {blocked : Prop} {post : α → ι → Store → Prop}
  {course : Course α} {own : ι} {store : Store}

theorem of_lost (lost : course.Lost) (block : blocked) :
    course.Upholds rewriter pact blocked post own store := by
  cases course with
  | done outcome =>
    obtain ⟨failure, rfl⟩ := lost
    exact block
  | watch next => exact .inl ⟨lost, block⟩
  | act operation path change next => exact .inl ⟨lost, block⟩
  | keep change next => exact .inl ⟨lost, block⟩
  | offer name content next => exact .inl ⟨lost, block⟩

/-- What leads from each of the answers to where the whole course leads can follow. -/
theorem bind {next : α → Course β} {post' : β → ι → Store → Prop}
    (first : course.Upholds rewriter pact blocked (fun value own store =>
      (next value).Upholds rewriter pact blocked post' own store) own store) :
    (course >>= next).Upholds rewriter pact blocked post' own store := by
  change (course.bind next).Upholds rewriter pact blocked post' own store
  induction course generalizing own store with
  | done outcome => cases outcome <;> exact first
  | watch rest ih =>
    refine first.imp (fun ⟨lost, block⟩ => ⟨lost.bind next, block⟩) fun goes others disk holds => ?_
    obtain ⟨own', holds', goes'⟩ := goes others disk holds
    exact ⟨own', holds', ih disk goes'⟩
  | act operation path change rest ih =>
    refine first.imp (fun ⟨lost, block⟩ => ⟨lost.bind next, block⟩) fun goes others disk holds => ?_
    obtain ⟨done, refused⟩ := goes others disk holds
    constructor
    · intro disk' changed
      obtain ⟨own', holds', goes'⟩ := done disk' changed
      exact ⟨own', holds', ih _ goes'⟩
    · intro fault failed
      exact ih _ (refused fault failed)
  | keep change rest ih =>
    exact first.imp (fun ⟨lost, block⟩ => ⟨lost.bind next, block⟩) (ih store)
  | offer name content rest ih =>
    refine first.imp (fun ⟨lost, block⟩ => ⟨lost.bind next, block⟩) fun goes memory => ?_
    exact ih _ (goes memory)

theorem mono {post' : α → ι → Store → Prop} {blocked' : Prop}
    (upholds : course.Upholds rewriter pact blocked post own store) (block : blocked → blocked')
    (more : ∀ value own store, post value own store → post' value own store) :
    course.Upholds rewriter pact blocked' post' own store := by
  induction course generalizing own store with
  | done outcome =>
    cases outcome with
    | ok value => exact more value own store upholds
    | error failure => exact block upholds
  | watch rest ih =>
    refine upholds.imp (And.imp_right block) fun goes others disk holds => ?_
    obtain ⟨own', holds', goes'⟩ := goes others disk holds
    exact ⟨own', holds', ih disk goes'⟩
  | act operation path change rest ih =>
    refine upholds.imp (And.imp_right block) fun goes others disk holds => ?_
    obtain ⟨done, refused⟩ := goes others disk holds
    constructor
    · intro disk' changed
      obtain ⟨own', holds', goes'⟩ := done disk' changed
      exact ⟨own', holds', ih _ goes'⟩
    · intro fault failed
      exact ih _ (refused fault failed)
  | keep change rest ih => exact upholds.imp (And.imp_right block) (ih store)
  | offer name content rest ih =>
    refine upholds.imp (And.imp_right block) fun goes memory => ?_
    exact ih _ (goes memory)

theorem bind_mono {next : α → Course β} {post' : β → ι → Store → Prop}
    (first : course.Upholds rewriter pact blocked post own store)
    (later : ∀ value own store, post value own store →
      (next value).Upholds rewriter pact blocked post' own store) :
    (course >>= next).Upholds rewriter pact blocked post' own store :=
  bind (first.mono id later)

/-- The disk is looked at while the others have their part. -/
theorem disk_bind {next : Disk → Course α}
    (looks : ∀ others disk, pact own others disk → ∃ own', pact own' others disk ∧
      (next disk).Upholds rewriter pact blocked post own' store) :
    (Course.disk >>= next).Upholds rewriter pact blocked post own store := .inr looks

/-- What is looked at is there, whatever the others do. -/
theorem see_bind {operation : String} {path : Path} {view : Disk → Except Fault α}
    {next : α → Course β} {post' : β → ι → Store → Prop}
    (looks : ∀ others disk, pact own others disk → ∃ value own', view disk = .ok value ∧
      pact own' others disk ∧ (next value).Upholds rewriter pact blocked post' own' store) :
    (Course.see operation path view >>= next).Upholds rewriter pact blocked post' own store := by
  refine .inr fun others disk holds => ?_
  obtain ⟨value, own', seen, holds', goes⟩ := looks others disk holds
  dsimp only
  rw [seen]
  refine ⟨fun disk' same => ?_, nofun⟩
  cases same
  refine ⟨own', holds', ?_⟩
  change (ofAnswer operation path (view disk) >>= next).Upholds rewriter pact blocked post' own'
    store
  rwa [seen]

/-- Steps whose answers are known, each of which keeps what is known of the own part. -/
theorem foldlM {κ : Type} {step : α → κ → Course α} {answer : α → κ → α} {items : List κ}
    {P : ι → Prop}
    (each : ∀ value, ∀ item ∈ items, ∀ own, P own → (step value item).Upholds rewriter pact blocked
      (fun value' own' store' => value' = answer value item ∧ P own' ∧ store' = store) own store)
    (start : P own) (value : α) :
    (items.foldlM step value).Upholds rewriter pact blocked
      (fun value' own' store' => value' = items.foldl answer value ∧ P own' ∧ store' = store)
      own store := by
  induction items generalizing own value with
  | nil => exact ⟨rfl, start, rfl⟩
  | cons item items ih =>
    rw [List.foldlM_cons, List.foldl_cons]
    refine bind_mono (each value item (List.mem_cons_self ..) own start) ?_
    rintro _ own' _ ⟨rfl, still, rfl⟩
    exact ih (fun value other member => each value other (List.mem_cons_of_mem item member)) still _

/-- What can only be handled by failing need not be handled. -/
theorem tryCatch (upholds : course.Upholds rewriter pact blocked post own store)
    {handler : Failure → Course α} (handled : ∀ failure, (handler failure).Lost) :
    (tryCatch course handler).Upholds rewriter pact blocked post own store := by
  change (course.tryCatch handler).Upholds rewriter pact blocked post own store
  induction course generalizing own store with
  | done outcome =>
    cases outcome with
    | ok value => exact upholds
    | error failure => exact of_lost (handled failure) upholds
  | watch rest ih =>
    refine upholds.imp (fun ⟨lost, block⟩ => ⟨lost.tryCatch handled, block⟩) ?_
    intro goes others disk holds
    obtain ⟨own', holds', goes'⟩ := goes others disk holds
    exact ⟨own', holds', ih disk goes'⟩
  | act operation path change rest ih =>
    refine upholds.imp (fun ⟨lost, block⟩ => ⟨lost.tryCatch handled, block⟩) ?_
    intro goes others disk holds
    obtain ⟨done, refused⟩ := goes others disk holds
    constructor
    · intro disk' changed
      obtain ⟨own', holds', goes'⟩ := done disk' changed
      exact ⟨own', holds', ih _ goes'⟩
    · intro fault failed
      exact ih _ (refused fault failed)
  | keep change rest ih =>
    exact upholds.imp (fun ⟨lost, block⟩ => ⟨lost.tryCatch handled, block⟩) (ih store)
  | offer name content rest ih =>
    refine upholds.imp (fun ⟨lost, block⟩ => ⟨lost.tryCatch handled, block⟩) ?_
    exact fun goes memory => ih _ (goes memory)

/-- A course goes on among more parts, if the larger pact comes down to the smaller one. -/
theorem frame {κ ε' : Type} {larger : Pact κ ε'} {post' : α → κ → Store → Prop}
    (upholds : course.Upholds rewriter pact blocked post own store) (widen : ι → κ)
    (comes : ∀ own others disk, larger (widen own) others disk → ∃ fewer, pact own fewer disk ∧
      ∀ own' disk', pact own' fewer disk' → larger (widen own') others disk')
    (more : ∀ value own store, post value own store → post' value (widen own) store) :
    course.Upholds rewriter larger blocked post' (widen own) store := by
  induction course generalizing own store with
  | done outcome =>
    cases outcome with
    | ok value => exact more value own store upholds
    | error failure => exact upholds
  | watch rest ih =>
    refine upholds.imp_right fun goes others disk holds => ?_
    obtain ⟨fewer, holds, back⟩ := comes own others disk holds
    obtain ⟨own', holds', goes'⟩ := goes fewer disk holds
    exact ⟨widen own', back own' disk holds', ih disk goes'⟩
  | act operation path change rest ih =>
    refine upholds.imp_right fun goes others disk holds => ?_
    obtain ⟨fewer, holds, back⟩ := comes own others disk holds
    obtain ⟨done, refused⟩ := goes fewer disk holds
    constructor
    · intro disk' changed
      obtain ⟨own', holds', goes'⟩ := done disk' changed
      exact ⟨widen own', back own' disk' holds', ih _ goes'⟩
    · intro fault failed
      exact ih _ (refused fault failed)
  | keep change rest ih => exact upholds.imp_right (ih store)
  | offer name content rest ih => exact upholds.imp_right fun goes memory => ih _ (goes memory)

/-- One step of a course, while the others have their part. -/
theorem step (upholds : course.Upholds rewriter pact blocked post own store) {others : ε}
    {disk : Disk} (holds : pact own others disk) (memory : σ) :
    (((course.step rewriter {}).run ⟨disk, ⟨store, memory⟩⟩).1.Lost ∧ blocked) ∨
      ∃ own', pact own' others ((course.step rewriter {}).run ⟨disk, ⟨store, memory⟩⟩).2.disk ∧
        ((course.step rewriter {}).run ⟨disk, ⟨store, memory⟩⟩).1.Upholds rewriter pact blocked post
          own' ((course.step rewriter {}).run ⟨disk, ⟨store, memory⟩⟩).2.bench.store := by
  cases course with
  | done outcome => exact .inr ⟨own, holds, upholds⟩
  | watch next =>
    rcases upholds with ⟨lost, block⟩ | goes
    · exact .inl ⟨lost.step rewriter {} _, block⟩
    · exact .inr (goes others disk holds)
  | act operation path change next =>
    rcases upholds with ⟨lost, block⟩ | goes
    · exact .inl ⟨lost.step rewriter {} _, block⟩
    · obtain ⟨done, refused⟩ := goes others disk holds
      unfold Course.step
      simp only [StateT.run_bind, StateT.run_get, pure_bind, System.attempt_of_default]
      cases changed : change disk with
      | ok disk' =>
        obtain ⟨own', holds', goes'⟩ := done disk' changed
        exact .inr ⟨own', holds', goes'⟩
      | error fault => exact .inr ⟨own, holds, refused fault changed⟩
  | keep change next =>
    rcases upholds with ⟨lost, block⟩ | goes
    · exact .inl ⟨lost.step rewriter {} _, block⟩
    · exact .inr ⟨own, holds, goes⟩
  | offer name content next =>
    rcases upholds with ⟨lost, block⟩ | goes
    · exact .inl ⟨lost.step rewriter {} _, block⟩
    · exact .inr ⟨own, holds, goes memory⟩

end Upholds
end Course
end ClassCoverage
