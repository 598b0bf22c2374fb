import ClassCoverage.Proofs.RebuildRun
import ClassCoverage.Proofs.UpheldCourses

/-! Private runs. A course among others does what it would do on a disk of its own, if it sees
nothing of what the others do. The rewriter is asked by the others too, and so remembers anything at
each of its calls. -/
namespace ClassCoverage
variable {α β σ ε : Type}

/-- A rewriter that takes a new memory from a list for each of its calls. -/
def Rewriter.varying (rewriter : Rewriter σ) (fallback : σ) :
    Rewriter (List σ) := fun name content =>
  .mk fun bench =>
    let (result, after) :=
      (rewriter name content).run.run ⟨bench.store, bench.memory.headD fallback⟩
    (result, ⟨after.store, bench.memory.tail⟩)

theorem Rewriter.run_varying (rewriter : Rewriter σ) (fallback : σ) (name : String)
    (content : Bytes) (bench : Bench (List σ)) :
    (rewriter.varying fallback name content).run.run bench =
      (((rewriter name content).run.run ⟨bench.store, bench.memory.headD fallback⟩).1,
        ⟨((rewriter name content).run.run ⟨bench.store, bench.memory.headD fallback⟩).2.store,
          bench.memory.tail⟩) := rfl

namespace Course

/-- A course that succeeds on a disk of its own, with some memories of the rewriter. -/
def Privately (rewriter : Rewriter σ) (fallback : σ) (course : Course α) (disk : Disk)
    (store : Store) (value : α) (disk' : Disk) (store' : Store) : Prop :=
  ∃ memories, ∀ more, (course.carryOut (rewriter.varying fallback)).run.run
    ⟨disk, ⟨store, memories ++ more⟩⟩ = (.ok value, ⟨disk', ⟨store', more⟩⟩)

/-- A course that fails on a disk of its own, with some memories of the rewriter. -/
def CanFail (rewriter : Rewriter σ) (fallback : σ) (course : Course α) (disk : Disk)
    (store : Store) :
    Prop :=
  ∃ memories failure shop', (course.carryOut (rewriter.varying fallback)).run.run
    ⟨disk, ⟨store, memories⟩⟩ = (.error failure, shop')

/-- A course that does on a shared disk what it does on its own one. It fails there only where it is
blocked, or can fail on its own disk. -/
def Mirrors (rewriter : Rewriter σ) (fallback : σ) (pact : Pact Disk ε) (blocked : Prop)
    (course : Course α) (disk : Disk) (store : Store) : Prop :=
  (course.CanFail rewriter fallback disk store → blocked) →
    course.Upholds rewriter pact blocked (fun value disk' store' =>
      course.Privately rewriter fallback disk store value disk' store' ∧
        (pact.Allows disk → pact.Allows disk')) disk store

section
variable {rewriter : Rewriter σ} {fallback : σ} {course : Course α} {disk disk' disk'' : Disk}
  {store store' store'' : Store}

theorem Lost.canFail (lost : course.Lost) (rewriter : Rewriter σ) (fallback : σ) (disk : Disk)
    (store : Store) : course.CanFail rewriter fallback disk store := by
  obtain ⟨failure, shop', failed⟩ :=
    lost.carryOut (rewriter.varying fallback) {} ⟨disk, ⟨store, []⟩⟩
  exact ⟨[], failure, shop', failed⟩

theorem CanFail.bind {next : α → Course β} (fails : course.CanFail rewriter fallback disk store) :
    (course >>= next).CanFail rewriter fallback disk store := by
  obtain ⟨memories, failure, shop', failed⟩ := fails
  refine ⟨memories, failure, shop', ?_⟩
  rw [run_bind, failed]

theorem CanFail.after {next : α → Course β} {value : α}
    (first : course.Privately rewriter fallback disk store value disk' store')
    (fails : (next value).CanFail rewriter fallback disk' store') :
    (course >>= next).CanFail rewriter fallback disk store := by
  obtain ⟨memories, ran⟩ := first
  obtain ⟨more, failure, shop', failed⟩ := fails
  refine ⟨memories ++ more, failure, shop', ?_⟩
  rw [run_bind, ran]
  exact failed

theorem CanFail.tryCatch {handler : Failure → Course α}
    (handled : ∀ failure, (handler failure).Lost)
    (fails : course.CanFail rewriter fallback disk store) :
    (tryCatch course handler).CanFail rewriter fallback disk store := by
  obtain ⟨memories, failure, shop', failed⟩ := fails
  obtain ⟨final, shop'', stopped⟩ := (handled failure).carryOut (rewriter.varying fallback) {} shop'
  refine ⟨memories, final, shop'', ?_⟩
  rw [run_tryCatch, failed]
  exact stopped

namespace Privately

theorem pure (value : α) (disk : Disk) (store : Store) :
    (Pure.pure value : Course α).Privately rewriter fallback disk store value disk store :=
  ⟨[], fun _ => rfl⟩

theorem bind {next : α → Course β} {value : α} {last : β}
    (first : course.Privately rewriter fallback disk store value disk' store')
    (later : (next value).Privately rewriter fallback disk' store' last disk'' store'') :
    (course >>= next).Privately rewriter fallback disk store last disk'' store'' := by
  obtain ⟨memories, ran⟩ := first
  obtain ⟨more, ran'⟩ := later
  refine ⟨memories ++ more, fun rest => ?_⟩
  rw [List.append_assoc, run_bind, ran]
  exact ran' rest

theorem tryCatch {handler : Failure → Course α} {value : α}
    (ran : course.Privately rewriter fallback disk store value disk' store') :
    (MonadExcept.tryCatch course handler).Privately rewriter fallback disk store
      value disk' store' := by
  obtain ⟨memories, ran⟩ := ran
  refine ⟨memories, fun more => ?_⟩
  rw [run_tryCatch, ran]

/-- What is left once an operation was carried out. -/
theorem act {operation : String} {path : Path} {change : Disk → Except Fault Disk}
    {next : Except Fault Disk → Course α} {value : α} (changed : change disk = .ok disk')
    (later : (next (.ok disk)).Privately rewriter fallback disk' store value disk'' store') :
    (Course.act operation path change next).Privately rewriter fallback disk store
      value disk'' store' := by
  obtain ⟨memories, ran⟩ := later
  refine ⟨memories, fun more => ?_⟩
  rw [run_act, System.attempt_of_default]
  simp only [changed]
  exact ran more

end Privately

/-! Mirrored courses. -/

namespace Mirrors
variable {pact : Pact Disk ε} {blocked : Prop}

theorem pure (value : α) :
    (Pure.pure value : Course α).Mirrors rewriter fallback pact blocked disk store :=
  fun _ => ⟨Privately.pure value disk store, id⟩

theorem throw (failure : Failure) :
    (MonadExcept.throw failure : Course α).Mirrors rewriter fallback pact blocked disk store :=
  fun fails => fails ((Lost.throw failure).canFail ..)

theorem of_lost (lost : course.Lost) : course.Mirrors rewriter fallback pact blocked disk store :=
  fun fails => .of_lost lost (fails (lost.canFail ..))

theorem bind {next : α → Course β}
    (first : course.Mirrors rewriter fallback pact blocked disk store)
    (later : ∀ value disk' store', course.Privately rewriter fallback disk store value disk'
      store' → (pact.Allows disk → pact.Allows disk') →
      (next value).Mirrors rewriter fallback pact blocked disk' store') :
    (course >>= next).Mirrors rewriter fallback pact blocked disk store := by
  intro fails
  apply Upholds.bind
  refine (first fun failed => fails failed.bind).mono id fun value disk' store' ⟨ran, allowed⟩ => ?_
  refine (later value disk' store' ran allowed fun failed => fails (failed.after ran)).mono id ?_
  exact fun last disk'' store'' ⟨ran', allowed'⟩ => ⟨ran.bind ran', allowed' ∘ allowed⟩

theorem tryCatch {handler : Failure → Course α}
    (mirrors : course.Mirrors rewriter fallback pact blocked disk store)
    (handled : ∀ failure, (handler failure).Lost) :
    (MonadExcept.tryCatch course handler).Mirrors rewriter fallback pact blocked disk store := by
  intro fails
  apply Upholds.tryCatch _ handled
  exact (mirrors fun failed => fails (failed.tryCatch handled)).mono id fun _ _ _ ⟨ran, allowed⟩ =>
    ⟨ran.tryCatch, allowed⟩

/-- What is handled only by failing is followed by what it would be followed by. -/
theorem tryCatch_bind {handler : Failure → Course α} {next : α → Course β}
    (mirrors : course.Mirrors rewriter fallback pact blocked disk store)
    (handled : ∀ failure, (handler failure).Lost)
    (later : ∀ value disk' store', course.Privately rewriter fallback disk store value disk'
      store' → (pact.Allows disk → pact.Allows disk') →
      (next value).Mirrors rewriter fallback pact blocked disk' store') :
    (MonadExcept.tryCatch course handler >>= next).Mirrors rewriter fallback pact
      blocked disk store := by
  intro fails
  apply Upholds.bind
  apply Upholds.tryCatch _ handled
  refine (mirrors fun failed => fails (failed.tryCatch handled).bind).mono id ?_
  intro value disk' store' ⟨ran, allowed⟩
  refine (later value disk' store' ran allowed fun failed =>
    fails (failed.after ran.tryCatch)).mono id ?_
  exact fun last disk'' store'' ⟨ran', allowed'⟩ => ⟨ran.tryCatch.bind ran', allowed' ∘ allowed⟩

/-- What is seen of the shared disk is to be the same as on the own one. -/
theorem watch {next : Disk → Course α}
    (same : ∀ others shared, pact disk others shared → next shared = next disk)
    (mirrors : (next disk).Mirrors rewriter fallback pact blocked disk store) :
    (Course.watch next).Mirrors rewriter fallback pact blocked disk store := by
  intro fails
  refine .inr fun others shared holds => ⟨disk, holds, ?_⟩
  rw [same others shared holds]
  exact mirrors fails

theorem disk_bind {next : Disk → Course α}
    (same : ∀ others shared, pact disk others shared → next shared = next disk)
    (mirrors : (next disk).Mirrors rewriter fallback pact blocked disk store) :
    (Course.disk >>= next).Mirrors rewriter fallback pact blocked disk store :=
  watch same mirrors

/-- An operation is to be carried out on both disks, or on none. -/
theorem act {operation : String} {path : Path} {change : Disk → Except Fault Disk}
    {next : Except Fault Disk → Course α}
    (later : ∀ disk', change disk = .ok disk' → pact.Allows disk' →
      (next (.ok disk)).Mirrors rewriter fallback pact blocked disk' store)
    (both : ∀ others shared, pact disk others shared →
      (∃ disk' shared', change disk = .ok disk' ∧ change shared = .ok shared' ∧
        pact disk' others shared' ∧ next (.ok shared) = next (.ok disk)) ∨
      ∃ fault, change shared = .error fault ∧ (next (.error fault)).Lost ∧
        (blocked ∨ ∃ fault', change disk = .error fault' ∧ (next (.error fault')).Lost)) :
    (Course.act operation path change next).Mirrors rewriter fallback pact blocked disk store := by
  intro fails
  refine .inr fun others shared holds => ?_
  rcases both others shared holds with
    ⟨disk', shared', own, changed, holds', same⟩ | ⟨fault, refused, lost, reason⟩
  · rw [changed, same]
    refine ⟨fun _ also => ?_, nofun⟩
    cases also
    have allowed : pact.Allows disk' := ⟨others, shared', holds'⟩
    refine ⟨disk', holds', (later disk' own allowed fun failed => fails ?_).mono id
      fun _ _ _ ⟨ran, allows⟩ => ⟨ran.act own, fun _ => allows allowed⟩⟩
    obtain ⟨memories, failure, shop', failed⟩ := failed
    refine ⟨memories, failure, shop', ?_⟩
    rw [run_act, System.attempt_of_default]
    simp only [own]
    exact failed
  · rw [refused]
    refine ⟨nofun, fun _ also => ?_⟩
    cases also
    apply Upholds.of_lost lost
    rcases reason with block | ⟨fault', own, lost'⟩
    · exact block
    · apply fails
      obtain ⟨memories, failure, shop', failed⟩ := lost'.canFail rewriter fallback disk store
      refine ⟨memories, failure, shop', ?_⟩
      rw [run_act, System.attempt_of_default]
      simp only [own]
      exact failed

/-- An operation that the rest only goes on from if it was carried out. -/
theorem changes {operation : String} {path : Path} {step : Disk → Except Fault Disk}
    {next : Except Fault Disk → Course α} {rest : Course α} (goes : ∀ disk, next (.ok disk) = rest)
    (lost : ∀ fault, (next (.error fault)).Lost)
    (both : ∀ others shared, pact disk others shared →
      (∃ disk' shared', step disk = .ok disk' ∧ step shared = .ok shared' ∧
      pact disk' others shared') ∨ ∃ fault, step shared = .error fault ∧
      (blocked ∨ ∃ fault', step disk = .error fault'))
    (later : ∀ disk', step disk = .ok disk' → pact.Allows disk' →
      rest.Mirrors rewriter fallback pact blocked disk' store) :
    (Course.act operation path step next).Mirrors rewriter fallback pact blocked disk store := by
  refine act (fun disk' stepped allowed => ?_) fun others shared holds => ?_
  · rw [goes]
    exact later disk' stepped allowed
  · rcases both others shared holds with ⟨disk', shared', own, changed,
      holds'⟩ | ⟨fault, refused, reason⟩
    · exact .inl ⟨disk', shared', own, changed, holds', (goes shared).trans (goes disk).symm⟩
    · exact .inr ⟨fault, refused, lost fault, reason.imp_right fun ⟨fault', own⟩ =>
        ⟨fault', own, lost fault'⟩⟩

theorem change {operation : String} {path : Path} {step : Disk → Except Fault Disk}
    (both : ∀ others shared, pact disk others shared →
      (∃ disk' shared', step disk = .ok disk' ∧ step shared = .ok shared' ∧
      pact disk' others shared') ∨ ∃ fault, step shared = .error fault ∧
      (blocked ∨ ∃ fault', step disk = .error fault')) :
    (Course.change operation path step).Mirrors rewriter fallback pact blocked disk store :=
  changes (fun _ => rfl) (fun _ => Lost.throw _) both fun _ _ _ => pure ()

theorem change_bind {operation : String} {path : Path} {step : Disk → Except Fault Disk}
    {next : Unit → Course α}
    (both : ∀ others shared, pact disk others shared →
      (∃ disk' shared', step disk = .ok disk' ∧ step shared = .ok shared' ∧
      pact disk' others shared') ∨ ∃ fault, step shared = .error fault ∧
      (blocked ∨ ∃ fault', step disk = .error fault'))
    (later : ∀ disk', step disk = .ok disk' → pact.Allows disk' →
      (next ()).Mirrors rewriter fallback pact blocked disk' store) :
    (Course.change operation path step >>= next).Mirrors rewriter fallback pact
      blocked disk store :=
  changes (fun _ => rfl) (fun _ => (Lost.throw _).bind next) both later

theorem see_bind {operation : String} {path : Path} {view : Disk → Except Fault α}
    {next : α → Course β}
    (same : ∀ others shared, pact disk others shared → view shared = view disk)
    (later : ∀ value, view disk = .ok value → pact.Allows disk →
      (next value).Mirrors rewriter fallback pact blocked disk store) :
    (Course.see operation path view >>= next).Mirrors rewriter fallback pact
      blocked disk store := by
  have lost (fault : Fault) :
      (ofAnswer operation path ((.error fault : Except Fault Disk).bind view) >>= next).Lost :=
    (Lost.throw _).bind next
  refine act (fun disk' looked allowed => ?_) fun others shared holds => ?_
  · cases seen : view disk with
    | error fault =>
      rw [seen] at looked
      cases looked
    | ok value =>
      rw [seen] at looked
      cases looked
      have answered : ofAnswer operation path ((.ok disk : Except Fault Disk).bind view) =
          (Pure.pure value : Course α) := by
        simp only [Except.bind, seen]
        rfl
      change (ofAnswer operation path ((.ok disk : Except Fault Disk).bind view) >>= next).Mirrors
        rewriter fallback pact blocked disk store
      rw [answered]
      exact later value seen allowed
  · have also := same others shared holds
    cases seen : view disk with
    | error fault =>
      rw [seen] at also
      refine .inr ⟨fault, ?_, lost fault, .inr ⟨fault, ?_, lost fault⟩⟩
      · rw [also]
        rfl
      · rfl
    | ok value =>
      rw [seen] at also
      refine .inl ⟨disk, shared, rfl, ?_, holds, ?_⟩
      · rw [also]
        rfl
      · simp only [Except.bind, seen, also]

theorem store_bind {next : Store → Course α}
    (later : (next store).Mirrors rewriter fallback pact blocked disk store) :
    (Course.store >>= next).Mirrors rewriter fallback pact blocked disk store :=
  fun fails => .inr (later fails)

theorem setStore_bind {next : Unit → Course α} {new : Store}
    (later : (next ()).Mirrors rewriter fallback pact blocked disk new) :
    (Course.setStore new >>= next).Mirrors rewriter fallback pact blocked disk store :=
  fun fails => .inr (later fails)

/-- Whatever the rewriter remembers when it is asked, it can remember in a private run. -/
theorem offer {name : String} {content : Bytes} {next : Except Failure Rewritten → Course α}
    (later : ∀ result store', (next result).Mirrors rewriter fallback pact blocked disk store') :
    (Course.offer name content next).Mirrors rewriter fallback pact blocked disk store := by
  intro fails
  refine .inr fun memory => (later _ _ fun failed => fails ?_).mono id fun _ _ _ ⟨ran, allowed⟩ =>
    ⟨?_, allowed⟩
  · obtain ⟨memories, failure, shop', failed⟩ := failed
    exact ⟨memory :: memories, failure, shop', failed⟩
  · obtain ⟨memories, ran⟩ := ran
    exact ⟨memory :: memories, ran⟩

theorem ask_bind {name : String} {content : Bytes} {next : Rewritten → Course α}
    (later : ∀ rewritten store',
    (next rewritten).Mirrors rewriter fallback pact blocked disk store') :
    (Course.ask name content >>= next).Mirrors rewriter fallback pact blocked disk store := by
  refine offer fun result store' => ?_
  cases result with
  | ok rewritten => exact later rewritten store'
  | error failure => exact of_lost ((Lost.throw failure).bind next)

theorem foldlM {ι : Type} {step : β → ι → Course β} {items : List ι}
    (each : ∀ item ∈ items, ∀ value disk store,
      (step value item).Mirrors rewriter fallback pact blocked disk store)
    (value : β) (disk : Disk) (store : Store) :
    (items.foldlM step value).Mirrors rewriter fallback pact blocked disk store := by
  induction items generalizing value disk store with
  | nil => exact pure value
  | cons item items ih =>
    rw [List.foldlM_cons]
    apply (each item (List.mem_cons_self ..) value disk store).bind
    intro value disk' store' _ _
    exact ih (fun other member => each other (List.mem_cons_of_mem item member)) value disk' store'

theorem of_asks (asks : course.Asks) :
    course.Mirrors rewriter fallback pact blocked disk store := by
  induction course generalizing store with
  | done outcome =>
    cases outcome with
    | ok value => exact pure value
    | error failure => exact asks.elim
  | offer name content next ih => exact offer fun result store' => ih result (asks result)
  | _ => exact asks.elim

end Mirrors
end
end Course
end ClassCoverage
