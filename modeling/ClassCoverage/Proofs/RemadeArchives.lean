import ClassCoverage.Proofs.ArchiveEquivalence
import ClassCoverage.Proofs.PerformedCourses
import ClassCoverage.Proofs.RegisteredRecords

/-! Archives that are remade among others' work. The moments of a worker show how an archive was
read and copied, how the copy was read, which of its classes the rewriter was offered, and what the
archive was filled with in the end. -/
namespace ClassCoverage
open Instrument

namespace Archive
variable {σ : Type} {rewriter : Rewriter σ} {store store' : Store} {moments : List (Moment σ)}
  {calls : List Call} {answers : List Rewritten} {records : List Record}

/-! What is asked at some moments. -/

/-- The classes that the rewriter was offered at some moments. -/
inductive Offered (rewriter : Rewriter σ) : Store → List (Moment σ) → List Call → Store → Prop where
  | none {store : Store} : Offered rewriter store [] [] store
  | next {moment : Moment σ} {moments : List (Moment σ)} {name : String}
    {content : Bytes} {calls : List Call}
      {store' : Store} (asked : moment.after.bench =
        ((rewriter name content).run.run moment.before.bench).2)
      (rest : Offered rewriter moment.after.bench.store moments calls store') :
      Offered rewriter moment.before.bench.store (moment :: moments)
        ((name, content) :: calls) store'

/-- The records that were registered at some moments, with the classes that were offered and what
the rewriter answered. -/
inductive Registered (rewriter : Rewriter σ) :
    Store → List (Moment σ) → List Call → List Rewritten → List Record → Store → Prop where
  | none {store : Store} : Registered rewriter store [] [] [] [] store
  | untouched {moment moments name content answer calls answers records store'}
      (answered : (rewriter name content).run.run moment.before.bench =
        (.ok answer, moment.after.bench))
      (same : answer.transformed = false) (kept : moment.after.bench.store =
        moment.before.bench.store)
      (rest : Registered rewriter moment.after.bench.store moments calls answers records store') :
      Registered rewriter moment.before.bench.store (moment :: moments) ((name, content) :: calls)
        (answer :: answers) records store'
  | transformed {moment moments name content answer record calls answers records store'}
      (answered : (rewriter name content).run.run moment.before.bench =
        (.ok answer, moment.after.bench))
      (changed : answer.transformed = true)
      (inserted : moment.before.bench.store.insert record = .ok moment.after.bench.store)
      (rest : Registered rewriter moment.after.bench.store moments calls answers records store') :
      Registered rewriter moment.before.bench.store (moment :: moments) ((name, content) :: calls)
        (answer :: answers) (record :: records) store'

namespace Registered

private theorem length
    (registered : Registered rewriter store moments calls answers records store') :
    records.length = (answers.filter Rewritten.transformed).length := by
  induction registered with
  | none => rfl
  | untouched _ same _ _ ih => rw [List.filter_cons_of_neg (by rw [same]; decide), ih]
  | transformed _ changed _ _ ih =>
    rw [List.filter_cons_of_pos changed, List.length_cons, List.length_cons, ih]

private theorem includes
    (registered : Registered rewriter store moments calls answers records store') :
    store'.Includes store := by
  induction registered with
  | none => exact .refl _
  | untouched _ _ kept _ ih => exact kept ▸ ih
  | transformed _ _ inserted _ ih => exact ih.trans (Store.includes_of_insert inserted).1

/-- No record that was registered is forgotten later on. -/
theorem covers (registered : Registered rewriter store moments calls answers records store') :
    ∀ record ∈ records, store'.Covers record := by
  induction registered with
  | none => exact nofun
  | untouched _ _ _ _ ih => exact ih
  | transformed _ _ inserted rest ih =>
    refine List.forall_mem_cons.mpr ⟨?_, ih⟩
    exact .of_includes rest.includes (Store.includes_of_insert inserted).2

end Registered

/-- A rewriter that has at each call the memory of a moment, and notes what it is asked. -/
def noting (rewriter : Rewriter σ) (fallback : σ) :
    Rewriter (List (Moment σ) × List Call) := fun name content =>
  .mk fun bench =>
    let memory := bench.memory.1.head?.elim fallback fun moment => moment.before.bench.memory
    let (result, after) := (rewriter name content).run.run ⟨bench.store, memory⟩
    (result, ⟨after.store, bench.memory.1.tail, bench.memory.2 ++ [(name, content)]⟩)

theorem run_noting (fallback : σ) (name : String) (content : Bytes) (moment : Moment σ)
    (more : List (Moment σ)) (notes : List Call) :
    (noting rewriter fallback name content).run.run ⟨moment.before.bench.store,
    moment :: more, notes⟩ =
      (((rewriter name content).run.run moment.before.bench).1,
        ⟨((rewriter name content).run.run moment.before.bench).2.store, more,
        notes ++ [(name, content)]⟩) := rfl

/-- What only asks the rewriter is what was offered at its moments. -/
theorem offered_of_performed {α : Type} {course : Course α} (asks : course.Asks) (fallback : σ)
    {outcome : Except Failure α}
    (performed : course.Performed rewriter store moments outcome store') :
    ∃ calls, Offered rewriter store moments calls store' ∧ ∀ notes,
      course.answer (noting rewriter fallback) ⟨store, moments, notes⟩ =
        (outcome, ⟨store', [], notes ++ calls⟩) := by
  induction course generalizing store moments with
  | done final =>
    obtain ⟨rfl, rfl, rfl⟩ := performed.of_done
    exact ⟨[], .none, fun notes => by rw [List.append_nil]; rfl⟩
  | offer name content next ih =>
    obtain ⟨moment, rest, rfl, rfl, asked, later⟩ := performed.of_offer
    obtain ⟨calls, offered, answers⟩ := ih _ (asks _) later
    refine ⟨(name, content) :: calls, .next asked offered, fun notes => ?_⟩
    rw [asked] at answers
    rw [Course.answer, run_noting]
    simpa using answers (notes ++ [(name, content)])
  | _ => exact asks.elim

/-- What is asked is noted. -/
theorem notes_of_offerAll {fallback : σ} {bench bench' : Bench (List (Moment σ) × List Call)}
    (answered : (offerAll (noting rewriter fallback) calls).run.run bench = (.ok answers, bench')) :
    bench'.memory.2 = bench.memory.2 ++ calls := by
  induction calls generalizing bench answers with
  | nil =>
    cases answered
    exact (List.append_nil _).symm
  | cons call calls ih =>
    unfold offerAll at answered
    rw [List.mapM_cons] at answered
    obtain ⟨answer, middle, first, rest⟩ := Steps.run_bind_ok answered
    obtain ⟨others, after, later, joined⟩ := Steps.run_bind_ok rest
    cases joined
    have noted : middle.memory.2 = bench.memory.2 ++ [call] :=
      congrArg (fun ran => ran.2.memory.2) first.symm
    rw [ih later, noted, List.append_assoc]
    rfl

/-- Every class that was transformed has brought a record. -/
theorem registered_of_offered (registers : rewriter.Registers)
    (offered : Offered rewriter store moments calls store') {fallback : σ} {notes : List Call}
    {bench : Bench (List (Moment σ) × List Call)}
    (answered : (offerAll (noting rewriter fallback) calls).run.run ⟨store, moments, notes⟩ =
      (.ok answers, bench)) :
    ∃ records, Registered rewriter store moments calls answers records store' := by
  induction offered generalizing answers notes with
  | none =>
    cases answered
    exact ⟨[], .none⟩
  | @next moment moments name content calls store' asked _ ih =>
    unfold offerAll at answered
    rw [List.mapM_cons] at answered
    obtain ⟨answer, middle, first, rest⟩ := Steps.run_bind_ok answered
    obtain ⟨others, after, later, joined⟩ := Steps.run_bind_ok rest
    cases joined
    rw [run_noting] at first
    obtain ⟨given, went⟩ := Prod.mk.inj first
    have own : (rewriter name content).run.run moment.before.bench =
        (.ok answer, moment.after.bench) :=
      Prod.ext given asked.symm
    rw [← went, ← asked] at later
    obtain ⟨records, registered⟩ := ih later
    cases changed : answer.transformed with
    | true =>
      obtain ⟨record, inserted⟩ := registers.transformed own changed
      exact ⟨record :: records, .transformed own changed inserted registered⟩
    | false => exact ⟨records, .untouched own changed (registers.untouched own changed) registered⟩

/-- The building of an archive, step by step: each class was offered at one of the moments. -/
theorem registered_of_rebuild [Library] (registers : rewriter.Registers) (fallback : σ)
    {path : Path} {options : Options} {old : List Entry} {built : Built}
    (performed : (rebuild path options old).Performed rewriter store moments
      (.ok (.ok (), built)) store') :
    ∃ calls answers records,
      Rebuilt CarriedOver GivenContent options.keepDirectoryEntries old calls
        answers built.entries ∧
      Registered rewriter store moments calls answers records store' ∧
      built.summary.transformed = (answers.filter Rewritten.transformed).length := by
  obtain ⟨asked, offered, comes⟩ :=
    offered_of_performed (OnlyAsks.forM path options old {}) fallback performed
  let start : Rebuild (List (Moment σ) × List Call) := { bench := ⟨store, moments, []⟩ }
  have run : (builds (noting rewriter fallback)
      (old.forM (rebuildEntry path options))).run.run start =
      (.ok (), ⟨⟨store', [], asked⟩, built.entries, built.summary⟩) := by
    have came := comes []
    rw [run_builds _ start (congrArg Prod.fst came)]
    exact congrArg (fun bench =>
      (Except.ok (), (⟨bench, built.entries, built.summary⟩ : Rebuild _)))
      (congrArg Prod.snd came)
  obtain ⟨calls, answers, new, rebuilt, answered, entries, counted⟩ := rebuilt_of_run run
  obtain rfl : asked = calls := notes_of_offerAll answered
  obtain ⟨records, registered⟩ := registered_of_offered registers offered answered
  rw [show built.entries = new from entries]
  exact ⟨asked, answers, records, rebuilt, registered, counted.transformed.trans (Nat.zero_add _)⟩

/-! A whole archive. -/

/-- The moments at which something became of an archive: it was read, its copy was filled and then
read itself, its classes were offered, it was filled anew, and the copy was removed. -/
structure Stages (σ : Type) where
  taken : Moment σ
  copied : Moment σ
  opened : Moment σ
  asked : List (Moment σ)
  filled : Moment σ
  cleared : Moment σ

def Stages.all (stages : Stages σ) : List (Moment σ) :=
  stages.taken :: stages.copied :: stages.opened ::
    (stages.asked ++ [stages.filled, stages.cleared])

/-- An archive that was remade, with its entries and those that replace them, the classes that were
offered, what the rewriter answered, and the records that it registered. The records were joined to
the store of the worker. -/
structure Remade [Library] (rewriter : Rewriter σ) (options : Options) (path copy : Path)
    (store store' : Store) (summary : Summary) (stages : Stages σ) (old new : List Entry)
    (calls : List Call) (answers : List Rewritten) (records : List Record) : Prop where
  copied : ∃ content, stages.taken.before.disk.read path = .ok content ∧
    stages.copied.before.disk.fill copy content = .ok stages.copied.after.disk
  opened : ∃ content, stages.opened.before.disk.read copy = .ok content ∧
    Library.read? content = some old
  filled : ∃ content, Library.read? content = some new ∧
    stages.filled.before.disk.fill path content = .ok stages.filled.after.disk
  cleared : stages.cleared.before.disk.removeFile copy = .ok stages.cleared.after.disk
  rebuilt : Rebuilt Carried Renewed options.keepDirectoryEntries old calls answers new
  registered : ∃ staged, Registered rewriter .empty stages.asked calls answers records staged ∧
    store.merge staged = .ok store'
  one : records.length = summary.transformed

/-- An archive is moved aside in four steps. -/
theorem of_moveAside {path copy : Path}
    (performed : (moveAside path).Performed rewriter store moments (.ok copy) store') :
    store' = store ∧ ∃ created taken copied removed content, moments = [created,
    taken, copied, removed] ∧
      taken.before.disk.read path = .ok content ∧ copied.before.disk.fill copy content =
        .ok copied.after.disk := by
  obtain ⟨_, _, named, _, rfl, creating, rest⟩ := performed.of_bind
  obtain ⟨_, _, _, _, rfl, moving, ended⟩ := rest.of_bind
  obtain ⟨rfl, rfl, rfl⟩ := ended.of_pure
  obtain ⟨created, _, rfl, ⟨-, answered⟩ | ⟨_, -, answered⟩⟩ := creating.of_act
  · obtain ⟨rfl, -, rfl⟩ := answered.of_ofAnswer
    have moved := moving.of_tryCatch fun _ => .of_next _ fun _ => .throw _
    obtain ⟨_, _, content, _, rfl, reading, filling⟩ := moved.of_bind
    obtain ⟨taken, rfl, own, rfl⟩ := reading.of_see
    obtain ⟨_, _, _, _, rfl, filled, removing⟩ := filling.of_bind
    obtain ⟨copied, rfl, done, rfl⟩ := filled.of_change
    obtain ⟨removed, rfl, -, rfl⟩ := removing.of_change
    exact ⟨rfl, created, taken, copied, removed, content, rfl, own, done⟩
  · cases answered.of_ofAnswer.2.1

/-- The copy is read, and the archive is emptied, built and filled. -/
theorem of_rewriteFrom [Library] {path copy : Path} {options : Options} {summary : Summary}
    (performed : (rewriteFrom path copy options).Performed rewriter store moments
      (.ok summary) store') :
    ∃ opened emptied asked filled content old built, moments = opened :: emptied ::
      (asked ++ [filled]) ∧
      opened.before.disk.read copy = .ok content ∧ Library.read? content = some old ∧
      (rebuild path options old).Performed rewriter store asked (.ok (.ok (), built)) store' ∧
      filled.before.disk.fill path (Library.write built.entries) = .ok filled.after.disk ∧
      Library.fits built.entries = true ∧ summary = built.summary := by
  obtain ⟨_, _, content, _, rfl, reading, rest⟩ := performed.of_bind
  obtain ⟨opened, rfl, own, rfl⟩ := reading.of_see
  cases readable : Library.read? content with
  | none =>
    rw [readable] at rest
    cases rest.of_done.2.1
  | some old =>
    rw [readable] at rest
    obtain ⟨_, _, _, _, rfl, emptying, building⟩ := rest.of_bind
    obtain ⟨emptied, rfl, -, rfl⟩ := emptying.of_change
    obtain ⟨asked, _, ⟨result, built⟩, _, rfl, building, filling⟩ := building.of_bind
    cases result with
    | error failure =>
      exact absurd filling (Course.Lost.of_next _ fun _ => .throw failure).not_performed
    | ok done =>
      obtain ⟨_, _, _, _, rfl, last, ended⟩ := filling.of_bind
      obtain ⟨filled, rfl, put, rfl⟩ := last.of_change
      split at ended
      · rename_i fits
        obtain ⟨rfl, rfl, rfl⟩ := ended.of_pure
        exact ⟨opened, emptied, asked, filled, content, old, built, rfl, own, readable,
          building, put, fits, rfl⟩
      · cases ended.of_done.2.1

/-- The records of the archive are staged, and then joined to the store. -/
theorem of_replace [Library] {path copy : Path} {options : Options}
    {own : Store} {summary : Summary}
    (performed : (replace path copy options own).Performed rewriter store moments
      (.ok summary) store') :
    ∃ before asked after staged, moments = before :: (asked ++ after) ∧
      (rewriteFrom path copy options).Performed rewriter .empty asked (.ok summary) staged ∧
      own.merge staged = .ok store' := by
  obtain ⟨_, _, _, _, rfl, emptying, rewriting⟩ := performed.of_bind
  obtain ⟨before, rfl, rfl⟩ := emptying.of_setStore
  obtain ⟨asked, _, _, staged, rfl, rewritten, merging⟩ := rewriting.of_bind
  obtain ⟨_, _, _, _, rfl, looked, joining⟩ := merging.of_bind
  obtain ⟨_, rfl, rfl, rfl⟩ := looked.of_store
  split at joining
  · cases joining.of_done.2.1
  · rename_i sum merged
    obtain ⟨_, _, _, _, rfl, kept, ended⟩ := joining.of_bind
    obtain ⟨_, rfl, rfl⟩ := kept.of_setStore
    obtain ⟨rfl, rfl, rfl⟩ := ended.of_pure
    exact ⟨before, asked, _, _, rfl, rewritten, merged⟩

/-- An archive that a worker has rewritten was remade at its moments. -/
theorem remade_of_performed [Library] [LawfulLibrary] (registers : rewriter.Registers)
    (fallback : σ) {path : Path} {options : Options} {summary : Summary}
    (performed : (course path options).Performed rewriter store moments (.ok summary) store') :
    ∃ copy stages old new calls answers records, stages.all.Sublist moments ∧
      Remade rewriter options path copy store store' summary stages old new calls
        answers records := by
  obtain ⟨_, _, _, _, rfl, looked, rest⟩ := performed.of_bind
  obtain ⟨look, rfl, rfl, rfl⟩ := looked.of_disk
  split at rest
  · cases rest.of_done.2.1
  · obtain ⟨_, _, copy, _, rfl, moving, staging⟩ := rest.of_bind
    obtain ⟨rfl, created, taken, copied, removed, content, rfl, own, put⟩ := of_moveAside moving
    obtain ⟨_, _, _, _, rfl, stored, replacing⟩ := staging.of_bind
    obtain ⟨kept, rfl, rfl, rfl⟩ := stored.of_store
    obtain ⟨_, _, _, _, rfl, replaced, clearing⟩ := replacing.of_bind
    obtain ⟨before, _, after, staged, rfl, rewritten, merged⟩ :=
      of_replace (replaced.of_tryCatch fun _ => .of_next _ fun _ => .throw _)
    obtain ⟨opened, emptied, asked, filled, content', old, built, rfl, read, readable, building,
      written, fits, rfl⟩ :=
      of_rewriteFrom rewritten
    obtain ⟨_, _, _, _, rfl, dropped, ended⟩ := clearing.of_bind
    obtain ⟨cleared, rfl, gone, rfl⟩ := dropped.of_change
    obtain ⟨rfl, rfl, rfl⟩ := ended.of_pure
    obtain ⟨calls, answers, records, rebuilt, registered, counted⟩ :=
      registered_of_rebuild registers fallback building
    refine ⟨copy, ⟨taken, copied, opened, asked, filled, cleared⟩, old,
      built.entries.map reread, calls, answers,
      records, ?order, ?remade⟩
    case order =>
      have last : (asked ++ [filled, cleared]).Sublist (asked ++ filled :: (after ++ [cleared])) :=
        (List.Sublist.refl asked).append
          (.cons_cons filled (List.sublist_append_right after [cleared]))
      unfold Stages.all
      simp only [List.cons_append, List.nil_append, List.append_nil, List.append_assoc]
      exact .cons _ (.cons _
        (.cons_cons _ (.cons_cons _ (.cons _ (.cons _ (.cons _ (.cons_cons _ (.cons _ last))))))))
    case remade =>
      refine ⟨⟨content, own, put⟩, ⟨content', read, readable⟩,
        ⟨_, read_of_rebuilt readable rebuilt fits, written⟩,
        gone, ?_, ⟨staged, registered, merged⟩, ?_⟩
      · exact rebuilt.map reread (fun _ _ => carried_reread) (fun _ _ _ => renewed_reread)
      · rw [registered.length, counted]

end Archive
end ClassCoverage
