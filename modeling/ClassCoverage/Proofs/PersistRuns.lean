import ClassCoverage.Proofs.MetadataSave
import ClassCoverage.Proofs.StoreSums

/-! Runs of saves to one metadata file. Each save either leaves the file as it is or leaves exactly
the store that it answers, so that the file holds the sum of what was saved since it was last
replaced. -/
namespace ClassCoverage.Metadata

/-- A save only succeeds where a file may be put. -/
theorem placed_of_save {disk disk' : Disk} (rooted : disk.Rooted) {store : Store} {path : Path}
    (saved : (save store path).run.run disk = (.ok (), disk')) :
    ∃ place above, disk.Aims path place above ∧ disk.Open above place ∧
      disk.Placed disk' above place (encode store) := by
  have whole := saved
  unfold save at saved
  obtain ⟨_, made, making, saved⟩ := Steps.run_bind_ok saved
  have makes := Action.change_ok making
  have keeps := Disk.keeps_of_makeDirectories rooted makes
  rw [Steps.run_bind, Steps.run_get] at saved
  simp only at saved
  rw [Steps.run_tryCatch] at saved
  split at saved
  · rename_i done
    obtain ⟨created, creates, run⟩ := perform_ok done
    obtain ⟨filled, fills, run⟩ := perform_ok run
    obtain ⟨synced, syncs, run⟩ := perform_ok run
    obtain ⟨renamed, renames, -⟩ := perform_ok run
    cases syncs
    have rootedMade := rooted.keep keeps
    have keepsCreated := Disk.keeps_of_write rootedMade creates
    have rootedCreated := rootedMade.keep keepsCreated
    have empty := Disk.read_of_write rootedMade creates
    simp only [SaveStep.run, empty, bind, Except.bind, List.nil_append] at fills
    have keepsFilled := Disk.keeps_of_write rootedCreated fills
    have rootedFilled := rootedCreated.keep keepsFilled
    obtain ⟨source, found, file⟩ := Disk.resolve_of_read (Disk.read_of_write rootedCreated fills)
    obtain ⟨place, lands, free, -⟩ := Disk.lands_of_rename found file renames
    obtain ⟨above, aims, directories⟩ := lands.aims rootedFilled
    have all := (keeps.trans keepsCreated).trans keepsFilled
    have aims : disk.Aims path place above := aims.keep all.workPlace.symm
    obtain ⟨tidy, same⟩ := aims.directory
    have open_ : disk.Open above place := {
      clear := same ▸ Disk.clear_of_makeDirectories rooted tidy makes
      free := fun directory => free (all.directory place directory)
      apart := fun member => free (directories place member) }
    obtain ⟨disk'', again, placed⟩ := run_save rooted aims open_ store
    rw [whole] at again
    cases again
    exact ⟨place, above, aims, open_, placed⟩
  · rw [Steps.run_bind, Steps.run_modify] at saved
    cases saved

/-- A file can be saved under the path. -/
structure Writable (disk : Disk) (path : Path) : Prop where
  rooted : disk.Rooted
  saves : ∃ store disk', (save store path).run.run disk = (.ok (), disk')

theorem Writable.places {disk : Disk} {path : Path} (writable : Writable disk path) :
    ∃ place above, disk.Aims path place above ∧ disk.Open above place := by
  obtain ⟨store, disk', saved⟩ := writable.saves
  obtain ⟨place, above, aims, open_, -⟩ := placed_of_save writable.rooted saved
  exact ⟨place, above, aims, open_⟩

theorem Writable.save {disk : Disk} {path : Path} (writable : Writable disk path) (store : Store) :
    ∃ disk', (save store path).run.run disk = (.ok (), disk') ∧ Writable disk' path := by
  obtain ⟨place, above, aims, open_⟩ := writable.places
  obtain ⟨disk', saved, placed⟩ := run_save writable.rooted aims open_ store
  have rooted := writable.rooted.keep (placed.keeps open_)
  obtain ⟨disk'', again, -⟩ :=
    run_save rooted (aims.keep placed.workPlace) (placed.open_again open_) store
  exact ⟨disk', saved, rooted, store, disk'', again⟩

/-- What is there is a file that can be read. -/
theorem Writable.read {disk : Disk} {path : Path} (writable : Writable disk path)
    (there : disk.exists? path = true) :
    ∃ bytes, disk.read path = .ok bytes := by
  obtain ⟨place, above, aims, open_⟩ := writable.places
  obtain ⟨found, kind, resolved, here⟩ := resolve_of_exists? there
  obtain rfl := aims.resolve resolved
  cases kind with
  | directory => exact absurd here open_.free
  | file bytes => exact ⟨bytes, (Disk.lands_of_resolve writable.rooted resolved here).read here⟩

/-- A store to be saved, and whether it is to be added to what the file holds. -/
structure Request where
  store : Store
  merge : Bool

/-- What becomes of a request: what it is answered and what the file holds then. -/
inductive Settles (path : Path) (request : Request) (disk disk' : Disk) :
    Except Failure Store → Prop
  | alone (nothing : request.merge = false ∨ (load path).run.run disk = (.ok none, disk))
      (loads : (load path).run.run disk' = (.ok (some request.store), disk')) :
      Settles path request disk disk' (.ok request.store)
  | added {old saved : Store} (merges : request.merge = true)
      (loaded : (load path).run.run disk = (.ok (some old), disk))
        (merged : old.merge request.store = .ok saved)
      (loads : (load path).run.run disk' = (.ok (some saved), disk')) :
        Settles path request disk disk' (.ok saved)
  | corrupt {bytes : Bytes} {problem : Problem} (merges : request.merge = true)
    (read : disk.read path = .ok bytes)
      (spoilt : decode bytes = .error problem) (same : disk' = disk) :
      Settles path request disk disk' (.error (Failure.ofProblem path problem))
  | refused {old : Store} {conflict : Conflict} (merges : request.merge = true)
      (loaded : (load path).run.run disk = (.ok (some old), disk))
      (clash : old.merge request.store = .error conflict) (same : disk' = disk) :
      Settles path request disk disk' (.error (Failure.ofConflict conflict))

theorem run_persist_ok {disk disk' : Disk} {path : Path} {merge : Bool} {old : Option Store}
    {store saved : Store} (looked : (existing path merge).run.run disk = (.ok old, disk))
    (added : (addTo old store).run.run disk = (.ok saved, disk))
    (done : (save saved path).run.run disk = (.ok (), disk')) :
    (persist store path merge).run.run disk = (.ok saved, disk') := by
  unfold persist
  rw [Steps.run_bind, looked]
  simp only
  rw [Steps.run_bind, added]
  simp only
  rw [Steps.run_bind, done]
  rfl

private theorem run_persist_error {disk : Disk} {path : Path} {store : Store} {merge : Bool}
    {failure : Failure} (looked : (existing path merge).run.run disk = (.error failure, disk)) :
    (persist store path merge).run.run disk = (.error failure, disk) := by
  unfold persist
  rw [Steps.run_bind, looked]

/-- A request is answered with a store that is in the file then, or refused with nothing changed. -/
theorem settles {disk : Disk} {path : Path} (writable : Writable disk path) (request : Request) :
    ∃ answer disk', (persist request.store path request.merge).run.run disk = (answer, disk') ∧
      Writable disk' path ∧
      ((∀ saved, answer = .ok saved → Measured saved) →
      Settles path request disk disk' answer) := by
  have rooted := writable.rooted
  obtain ⟨store, merge⟩ := request
  have alone (looked : (existing path merge).run.run disk = (.ok none, disk))
      (nothing : merge = false ∨ (load path).run.run disk = (.ok none, disk)) :
      ∃ answer disk', (persist store path merge).run.run disk = (answer, disk') ∧
        Writable disk' path ∧
        ((∀ saved, answer = .ok saved → Measured saved) →
        Settles path ⟨store, merge⟩ disk disk' answer) := by
    obtain ⟨disk', done, writable'⟩ := writable.save store
    refine ⟨_, disk', run_persist_ok looked rfl done, writable', fun measured => .alone nothing ?_⟩
    exact load_of_read (measured store rfl) (read_of_save rooted done)
  cases merge with
  | false => exact alone rfl (.inl rfl)
  | true =>
    cases there : disk.exists? path with
    | false => exact alone (load_of_missing there) (.inr (load_of_missing there))
    | true =>
      obtain ⟨bytes, read⟩ := writable.read there
      cases decoded : decode bytes with
      | error problem =>
        have failed : (existing path true).run.run disk = _ := load_of_spoilt read decoded
        exact ⟨_, disk, run_persist_error failed, writable, fun _ => .corrupt rfl read decoded rfl⟩
      | ok old =>
        have loaded := load_of_decode read decoded
        cases merged : old.merge store with
        | error conflict =>
          refine ⟨.error (Failure.ofConflict conflict), disk, ?_, writable,
            fun _ => .refused rfl loaded merged rfl⟩
          have refused : (addTo (some old) store).run.run disk =
              (.error (Failure.ofConflict conflict), disk) := by
            rw [addTo, merged]
            rfl
          unfold persist
          rw [Steps.run_bind, existing, if_pos rfl, loaded]
          simp only
          rw [Steps.run_bind, refused]
        | ok saved =>
          obtain ⟨disk', done, writable'⟩ := writable.save saved
          have added : (addTo (some old) store).run.run disk = (.ok saved, disk) := by
            rw [addTo, merged]
            rfl
          refine ⟨_, disk', run_persist_ok loaded added done, writable',
            fun measured => .added rfl loaded merged ?_⟩
          exact load_of_read (measured saved rfl) (read_of_save rooted done)

theorem Settles.same_of_error {path : Path} {request : Request} {disk disk' : Disk}
    {failure : Failure} (settles : Settles path request disk disk' (.error failure)) :
    disk' = disk := by
  cases settles with
  | corrupt _ _ _ same => exact same
  | refused _ _ _ same => exact same

theorem Settles.load {path : Path} {request : Request} {disk disk' : Disk} {saved : Store}
    (settles : Settles path request disk disk' (.ok saved)) :
    (load path).run.run disk' = (.ok (some saved), disk') := by
  cases settles with
  | alone _ loads => exact loads
  | added _ _ _ loads => exact loads

/-- Handles one request after another, whatever becomes of each. -/
def persistAll (path : Path) (requests : List Request) :
    StateM Disk (List (Except Failure Store)) :=
  requests.mapM fun request => (persist request.store path request.merge).run

/-- What becomes of several requests, one after another. -/
inductive AllSettle (path : Path) : Disk → List Request → List (Except Failure Store) → Disk → Prop
  | nil {disk : Disk} : AllSettle path disk [] [] disk
  | cons {disk middle disk' : Disk} {request : Request} {requests : List Request}
    {answer : Except Failure Store}
      {answers : List (Except Failure Store)}
      (ran : (persist request.store path request.merge).run.run disk = (answer, middle))
      (first : Settles path request disk middle answer)
      (rest : AllSettle path middle requests answers disk') :
      AllSettle path disk (request :: requests) (answer :: answers) disk'

private theorem allSettle {disk disk' : Disk} {path : Path} (writable : Writable disk path)
    {requests : List Request} {answers : List (Except Failure Store)}
    (run : (persistAll path requests).run disk = (answers, disk'))
    (measured : ∀ saved, .ok saved ∈ answers → Measured saved) :
    AllSettle path disk requests answers disk' := by
  induction requests generalizing disk answers with
  | nil =>
    cases run
    exact .nil
  | cons request requests ih =>
    obtain ⟨answer, middle, first, writable', settles⟩ := settles writable request
    have split : (persistAll path (request :: requests)).run disk =
        (answer :: ((persistAll path requests).run middle).1,
        ((persistAll path requests).run middle).2) := by
      rw [persistAll, List.mapM_cons, StateT.run_bind, first]
      rfl
    rw [split] at run
    obtain ⟨rfl, rfl⟩ := Prod.mk.inj run
    refine .cons first (settles fun saved same => measured saved ?_)
      (ih writable' rfl fun saved member => ?_)
    · rw [same]
      exact List.mem_cons_self ..
    · exact measured saved (List.mem_cons_of_mem answer member)

/-- The requests that were not refused. -/
def succeeded : List Request → List (Except Failure Store) → List Request
  | request :: requests, .ok _ :: answers => request :: succeeded requests answers
  | _ :: requests, .error _ :: answers => succeeded requests answers
  | _, _ => []

/-- The file holds the sum of the stores, or is not there if there are none. -/
def HoldsSum (path : Path) (disk : Disk) (stores : List Store) : Prop :=
  ∃ loaded, (load path).run.run disk = (.ok loaded, disk) ∧
    match loaded with
    | none => stores = []
    | some sum => Store.fold stores = .ok sum

section
variable {path : Path} {disk disk' : Disk} {request : Request}
  {requests : List Request} {saved : Store}
  {answers : List (Except Failure Store)} {stores : List Store}

private theorem fold_concat {stores : List Store} {sum store : Store}
    (folded : Store.fold stores = .ok sum) :
    Store.fold (stores ++ [store]) = sum.merge store := by
  rw [Store.fold_eq] at folded ⊢
  rw [List.foldlM_append, folded]
  exact bind_pure (sum.merge store)

theorem HoldsSum.replaced (settles : Settles path request disk disk' (.ok saved))
    (alone : request.merge = false) :
    HoldsSum path disk' [request.store] := by
  refine ⟨some saved, settles.load, ?_⟩
  cases settles with
  | alone => rfl
  | added merges =>
    rw [alone] at merges
    cases merges

theorem HoldsSum.added (holds : HoldsSum path disk stores)
    (settles : Settles path request disk disk' (.ok saved)) (merges : request.merge = true) :
    HoldsSum path disk' (stores ++ [request.store]) := by
  obtain ⟨loaded, found, sum⟩ := holds
  refine ⟨some saved, settles.load, ?_⟩
  cases settles with
  | alone nothing =>
    rcases nothing with alone | absent
    · rw [merges] at alone
      cases alone
    · rw [found] at absent
      cases absent
      rw [show stores = [] from sum]
      rfl
  | added _ again merged =>
    rw [found] at again
    cases again
    exact (fold_concat sum).trans merged

/-- While every request that succeeds is added, the file keeps holding the sum. -/
theorem HoldsSum.run (holds : HoldsSum path disk stores)
    (settle : AllSettle path disk requests answers disk')
    (merge : ∀ request ∈ succeeded requests answers, request.merge = true) :
    HoldsSum path disk' (stores ++ (succeeded requests answers).map Request.store) := by
  induction settle generalizing stores with
  | nil => simpa [succeeded] using holds
  | @cons _ _ _ request requests answer answers _ first _ ih =>
    cases answer with
    | error failure =>
      rw [first.same_of_error] at ih
      exact ih holds merge
    | ok saved =>
      rw [succeeded, List.forall_mem_cons] at merge
      have next := ih (holds.added first merge.1) merge.2
      rwa [List.append_assoc] at next

/-- A request that is added succeeds only where nothing spoilt is in its way, and those before it
change nothing. -/
theorem load_of_settle (settle : AllSettle path disk requests answers disk')
    (some : succeeded requests answers ≠ [])
    (merge : ∀ request ∈ succeeded requests answers, request.merge = true) :
    ∃ initial, (load path).run.run disk = (.ok initial, disk) := by
  induction settle with
  | nil => exact absurd rfl some
  | @cons _ _ _ request requests answer answers _ first _ ih =>
    cases answer with
    | error failure =>
      rw [first.same_of_error] at ih
      exact ih some merge
    | ok saved =>
      rw [succeeded, List.forall_mem_cons] at merge
      cases first with
      | alone nothing =>
        rcases nothing with alone | absent
        · rw [merge.1] at alone
          cases alone
        · exact ⟨none, absent⟩
      | added _ loaded => exact ⟨_, loaded⟩

/-- The requests from the last one that replaced the file on. -/
theorem HoldsSum.since (settle : AllSettle path disk requests answers disk')
    {front back : List Request} {last : Request}
    (split : succeeded requests answers = front ++ last :: back) (alone : last.merge = false)
    (merge : ∀ request ∈ back, request.merge = true) :
    HoldsSum path disk' (last.store :: back.map Request.store) := by
  induction settle generalizing front with
  | nil => simp [succeeded] at split
  | @cons _ _ _ request requests answer answers _ first rest ih =>
    cases answer with
    | error failure => exact ih split
    | ok saved =>
      rw [succeeded] at split
      cases front with
      | nil =>
        obtain ⟨rfl, rfl⟩ := List.cons.inj split
        exact (HoldsSum.replaced first alone).run rest merge
      | cons other front => exact ih (List.cons.inj split).2

theorem HoldsSum.load {store : Store} {stores : List Store}
    (holds : HoldsSum path disk (store :: stores)) :
    ∃ sum, Store.fold (store :: stores) = .ok sum ∧ (load path).run.run disk =
      (.ok (some sum), disk) := by
  obtain ⟨loaded, found, sum⟩ := holds
  cases loaded with
  | none => cases sum
  | some whole => exact ⟨whole, sum, found⟩

end

/-- Whatever requests come for a file that can be written, each is answered with the store that the
file holds then, or refused with the file unchanged. In the end the file holds the sum of what was
saved from the last replacement on, or of what was there in the beginning and all that was saved. -/
theorem persistAll_sums {disk disk' : Disk} {path : Path} (writable : Writable disk path)
    {requests : List Request} {answers : List (Except Failure Store)}
    (run : (persistAll path requests).run disk = (answers, disk'))
    (measured : ∀ saved, .ok saved ∈ answers → Measured saved) :
    AllSettle path disk requests answers disk' ∧
    (∀ front last back, succeeded requests answers = front ++ last :: back → last.merge = false →
      (∀ request ∈ back, request.merge = true) →
      ∃ sum, Store.fold (last.store :: back.map Request.store) = .ok sum ∧
        (load path).run.run disk' = (.ok (some sum), disk')) ∧
    (succeeded requests answers ≠ [] →
    (∀ request ∈ succeeded requests answers, request.merge = true) →
      ∃ initial sum, (load path).run.run disk = (.ok initial, disk) ∧
        Store.fold (initial.toList ++ (succeeded requests answers).map Request.store) = .ok sum ∧
        (load path).run.run disk' = (.ok (some sum), disk')) := by
  have settle := allSettle writable run measured
  refine ⟨settle, ?_, ?_⟩
  · intro front last back split alone merge
    exact (HoldsSum.since settle split alone merge).load
  · intro some merge
    obtain ⟨initial, found⟩ := load_of_settle settle some merge
    have start : HoldsSum path disk initial.toList := by
      refine ⟨initial, found, ?_⟩
      cases initial <;> rfl
    obtain ⟨loaded, found', sum⟩ := start.run settle merge
    cases loaded with
    | none =>
      have none := (List.append_eq_nil_iff.mp sum).2
      exact absurd (List.map_eq_nil_iff.mp none) some
    | some whole => exact ⟨initial, whole, found, sum, found'⟩

/-- On an empty disk a first save is kept, one of another layout is refused, one that replaces the
file counts alone and one that is added to it counts as well. -/
theorem persistAll_sums_of_four :
    ∃ (one other sum : Store) (disk disk' : Disk) (conflict : Conflict),
      one.records = [⟨"A", none, [⟨1, 1⟩], []⟩] ∧ other.records = [⟨"A", none, [⟨2, 1⟩], []⟩] ∧
      sum.records = [⟨"A", none, [⟨1, 2⟩], []⟩] ∧
      (persistAll ⟨"coverage.dat"⟩ [⟨one, true⟩, ⟨other, true⟩, ⟨one, false⟩,
      ⟨one, true⟩]).run disk =
        ([.ok one, .error (Failure.ofConflict conflict), .ok one, .ok sum], disk') ∧
      ∃ whole, Store.fold [one, one] = .ok whole ∧
        (load ⟨"coverage.dat"⟩).run.run disk' = (.ok (some whole), disk') := by
  let one := Store.single ⟨"A", none, [⟨1, 1⟩], []⟩
  let other := Store.single ⟨"A", none, [⟨2, 1⟩], []⟩
  let sum := Store.single ⟨"A", none, [⟨1, 2⟩], []⟩
  let disk : Disk := ⟨.empty, trivial, []⟩
  let requests : List Request := [⟨one, true⟩, ⟨other, true⟩, ⟨one, false⟩, ⟨one, true⟩]
  let conflict : Conflict := ⟨"A", .line 0 1 2⟩
  have run : (persistAll ⟨"coverage.dat"⟩ requests).run disk =
      ([.ok one, .error (Failure.ofConflict conflict), .ok one, .ok sum], _) :=
    Prod.ext (by decide +kernel) rfl
  have saved : ((save one ⟨"coverage.dat"⟩).run.run disk).1 = .ok () := by decide +kernel
  have writable : Writable disk ⟨"coverage.dat"⟩ := {
    rooted := ⟨rfl, by simp [disk]⟩
    saves := ⟨one, _, Prod.ext saved rfl⟩ }
  have small (record : Record) (measured : MeasuredRecord record) :
      Measured (Store.single record) :=
    ⟨show 1 < 2 ^ (64 : Nat) by decide, List.forall_mem_singleton.mpr measured⟩
  let answers : List (Except Failure Store) :=
    [.ok one, .error (Failure.ofConflict conflict), .ok one, .ok sum]
  have measured : ∀ store, .ok store ∈ answers → Measured store := by
    intro store member
    have either : store = one ∨ store = sum := by simpa [answers] using member
    rcases either with rfl | rfl
    · exact small _ ⟨by decide, by decide, by decide, by decide⟩
    · exact small _ ⟨by decide, by decide, by decide, by decide⟩
  obtain ⟨-, since, -⟩ := persistAll_sums writable run measured
  exact ⟨one, other, sum, disk, _, conflict, rfl, rfl, rfl, run,
    since [⟨one, true⟩] ⟨one, false⟩ [⟨one, true⟩] rfl rfl (by simp)⟩

end ClassCoverage.Metadata
