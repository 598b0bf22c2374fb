import ClassCoverage.Metadata.File
import ClassCoverage.Proofs.FreshNames
import ClassCoverage.Proofs.MetadataRoundTrip
import ClassCoverage.Proofs.NewDirectories
import ClassCoverage.Proofs.StepRuns
import ClassCoverage.Proofs.StoreOrder

/-! Saved metadata. After a save that succeeded the file holds the whole store, and the next load
answers it. -/
namespace ClassCoverage.Metadata

theorem perform_ok {step : SaveStep} {steps : List SaveStep} {disk disk' : Disk}
    (run : ((step :: steps).forM SaveStep.perform).run.run disk = (.ok (), disk')) :
    ∃ middle, step.run disk = .ok middle ∧
      (steps.forM SaveStep.perform).run.run middle = (.ok (), disk') := by
  rw [List.forM] at run
  obtain ⟨_, middle, first, later⟩ := Steps.run_bind_ok run
  exact ⟨middle, Action.change_ok first, later⟩

private theorem read_of_saveSteps {disk disk' : Disk} (rooted : disk.Rooted) {temporary path : Path}
    {bytes : Bytes}
    (run : ((saveSteps temporary path bytes).forM SaveStep.perform).run.run disk =
      (.ok (), disk')) :
    disk'.read path = .ok bytes := by
  obtain ⟨created, creates, run⟩ := perform_ok run
  obtain ⟨filled, fills, run⟩ := perform_ok run
  obtain ⟨synced, syncs, run⟩ := perform_ok run
  obtain ⟨renamed, renames, run⟩ := perform_ok run
  obtain ⟨finished, finishes, run⟩ := perform_ok run
  cases syncs
  cases finishes
  cases run
  have rootedCreated := rooted.keep (Disk.keeps_of_write rooted creates)
  -- The temporary file is empty when it is appended to.
  have empty := Disk.read_of_write rooted creates
  simp only [SaveStep.run, empty, bind, Except.bind, List.nil_append] at fills
  have rootedFilled := rootedCreated.keep (Disk.keeps_of_write rootedCreated fills)
  exact Disk.read_of_rename rootedFilled (Disk.read_of_write rootedCreated fills) renames

theorem read_of_save {disk disk' : Disk} (rooted : disk.Rooted) {store : Store} {path : Path}
    (saved : (save store path).run.run disk = (.ok (), disk')) :
    disk'.read path = .ok (encode store) := by
  unfold save at saved
  obtain ⟨_, middle, made, saved⟩ := Steps.run_bind_ok saved
  have keeps := Disk.keeps_of_makeDirectories rooted (Action.change_ok made)
  rw [Steps.run_bind, Steps.run_get] at saved
  simp only at saved
  rw [Steps.run_tryCatch] at saved
  split at saved
  · rename_i done
    cases saved
    exact read_of_saveSteps (rooted.keep keeps) done
  · rw [Steps.run_bind, Steps.run_modify] at saved
    cases saved

theorem temporaryName_naming : Disk.Naming temporaryName where
  injective one other same := by
    have texts := congrArg String.toList same
    simp only [temporaryName, String.toList_append, List.append_cancel_left_eq] at texts
    exact String.toList_inj.mp texts
  named number plain := by
    have size : 2 < (temporaryName number).toList.length := by
      simp [temporaryName]
    exact .of_length size (by simp [temporaryName, plain])

theorem run_perform {step : SaveStep} {steps : List SaveStep} {disk middle : Disk}
    (done : step.run disk = .ok middle) :
    ((step :: steps).forM SaveStep.perform).run.run disk =
      (steps.forM SaveStep.perform).run.run middle := by
  rw [List.forM, Steps.run_bind, SaveStep.perform, Action.run_change_ok done]

/-- The steps of a save, taken where the temporary file has a free place next to that of the
file. -/
theorem run_saveSteps {disk : Disk} (rooted : disk.Rooted) {temporary path : Path}
    {place target : Place} (lands : disk.Lands temporary place) (absent : disk.kind? place = none)
    (lands' : disk.Lands path target) (free : disk.kind? target ≠ some .directory)
    (bytes : Bytes) :
    ∃ disk', ((saveSteps temporary path bytes).forM SaveStep.perform).run.run
      disk = (.ok (), disk') ∧
      disk.Updated disk' target (some (.file bytes)) := by
  have freePlace : disk.kind? place ≠ some .directory := by simp [absent]
  have created := lands.written rooted freePlace []
  have rootedCreated := rooted.keep created.keeps
  have landsCreated := lands.keep created.keeps
  have freeCreated : (disk.putFile [] place).kind? place ≠ some .directory := by simp [created.here]
  have filled := landsCreated.written rootedCreated freeCreated bytes
  have rootedFilled := rootedCreated.keep filled.keeps
  have landsFilled := landsCreated.keep filled.keeps
  have landsTarget := (lands'.keep created.keeps).keep filled.keeps
  have freeTarget : ((disk.putFile [] place).putFile bytes place).kind? target ≠
      some .directory := by
    rw [filled.kinds, created.kinds]
    split
    · simp
    · exact free
  have erased := landsFilled.erased filled.here
  have freeErased : (((disk.putFile [] place).putFile bytes place).eraseAt place).kind? target ≠
      some .directory := by
    rw [erased.kinds]
    split
    · simp
    · exact freeTarget
  have renamed :=
    (landsTarget.keep erased.keeps).written (rootedFilled.keep erased.keeps) freeErased bytes
  refine ⟨(((disk.putFile [] place).putFile bytes place).eraseAt place).putFile bytes target, ?_,
    ?_⟩
  · unfold saveSteps
    have creates : (SaveStep.create path.directory temporary).run disk =
        .ok (disk.putFile [] place) :=
      lands.write freePlace []
    have appends : (SaveStep.append temporary bytes).run (disk.putFile [] place) =
        .ok ((disk.putFile [] place).putFile bytes place) := by
      simp only [SaveStep.run, landsCreated.read created.here, bind, Except.bind, List.nil_append]
      exact landsCreated.write freeCreated bytes
    have renames : (SaveStep.rename temporary path).run
        ((disk.putFile [] place).putFile bytes place) = .ok _ :=
      landsFilled.rename filled.here landsTarget freeTarget
    have syncs (now : Disk) : (SaveStep.sync temporary).run now = .ok now := rfl
    have finishes (now : Disk) : (SaveStep.syncDirectory path.directory).run now = .ok now := rfl
    rw [run_perform creates, run_perform appends, run_perform (syncs _), run_perform renames,
      run_perform (finishes _)]
    rfl
  · refine ⟨?_, free, by simp, fun other => ?_⟩
    · rw [renamed.workPlace, erased.workPlace, filled.workPlace, created.workPlace]
    · rw [renamed.kinds, erased.kinds, filled.kinds, created.kinds]
      by_cases own : other = target
      · rw [if_pos own, if_pos own]
      · by_cases temporary : other = place
        · simp [temporary, absent]
        · simp [own, temporary]

/-- A store can be saved wherever a file may be put. -/
theorem run_save {disk : Disk} (rooted : disk.Rooted) {path : Path} {place : Place}
    {above : List Place} (aims : disk.Aims path place above) (open_ : disk.Open above place)
    (store : Store) :
    ∃ disk', (save store path).run.run disk = (.ok (), disk') ∧
      disk.Placed disk' above place (encode store) := by
  obtain ⟨tidy, same⟩ := aims.directory
  obtain ⟨made, makes, extended⟩ := Disk.makeDirectories_of_clear rooted tidy (same ▸ open_.clear)
  rw [same] at extended
  have rooted' := rooted.keep extended.keeps
  have lands : made.Lands path place :=
    (aims.keep extended.workPlace).lands rooted' extended.directory
  have free := open_.extended extended
  obtain ⟨named, absent⟩ := lands.fresh rooted' temporaryName_naming
  generalize chosen : made.freshName path.directory temporaryName = sibling at named absent
  have landsFresh := lands.sibling named
  obtain ⟨disk', done, updated⟩ := run_saveSteps rooted' landsFresh absent lands free (encode store)
  refine ⟨disk', ?_, extended.placed updated⟩
  have prepared :
      (SaveStep.perform (.makeDirectories path.directory)).run.run disk = (.ok (), made) :=
    Action.run_change_ok makes
  unfold save
  rw [Steps.run_bind, prepared]
  simp only
  rw [Steps.run_bind, Steps.run_get]
  simp only [chosen]
  rw [Steps.run_tryCatch, done]

theorem exists?_of_resolve {disk : Disk} {path : Path} {place : Place} {kind : Kind}
    (resolved : disk.resolve path = .ok place) (found : disk.kind? place = some kind) :
    disk.exists? path = true := by
  unfold Disk.kind? Listing.kind? at found
  obtain ⟨node, here, -⟩ := Option.map_eq_some_iff.mp found
  unfold Disk.exists? Disk.node? Disk.at?
  simp only [resolved, here, Option.isSome_some]

theorem resolve_of_exists? {disk : Disk} {path : Path} (there : disk.exists? path = true) :
    ∃ place kind, disk.resolve path = .ok place ∧ disk.kind? place = some kind := by
  unfold Disk.exists? Disk.node? at there
  cases resolved : disk.resolve path with
  | error fault =>
    rw [resolved] at there
    cases there
  | ok place =>
    rw [resolved] at there
    obtain ⟨node, here⟩ := Option.isSome_iff_exists.mp there
    exact ⟨place, node.kind, rfl, congrArg (Option.map Node.kind) here⟩

theorem exists?_of_read {disk : Disk} {path : Path} {content : Bytes}
    (held : disk.read path = .ok content) : disk.exists? path = true := by
  obtain ⟨place, resolved, file⟩ := Disk.resolve_of_read held
  exact exists?_of_resolve resolved file

theorem load_of_missing {disk : Disk} {path : Path} (missing : disk.exists? path = false) :
    (load path).run.run disk = (.ok none, disk) := by
  unfold load
  rw [Steps.run_bind, Steps.run_get]
  simp only [missing, Bool.false_eq_true, ↓reduceIte]
  rfl

theorem load_of_decode {disk : Disk} {path : Path} {bytes : Bytes} {store : Store}
    (held : disk.read path = .ok bytes) (decoded : decode bytes = .ok store) :
    (load path).run.run disk = (.ok (some store), disk) := by
  unfold load
  rw [Steps.run_bind, Steps.run_get]
  simp only [exists?_of_read held, ↓reduceIte]
  rw [Steps.run_bind, Action.run_look_ok held]
  simp only [decoded, Action.run_ofExcept]
  rfl

theorem load_of_spoilt {disk : Disk} {path : Path} {bytes : Bytes} {problem : Problem}
    (read : disk.read path = .ok bytes) (spoilt : decode bytes = .error problem) :
    (load path).run.run disk = (.error (Failure.ofProblem path problem), disk) := by
  unfold load
  rw [Steps.run_bind, Steps.run_get]
  simp only [exists?_of_read read, ↓reduceIte]
  rw [Steps.run_bind, Action.run_look_ok read]
  simp only [spoilt, Action.run_ofExcept]
  rfl

theorem load_of_unreadable {disk : Disk} {path : Path} {fault : Fault}
    (there : disk.exists? path = true) (failed : disk.read path = .error fault) :
    (load path).run.run disk =
      (.error (.io "read coverage metadata" (some path) (some fault)), disk) := by
  unfold load
  rw [Steps.run_bind, Steps.run_get]
  simp only [there, ↓reduceIte]
  rw [Steps.run_bind, Action.run_look_error failed]

/-- What can be read as metadata is loaded. -/
theorem load_of_read {disk : Disk} {path : Path} {store : Store} (measured : Measured store)
    (held : disk.read path = .ok (encode store)) :
    (load path).run.run disk = (.ok (some store), disk) :=
  load_of_decode held (decode_of_measured measured)

/-- What a load that succeeded has found. -/
theorem load_ok {disk disk' : Disk} {path : Path} {loaded : Option Store}
    (run : (load path).run.run disk = (.ok loaded, disk')) :
    disk' = disk ∧ ((disk.exists? path = false ∧ loaded = none) ∨
      ∃ bytes store, disk.read path = .ok bytes ∧ decode bytes = .ok store ∧
        loaded = some store) := by
  unfold load at run
  rw [Steps.run_bind, Steps.run_get] at run
  simp only at run
  cases there : disk.exists? path with
  | false =>
    rw [there] at run
    cases run
    exact ⟨rfl, .inl ⟨rfl, rfl⟩⟩
  | true =>
    simp only [there, ↓reduceIte] at run
    obtain ⟨bytes, middle, looked, answered⟩ := Steps.run_bind_ok run
    obtain ⟨held, rfl⟩ := Action.look_ok looked
    obtain ⟨decoded, same⟩ := Action.ofExcept_ok answered
    cases found : decode bytes with
    | error problem =>
      rw [found] at decoded
      cases decoded
    | ok store =>
      rw [found] at decoded
      cases decoded
      exact ⟨same, .inr ⟨bytes, store, held, found, rfl⟩⟩

private theorem existing_ok {disk disk' : Disk} {path : Path} {merge : Bool} {loaded : Option Store}
    (run : (existing path merge).run.run disk = (.ok loaded, disk')) : disk' = disk := by
  cases merge with
  | true => exact (load_ok run).1
  | false =>
    cases run
    rfl

theorem addTo_ok {disk disk' : Disk} {existing : Option Store} {store sum : Store}
    (run : (addTo existing store).run.run disk = (.ok sum, disk')) :
    disk' = disk ∧ ((existing = none ∧ sum = store) ∨ ∃ old, existing = some old ∧
    old.merge store = .ok sum) := by
  cases existing with
  | none =>
    cases run
    exact ⟨rfl, .inl ⟨rfl, rfl⟩⟩
  | some old =>
    obtain ⟨merged, same⟩ := Action.ofExcept_ok run
    exact ⟨same, .inr ⟨old, rfl, merged⟩⟩

/-- A store is persisted by a look at what was there, an addition and a save. -/
theorem save_of_persist {disk disk' : Disk} {store sum : Store} {path : Path} {merge : Bool}
    (persisted : (persist store path merge).run.run disk = (.ok sum, disk')) :
    ∃ old, (existing path merge).run.run disk = (.ok old, disk) ∧
      (addTo old store).run.run disk = (.ok sum, disk) ∧ (save sum path).run.run disk =
        (.ok (), disk') := by
  unfold persist at persisted
  obtain ⟨old, _, looked, adding⟩ := Steps.run_bind_ok persisted
  obtain rfl := existing_ok looked
  obtain ⟨total, _, added, saving⟩ := Steps.run_bind_ok adding
  obtain ⟨rfl, -⟩ := addTo_ok added
  obtain ⟨_, after, saved, answered⟩ := Steps.run_bind_ok saving
  cases answered
  exact ⟨old, looked, added, saved⟩

/-- What is persisted is added to what was there, and is in the file then. -/
theorem persist_ok {disk disk' : Disk} (rooted : disk.Rooted) {store sum : Store} {path : Path}
    {merge : Bool} (persisted : (persist store path merge).run.run disk = (.ok sum, disk')) :
    ∃ old, (existing path merge).run.run disk = (.ok old, disk) ∧
      (addTo old store).run.run disk = (.ok sum, disk) ∧ disk'.read path = .ok (encode sum) := by
  obtain ⟨old, looked, added, saved⟩ := save_of_persist persisted
  exact ⟨old, looked, added, read_of_save rooted saved⟩

/-- A store that was persisted is in the file, with all the records that were handed over. -/
theorem includes_of_persist {disk disk' : Disk} (rooted : disk.Rooted) {store sum : Store}
    {path : Path} {merge : Bool}
    (persisted : (persist store path merge).run.run disk = (.ok sum, disk')) :
    disk'.read path = .ok (encode sum) ∧ sum.Includes store := by
  obtain ⟨old, -, added, held⟩ := persist_ok rooted persisted
  refine ⟨held, ?_⟩
  rcases (addTo_ok added).2 with ⟨-, rfl⟩ | ⟨own, -, merged⟩
  · exact .refl sum
  · exact (Store.includes_of_merge merged).2

end ClassCoverage.Metadata
