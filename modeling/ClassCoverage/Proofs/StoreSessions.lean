import ClassCoverage.Proofs.KeyedStores
import ClassCoverage.Proofs.PersistRuns

/-! Sessions with stores. Stores are made, added to, merged, folded, saved and loaded, one operation
after another and whatever becomes of each. A session with stores that have keys goes as a session
with stores that have none. -/
namespace ClassCoverage

/-- What stores of one kind can do by themselves. -/
structure StoreKind (σ : Type) where
  empty : σ
  isEmpty : σ → Bool
  ofList : List Record → σ
  insert : σ → Record → Except Conflict σ
  merge : σ → σ → Except Conflict σ
  ofPairs : List (String × Record) → Except Metadata.Problem σ
  payload : σ → Bytes

namespace StoreKind
variable {σ τ : Type} (kind : StoreKind σ)

/-- Adds up stores from the left. A store added to nothing is taken as it is. -/
def fold (stores : List σ) : Except Conflict σ :=
  stores.foldlM (fun sum store =>
    if kind.isEmpty sum then .ok store else kind.merge sum store) kind.empty

def encode (store : σ) : Bytes := Metadata.sealed (kind.payload store)

def decode (bytes : Bytes) : Except Metadata.Problem σ :=
  let rest := bytes.drop Metadata.magic.length
  let payload := rest.drop 32
  if bytes.length < Metadata.magic.length + 32 then .error (.short bytes.length)
  else if bytes.take Metadata.magic.length ≠ Metadata.magic then .error .magic
  else if Sha256.digest payload ≠ rest.take 32 then .error .checksum
  else match Metadata.readPairs.run payload with
    | .error fault => .error (.payload fault)
    | .ok (pairs, _) => kind.ofPairs pairs

def load (path : Path) : Action (Option σ) := do
  if (← get).exists? path then
    let bytes ← Action.look "read coverage metadata" path (·.read path)
    Action.ofExcept (Failure.ofProblem path) ((kind.decode bytes).map some)
  else return none

def loadOrEmpty (path : Path) : Action σ := return (← kind.load path).getD kind.empty

def mergeFiles (paths : List Path) : Action σ :=
  paths.foldlM (fun sum path => do
    match ← kind.load path with
    | some store => Action.ofExcept Failure.ofConflict (kind.merge sum store)
    | none => return sum) kind.empty

def save (store : σ) (path : Path) : Action Unit := do
  Metadata.SaveStep.perform (.makeDirectories path.directory)
  let disk ← get
  let temporary := path.directory.join ⟨disk.freshName path.directory Metadata.temporaryName⟩
  try (Metadata.saveSteps temporary path (kind.encode store)).forM Metadata.SaveStep.perform
  catch failure =>
    modify fun disk => (disk.removeFile temporary).toOption.getD disk
    throw failure

def existing (path : Path) (merge : Bool) : Action (Option σ) :=
  if merge then kind.load path else return none

def addTo (existing : Option σ) (store : σ) : Action σ :=
  match existing with
  | some existing => Action.ofExcept Failure.ofConflict (kind.merge existing store)
  | none => return store

def persist (store : σ) (path : Path) (merge : Bool) : Action σ := do
  let sum ← kind.addTo (← kind.existing path merge) store
  kind.save sum path
  return sum

end StoreKind

def Store.kind : StoreKind Store where
  empty := empty
  isEmpty := isEmpty
  ofList := ofList
  insert := insert
  merge := merge
  ofPairs := Metadata.storeOfPairs
  payload := Metadata.payload

def KeyedStore.kind : StoreKind KeyedStore where
  empty := empty
  isEmpty := isEmpty
  ofList := ofList
  insert := insert
  merge := merge
  ofPairs := ofPairs
  payload := payload

/-! What comes of the kind of plain stores is what is done with stores and metadata files everywhere
else. -/

namespace Store

theorem kind_fold : kind.fold = fold := rfl

private theorem kind_load : kind.load = Metadata.load := rfl

theorem kind_loadOrEmpty : kind.loadOrEmpty = Metadata.loadOrEmpty := rfl

theorem kind_save : kind.save = Metadata.save := rfl

theorem kind_mergeFiles : kind.mergeFiles = Metadata.mergeFiles := by
  funext paths
  unfold StoreKind.mergeFiles Metadata.mergeFiles
  congr 1
  funext sum path
  congr 1
  funext loaded
  cases loaded <;> rfl

private theorem kind_addTo : kind.addTo = Metadata.addTo := by
  funext existing store
  cases existing <;> rfl

theorem kind_persist : kind.persist = Metadata.persist := by
  funext store path merge
  unfold StoreKind.persist Metadata.persist
  rw [kind_addTo, kind_save]
  rfl

end Store

/-- What stores of one kind do is what their images do. -/
structure StoreKind.Image {σ τ : Type} (f : σ → τ) (kind : StoreKind σ) (kind' : StoreKind τ) :
    Prop where
  empty : kind'.empty = f kind.empty
  isEmpty : ∀ store, kind'.isEmpty (f store) = kind.isEmpty store
  ofList : ∀ records, kind'.ofList records = f (kind.ofList records)
  insert : ∀ store record, kind'.insert (f store) record = (kind.insert store record).map f
  merge : ∀ ours theirs, kind'.merge (f ours) (f theirs) = (kind.merge ours theirs).map f
  ofPairs : ∀ pairs, kind'.ofPairs pairs = (kind.ofPairs pairs).map f
  payload : ∀ store, kind'.payload (f store) = kind.payload store

theorem KeyedStore.image : Store.kind.Image ofStore KeyedStore.kind where
  empty := rfl
  isEmpty := isEmpty_ofStore
  ofList := ofList_eq
  insert := insert_ofStore
  merge := merge_ofStore
  ofPairs := ofPairs_eq
  payload := payload_ofStore

theorem Action.ofExcept_map {ε α β : Type} (wrap : ε → Failure) (f : α → β) (result : Except ε α) :
    ofExcept wrap (result.map f) = f <$> ofExcept wrap result := by
  cases result <;> rfl

namespace StoreKind.Image
variable {σ τ : Type} {f : σ → τ} {kind : StoreKind σ} {kind' : StoreKind τ}

private theorem fold (image : kind.Image f kind') (stores : List σ) :
    kind'.fold (stores.map f) = (kind.fold stores).map f := by
  have from_ (start : σ) :
      (stores.map f).foldlM (fun sum store =>
      if kind'.isEmpty sum then .ok store else kind'.merge sum store)
        (f start) =
      (stores.foldlM (fun sum store =>
      if kind.isEmpty sum then .ok store else kind.merge sum store) start).map f := by
    induction stores generalizing start with
    | nil => rfl
    | cons store stores ih =>
      rw [List.map_cons, List.foldlM_cons, List.foldlM_cons, image.isEmpty, image.merge]
      split
      · exact ih store
      · cases kind.merge start store with
        | error conflict => rfl
        | ok sum => exact ih sum
  rw [StoreKind.fold, image.empty, from_]
  rfl

private theorem decode (image : kind.Image f kind') (bytes : Bytes) :
    kind'.decode bytes = (kind.decode bytes).map f := by
  unfold StoreKind.decode
  simp only
  split
  · rfl
  · split
    · rfl
    · split
      · rfl
      · cases Metadata.readPairs.run ((bytes.drop Metadata.magic.length).drop 32) with
        | error fault => rfl
        | ok read => exact image.ofPairs read.1

theorem load (image : kind.Image f kind') (path : Path) :
    kind'.load path = Option.map f <$> kind.load path := by
  have answers (bytes : Bytes) :
      (kind'.decode bytes).map some = ((kind.decode bytes).map some).map (Option.map f) := by
    rw [image.decode]
    cases kind.decode bytes <;> rfl
  unfold StoreKind.load
  rw [map_bind]
  refine bind_congr fun disk => ?_
  split
  · rw [map_bind]
    refine bind_congr fun bytes => ?_
    rw [answers, Action.ofExcept_map]
  · rfl

private theorem loadOrEmpty (image : kind.Image f kind') (path : Path) :
    kind'.loadOrEmpty path = f <$> kind.loadOrEmpty path := by
  unfold StoreKind.loadOrEmpty
  rw [image.load, bind_map_left, map_bind, image.empty]
  refine bind_congr fun loaded => ?_
  cases loaded <;> rfl

private theorem mergeFiles (image : kind.Image f kind') (paths : List Path) :
    kind'.mergeFiles paths = f <$> kind.mergeFiles paths := by
  unfold StoreKind.mergeFiles
  rw [image.empty]
  generalize kind.empty = start
  induction paths generalizing start with
  | nil => rfl
  | cons path paths ih =>
    rw [List.foldlM_cons, List.foldlM_cons, image.load, bind_map_left, bind_assoc,
      bind_assoc, map_bind]
    refine bind_congr fun loaded => ?_
    cases loaded with
    | none => exact ih start
    | some store =>
      simp only [Option.map_some]
      rw [image.merge, Action.ofExcept_map, bind_map_left, map_bind]
      refine bind_congr fun sum => ?_
      exact ih sum

theorem save (image : kind.Image f kind') (store : σ) (path : Path) :
    kind'.save (f store) path = kind.save store path := by
  have encoded : kind'.encode (f store) = kind.encode store :=
    congrArg Metadata.sealed (image.payload store)
  unfold StoreKind.save
  rw [encoded]

private theorem persist (image : kind.Image f kind') (store : σ) (path : Path) (merge : Bool) :
    kind'.persist (f store) path merge = f <$> kind.persist store path merge := by
  have existing : kind'.existing path merge = Option.map f <$> kind.existing path merge := by
    cases merge with
    | true => exact image.load path
    | false => rfl
  have adds (old : Option σ) : kind'.addTo (old.map f) (f store) = f <$> kind.addTo old store := by
    cases old with
    | none => rfl
    | some old =>
      simp only [Option.map_some, StoreKind.addTo]
      rw [image.merge, Action.ofExcept_map]
  unfold StoreKind.persist
  rw [existing, bind_map_left, map_bind]
  refine bind_congr fun old => ?_
  rw [adds, bind_map_left, map_bind]
  refine bind_congr fun sum => ?_
  rw [image.save, map_bind]
  simp only [map_pure]

end StoreKind.Image

/-- One operation. Stores are spoken of by their number among those that there are, the oldest
first. -/
inductive StoreOperation where
  | new
  | ofList (records : List Record)
  | insert (index : Nat) (record : Record)
  | merge (ours theirs : Nat)
  | fold (indices : List Nat)
  | load (path : Path)
  | loadOrEmpty (path : Path)
  | mergeFiles (paths : List Path)
  | save (index : Nat) (path : Path)
  | persist (index : Nat) (path : Path) (adds : Bool)
  /-- A file that comes from elsewhere, whatever is in it. -/
  | write (path : Path) (bytes : Bytes)

namespace StoreOperation
variable {σ τ : Type}

/-- Does something with a store, if there is one of the number. -/
def withStore (stores : List σ) (index : Nat) (use : σ → Action (Option σ)) : Action (Option σ) :=
  match stores[index]? with
  | some store => use store
  | none => return none

/-- Carries an operation out and answers the store that comes of it. -/
def perform (kind : StoreKind σ) (stores : List σ) : StoreOperation → Action (Option σ)
  | new => return some kind.empty
  | ofList records => return some (kind.ofList records)
  | insert index record => withStore stores index fun store =>
    some <$> Action.ofExcept Failure.ofConflict (kind.insert store record)
  | merge ours theirs => withStore stores ours fun store => withStore stores theirs fun other =>
    some <$> Action.ofExcept Failure.ofConflict (kind.merge store other)
  | fold indices =>
    some <$> Action.ofExcept Failure.ofConflict (kind.fold (indices.filterMap (stores[·]?)))
  | load path => kind.load path
  | loadOrEmpty path => some <$> kind.loadOrEmpty path
  | mergeFiles paths => some <$> kind.mergeFiles paths
  | save index path => withStore stores index fun store => do
    kind.save store path
    return none
  | persist index path adds => withStore stores index fun store =>
    some <$> kind.persist store path adds
  | write path bytes => do
    modify fun disk => (disk.write path bytes).toOption.getD disk
    return none

end StoreOperation

/-- The stores that were obtained so far, and the disk. -/
structure StoreSession (σ : Type) where
  stores : List σ := []
  disk : Disk

namespace StoreSession
variable {σ τ : Type}

/-- An operation that fails adds no store, but what it did to the disk stays done. -/
def step (kind : StoreKind σ) (session : StoreSession σ)
    (operation : StoreOperation) : StoreSession σ :=
  match (operation.perform kind session.stores).run.run session.disk with
  | (.ok obtained, disk) => { stores := session.stores ++ obtained.toList, disk := disk }
  | (.error _, disk) => { session with disk := disk }

def run (kind : StoreKind σ) (operations : List StoreOperation)
    (session : StoreSession σ) : StoreSession σ :=
  operations.foldl (step kind) session

def map (f : σ → τ) (session : StoreSession σ) : StoreSession τ where
  stores := session.stores.map f
  disk := session.disk

end StoreSession

section
variable {σ τ : Type} {f : σ → τ} {kind : StoreKind σ} {kind' : StoreKind τ}

theorem StoreOperation.withStore_map {stores : List σ} {index : Nat} {use : σ → Action (Option σ)}
    {use' : τ → Action (Option τ)} (same : ∀ store, use' (f store) = Option.map f <$> use store) :
    withStore (stores.map f) index use' = Option.map f <$> withStore stores index use := by
  unfold withStore
  rw [List.getElem?_map]
  cases stores[index]? with
  | none => rfl
  | some store => exact same store

theorem StoreOperation.perform_map (image : kind.Image f kind') (stores : List σ)
    (operation : StoreOperation) :
    operation.perform kind' (stores.map f) = Option.map f <$> operation.perform kind stores := by
  have lifted {α β : Type} (g : α → β) (action : Action α) :
      some <$> g <$> action = Option.map g <$> some <$> action := by
    rw [← comp_map, ← comp_map]
    rfl
  cases operation with
  | new => exact congrArg (pure ∘ some) image.empty
  | ofList records => exact congrArg (pure ∘ some) (image.ofList records)
  | insert index record =>
    refine withStore_map fun store => ?_
    rw [image.insert, Action.ofExcept_map, lifted]
  | merge ours theirs =>
    refine withStore_map fun store => withStore_map fun other => ?_
    rw [image.merge, Action.ofExcept_map, lifted]
  | fold indices =>
    have chosen : indices.filterMap ((stores.map f)[·]?) =
        (indices.filterMap (stores[·]?)).map f := by
      rw [List.map_filterMap]
      simp only [List.getElem?_map]
    simp only [perform]
    rw [chosen, image.fold, Action.ofExcept_map, lifted]
  | load path => exact image.load path
  | loadOrEmpty path =>
    simp only [perform]
    rw [image.loadOrEmpty, lifted]
  | mergeFiles paths =>
    simp only [perform]
    rw [image.mergeFiles, lifted]
  | save index path =>
    refine withStore_map fun store => ?_
    rw [image.save, map_bind]
    rfl
  | persist index path adds =>
    refine withStore_map fun store => ?_
    rw [image.persist, lifted]
  | write path bytes => rfl

/-- One step with images is the image of a step. -/
theorem StoreSession.step_map (image : kind.Image f kind') (session : StoreSession σ)
    (operation : StoreOperation) :
    (session.map f).step kind' operation = (session.step kind operation).map f := by
  unfold step map
  rw [StoreOperation.perform_map image, Steps.run_map]
  cases (operation.perform kind session.stores).run.run session.disk with
  | mk answer disk => cases answer with
    | error failure => rfl
    | ok obtained => cases obtained <;> simp [Except.map]

theorem StoreSession.run_map (image : kind.Image f kind') (operations : List StoreOperation)
    (session : StoreSession σ) :
    (session.map f).run kind' operations = (session.run kind operations).map f := by
  induction operations generalizing session with
  | nil => rfl
  | cons operation operations ih =>
    rw [run, List.foldl_cons, step_map image, ← run, ih, run, run, List.foldl_cons]

end

namespace KeyedStore

/-- Every length in the map is below 2 ^ 64. -/
structure Measured (map : KeyedStore) : Prop where
  size : map.size < 2 ^ (64 : Nat)
  records : ∀ record ∈ map.records, Metadata.MeasuredRecord record

private theorem measured_of_ofStore {store : Store} (measured : (ofStore store).Measured) :
    Metadata.Measured store where
  size := size_ofStore store ▸ measured.size
  records := records_ofStore store ▸ measured.records

/-- What was saved is loaded again. -/
theorem load_of_save {store : Store} (measured : (ofStore store).Measured) {disk disk' : Disk}
    (rooted : disk.Rooted) {path : Path}
    (saved : (kind.save (ofStore store) path).run.run disk = (.ok (), disk')) :
    (kind.load path).run.run disk' = (.ok (some (ofStore store)), disk') := by
  rw [image.save, Store.kind_save] at saved
  have loaded :=
    Metadata.load_of_read (measured_of_ofStore measured) (Metadata.read_of_save rooted saved)
  rw [image.load, Steps.run_map, Store.kind_load, loaded]
  rfl

/-- Wherever any store can be saved, this one can. -/
theorem save_of_writable {disk : Disk} {path : Path} (writable : Metadata.Writable disk path)
    (store : Store) :
    ∃ disk', (kind.save (ofStore store) path).run.run disk = (.ok (), disk') := by
  obtain ⟨disk', saved, -⟩ := writable.save store
  rw [image.save, Store.kind_save]
  exact ⟨disk', saved⟩

end KeyedStore

/-- Whatever is done with stores that have keys, it comes to the same as with stores that have none.
So in every store that is obtained the keys increase and are the names of the records: a record is
only found under its own name, there are as many records as names, and what is saved is loaded
again. -/
theorem StoreSession.keys_stay_names (disk : Disk) (operations : List StoreOperation) :
    ({ disk := disk } : StoreSession KeyedStore).run KeyedStore.kind operations =
      (({ disk := disk } : StoreSession Store).run Store.kind operations).map KeyedStore.ofStore ∧
    ∀ map ∈ (({ disk := disk } : StoreSession KeyedStore).run KeyedStore.kind operations).stores,
      map.WellKeyed ∧
      (∀ name record, map.get? name = some record → record.name = name) ∧
      (∀ name, map.contains name = true ↔ ∃ record, map.get? name = some record) ∧
      map.size = (map.records.map Record.name).toFinset.card ∧
      (map.Measured → ∀ path before,
        (before.Rooted → ∀ after, (KeyedStore.kind.save map path).run.run before = (.ok (), after) →
          (KeyedStore.kind.load path).run.run after = (.ok (some map), after)) ∧
        (Metadata.Writable before path →
          ∃ after, (KeyedStore.kind.save map path).run.run before = (.ok (), after))) := by
  have same : ({ disk := disk } : StoreSession KeyedStore).run KeyedStore.kind operations =
      (({ disk := disk } : StoreSession Store).run Store.kind operations).map KeyedStore.ofStore :=
    run_map KeyedStore.image operations { disk := disk }
  refine ⟨same, fun map member => ?_⟩
  rw [same] at member
  obtain ⟨store, -, rfl⟩ := List.mem_map.mp member
  have keyed := KeyedStore.wellKeyed_ofStore store
  refine ⟨keyed, fun name record => keyed.name_of_get?, keyed.contains_iff, keyed.size_eq, ?_⟩
  intro measured path before
  exact ⟨fun rooted after => KeyedStore.load_of_save measured rooted,
    fun writable => KeyedStore.save_of_writable writable store⟩

/-- Records in any order are found in key order, and a store that is merged keeps them so. -/
example : (({ disk := default } : StoreSession KeyedStore).run KeyedStore.kind
    [.ofList [{ name := "B" }, { name := "A" }], .new, .merge 1 0,
    .merge 2 7]).stores.map KeyedStore.keys =
      [["A", "B"], [], ["A", "B"]] := by
  decide +kernel

end ClassCoverage
