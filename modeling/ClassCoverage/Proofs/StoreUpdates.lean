import ClassCoverage.Proofs.StepRuns
import ClassCoverage.Proofs.StoreSums

/-! Stores that are changed in place. A merge looks at everything before it changes anything, and
records that are inserted one after another are looked at one after another. Both take the same
records and refuse the same ones, but only a merge that is refused leaves the store as it was. -/
namespace ClassCoverage.Store

/-- What a store says of other classes does not depend on the records it took. -/
theorem conflict?_absorb_of_ne (store : Store) {record other : Record}
    (different : record.name ≠ other.name) :
    (store.absorb record).conflict? other = store.conflict? other := by
  unfold conflict?
  rw [get?_absorb, if_neg different.symm]

/-- Records of different classes can all be looked at before the first is taken. -/
theorem insertAll_eq {records : List Record}
    (distinct : records.Pairwise fun one other => one.name ≠ other.name) (store : Store) :
    store.insertAll records =
      match records.findSome? store.conflict? with
      | some conflict => .error conflict
      | none => .ok (records.foldl absorb store) := by
  induction records generalizing store with
  | nil => rfl
  | cons record rest ih =>
    obtain ⟨apart, distinct⟩ := List.pairwise_cons.mp distinct
    rw [insertAll, List.foldlM_cons, List.findSome?_cons, insert]
    cases refused : store.conflict? record with
    | some conflict => rfl
    | none =>
      have later : rest.findSome? (store.absorb record).conflict? =
          rest.findSome? store.conflict? := by
        rw [← List.head?_filterMap, ← List.head?_filterMap]
        congr 1
        exact List.filterMap_congr fun other member =>
          conflict?_absorb_of_ne store (apart other member)
      have others := ih distinct (store.absorb record)
      rw [later] at others
      exact others

private theorem distinct_records (store : Store) :
    store.records.Pairwise fun one other => one.name ≠ other.name :=
  List.pairwise_map.mp (nodup_names store)

private theorem merge_eq_insertAll (ours theirs : Store) :
    ours.merge theirs = ours.insertAll theirs.records := by
  rw [insertAll_eq (distinct_records theirs)]
  rfl

/-- Records that one insertion after another takes are taken in any order. -/
theorem insertAll_perm {records order : List Record} (perm : order.Perm records) {store sum : Store}
    (inserted : store.insertAll records = .ok sum) : store.insertAll order = .ok sum := by
  obtain ⟨compatible, rfl⟩ := insertAll_eq_ok_iff.mp inserted
  have singles : (order.map single).Perm (records.map single) := perm.map single
  refine insertAll_eq_ok_iff.mpr ⟨compatible.perm (singles.symm.cons store), ?_⟩
  rw [total_perm singles.symm (List.pairwise_cons.mp compatible).2]

/-- Where a run of insertions stops, everything before was taken. -/
theorem insertAll_error {records : List Record} {store : Store} {conflict : Conflict}
    (refused : store.insertAll records = .error conflict) :
    ∃ before record after sum, records = before ++ record :: after ∧
      store.insertAll before = .ok sum ∧
      sum.insert record = .error conflict := by
  induction records generalizing store with
  | nil => cases refused
  | cons record rest ih =>
    cases inserted : store.insert record with
    | error own =>
      rw [insertAll, List.foldlM_cons, inserted] at refused
      cases refused
      exact ⟨[], record, rest, store, rfl, rfl, inserted⟩
    | ok middle =>
      rw [insertAll, List.foldlM_cons, inserted] at refused
      obtain ⟨before, other, after, sum, split, taken, stopped⟩ := ih refused
      refine ⟨record :: before, other, after, sum, by rw [split]; rfl, ?_, stopped⟩
      rw [insertAll, List.foldlM_cons, inserted]
      exact taken

/-- A step on a store in place. What it did before a failure stays done. -/
abbrev Updating := ExceptT Conflict (StateM Store)

namespace Updating

/-- Compares a record with what is known of its class. -/
def check (record : Record) : Updating Unit := do
  match (← get).conflict? record with
  | some conflict => throw conflict
  | none => return ()

def add (record : Record) : Updating Unit := modify (·.absorb record)

def insert (record : Record) : Updating Unit := do
  check record
  add record

def insertEach (records : List Record) : Updating Unit := records.forM insert

/-- Compares all records with what is known of their classes, and then adds them without another
look. -/
def merge (theirs : Store) : Updating Unit := do
  theirs.records.forM check
  theirs.records.forM add

theorem run_check (record : Record) (store : Store) :
    (check record).run.run store =
      (match store.conflict? record with
        | some conflict => .error conflict
        | none => .ok (), store) := by
  unfold check
  rw [Steps.run_bind, Steps.run_get]
  simp only
  cases store.conflict? record <;> rfl

/-- A record that is refused changes nothing. -/
theorem run_insert (record : Record) (store : Store) :
    (insert record).run.run store =
      match store.insert record with
      | .ok sum => (.ok (), sum)
      | .error conflict => (.error conflict, store) := by
  unfold insert
  rw [Steps.run_bind, run_check, Store.insert]
  cases store.conflict? record <;> rfl

theorem run_insertEach_ok {records : List Record} {store sum : Store}
    (inserted : store.insertAll records = .ok sum) :
    (insertEach records).run.run store = (.ok (), sum) := by
  induction records generalizing store with
  | nil =>
    cases inserted
    rfl
  | cons record rest ih =>
    rw [insertAll, List.foldlM_cons] at inserted
    cases first : store.insert record with
    | error conflict =>
      rw [first] at inserted
      cases inserted
    | ok middle =>
      rw [first] at inserted
      rw [insertEach, List.forM, Steps.run_bind, run_insert, first]
      exact ih inserted

/-- What was inserted before a record that is refused stays. -/
theorem run_insertEach_error {before after : List Record} {record : Record} {store sum : Store}
    {conflict : Conflict} (inserted : store.insertAll before = .ok sum)
    (refused : sum.insert record = .error conflict) :
    (insertEach (before ++ record :: after)).run.run store = (.error conflict, sum) := by
  have parted : insertEach (before ++ record :: after) = (insertEach before >>= fun _ =>
      insertEach (record :: after)) :=
    List.forM_append
  rw [parted, Steps.run_bind, run_insertEach_ok inserted]
  simp only
  rw [insertEach, List.forM, Steps.run_bind, run_insert, refused]

/-- Where one order of the records is refused, all orders are. -/
theorem run_insertEach_refused {records order : List Record} {store : Store} {conflict : Conflict}
    (refused : store.insertAll records = .error conflict) (perm : order.Perm records) :
    ∃ other, ((insertEach order).run.run store).1 = .error other := by
  cases inserted : store.insertAll order with
  | ok sum =>
    rw [insertAll_perm perm.symm inserted] at refused
    cases refused
  | error other =>
    obtain ⟨before, record, after, sum, split, taken, stopped⟩ := insertAll_error inserted
    rw [split, run_insertEach_error taken stopped]
    exact ⟨other, rfl⟩

private theorem run_checks (records : List Record) (store : Store) :
    (records.forM check).run.run store =
      (match records.findSome? store.conflict? with
        | some conflict => .error conflict
        | none => .ok (), store) := by
  induction records with
  | nil => rfl
  | cons record rest ih =>
    rw [List.forM, Steps.run_bind, run_check, List.findSome?_cons]
    cases store.conflict? record with
    | some conflict => rfl
    | none => exact ih

private theorem run_adds (records : List Record) (store : Store) :
    (records.forM add).run.run store = (.ok (), records.foldl absorb store) := by
  induction records generalizing store with
  | nil => rfl
  | cons record rest ih => exact ih (store.absorb record)

/-- A merge in place ends with the sum, or with the store as it was. -/
theorem run_merge (ours theirs : Store) :
    (merge theirs).run.run ours =
      match ours.merge theirs with
      | .ok sum => (.ok (), sum)
      | .error conflict => (.error conflict, ours) := by
  unfold merge
  rw [Steps.run_bind, run_checks, Store.merge]
  cases theirs.records.findSome? ours.conflict? with
  | some conflict => rfl
  | none => exact run_adds theirs.records ours

end Updating

open Updating (insertEach)

/-- A merge takes what insertions one after another in name order take, and ends with the same
store, as do insertions in any other order. It is refused with the conflict of the first insertion
that is refused: insertions leave what came before in the store then, and the merge leaves
nothing. -/
theorem merge_is_insertEach (ours theirs : Store) :
    ((∃ sum, ours.merge theirs = .ok sum ∧ (Updating.merge theirs).run.run ours = (.ok (), sum) ∧
        ∀ order, order.Perm theirs.records → (insertEach order).run.run ours = (.ok (), sum)) ∨
      ∃ conflict before record after sum,
        ours.merge theirs = .error conflict ∧ (Updating.merge theirs).run.run ours =
          (.error conflict, ours) ∧
        theirs.records = before ++ record :: after ∧
        (insertEach before).run.run ours = (.ok (), sum) ∧
        (Updating.insert record).run.run sum = (.error conflict, sum) ∧
        (insertEach theirs.records).run.run ours = (.error conflict, sum) ∧
        ∀ order, order.Perm theirs.records →
          ∃ other, ((insertEach order).run.run ours).1 = .error other) ∧
    ∀ record, (Updating.insert record).run.run ours =
      match ours.insert record with
      | .ok sum => (.ok (), sum)
      | .error conflict => (.error conflict, ours) := by
  refine ⟨?_, fun record => Updating.run_insert record ours⟩
  have run := Updating.run_merge ours theirs
  cases merged : ours.merge theirs with
  | ok sum =>
    rw [merged] at run
    rw [merge_eq_insertAll] at merged
    exact .inl ⟨sum, rfl, run, fun order perm =>
      Updating.run_insertEach_ok (insertAll_perm perm merged)⟩
  | error conflict =>
    rw [merged] at run
    rw [merge_eq_insertAll] at merged
    obtain ⟨before, record, after, sum, split, taken, stopped⟩ := insertAll_error merged
    have refused := Updating.run_insert record sum
    rw [stopped] at refused
    have each : (insertEach theirs.records).run.run ours = (.error conflict, sum) := by
      rw [split]
      exact Updating.run_insertEach_error taken stopped
    exact .inr ⟨conflict, before, record, after, sum, rfl, run, split,
      Updating.run_insertEach_ok taken, refused, each,
      fun order perm => Updating.run_insertEach_refused merged perm⟩

/-- The insertions keep what came before the conflict, the merge does not. -/
example :
    let ours := ofList [{ name := "A", lines := [⟨1, 1⟩] }, { name := "B", lines := [⟨1, 0⟩] }]
    let theirs := ofList [{ name := "A", lines := [⟨1, 2⟩] }, { name := "B", lines := [⟨2, 0⟩] }]
    ((Updating.merge theirs).run.run ours).2 = ours ∧
      ((insertEach theirs.records).run.run ours).2 =
        ofList [{ name := "A", lines := [⟨1, 3⟩] }, { name := "B", lines := [⟨1, 0⟩] }] := by
  decide +kernel

end ClassCoverage.Store
