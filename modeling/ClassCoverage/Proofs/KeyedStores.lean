import ClassCoverage.Proofs.MetadataRoundTrip
import ClassCoverage.Proofs.StoreSums
import Mathlib.Data.Finset.Card

/-! Stores with their keys. A map from class names to records says every name twice, as a key and in
the record. What is done to such a map by key comes to the same as what is done to a store, so that
the two names never drift apart. -/
namespace ClassCoverage
open Metadata

/-- Records under their keys, in key order. Nothing ties a key to the name of its record. -/
structure KeyedStore where
  pairs : List (String × Record)

namespace KeyedStore

def empty : KeyedStore := ⟨[]⟩

def keys (map : KeyedStore) : List String := map.pairs.map Prod.fst

/-- The records in the order of their keys. -/
def records (map : KeyedStore) : List Record := map.pairs.map Prod.snd

def size (map : KeyedStore) : Nat := map.pairs.length

def isEmpty (map : KeyedStore) : Bool := map.pairs.isEmpty

def get? (map : KeyedStore) (key : String) : Option Record := map.pairs.lookup key

def contains (map : KeyedStore) (key : String) : Bool := map.keys.contains key

/-- Puts a record under a key, in the place of the one that is there. -/
def put (map : KeyedStore) (key : String) (record : Record) :
    KeyedStore := ⟨keep (key, record) map.pairs⟩

/-- Of several records for one class the last counts. -/
def ofList (records : List Record) : KeyedStore :=
  records.foldl (fun map record => map.put record.name record) empty

def conflict? (map : KeyedStore) (pair : String × Record) : Option Conflict :=
  (map.get? pair.1).bind fun ours => (ours.mismatch? pair.2).map fun mismatch =>
    { className := ours.name, mismatch := mismatch }

/-- Adds a record to the one under its key, which keeps its own name. -/
def absorb (map : KeyedStore) (pair : String × Record) : KeyedStore :=
  map.put pair.1 (((map.get? pair.1).map (Record.add · pair.2)).getD pair.2)

def insert (map : KeyedStore) (record : Record) : Except Conflict KeyedStore :=
  match map.conflict? (pairOf record) with
  | some conflict => .error conflict
  | none => .ok (map.absorb (pairOf record))

/-- Every shared key is compared before anything is added. -/
def merge (ours theirs : KeyedStore) : Except Conflict KeyedStore :=
  match theirs.pairs.findSome? ours.conflict? with
  | some conflict => .error conflict
  | none => .ok (theirs.pairs.foldl absorb ours)

/-- The map that pairs make up, unless a key is not the name of its record. -/
def ofPairs (pairs : List (String × Record)) : Except Problem KeyedStore :=
  let kept := lastOfEach pairs
  match kept.find? fun pair => pair.1 ≠ pair.2.name with
  | some (key, record) => .error (.misplaced key record.name)
  | none => .ok ⟨kept⟩

def payload (map : KeyedStore) : Bytes := writeList writePair map.pairs

/-- Keys increase, and every record lies under its own name. -/
structure WellKeyed (map : KeyedStore) : Prop where
  increasing : map.keys.Pairwise (· < ·)
  named : ∀ pair ∈ map.pairs, pair.1 = pair.2.name

/-- The records of a store under their names. -/
def ofStore (store : Store) : KeyedStore := ⟨store.records.map pairOf⟩

private theorem pairs_ofStore (store : Store) :
    (ofStore store).pairs = store.records.map pairOf := rfl

theorem records_ofStore (store : Store) : (ofStore store).records = store.records := by
  rw [records, ofStore, List.map_map]
  exact List.map_id _

private theorem keys_ofStore (store : Store) :
    (ofStore store).keys = store.records.map Record.name := by
  rw [keys, ofStore, List.map_map]
  rfl

theorem size_ofStore (store : Store) : (ofStore store).size = store.size := List.length_map pairOf

theorem wellKeyed_ofStore (store : Store) : (ofStore store).WellKeyed where
  increasing := by
    rw [keys_ofStore]
    exact List.pairwise_map.mpr store.increasing
  named pair member := by
    obtain ⟨record, -, rfl⟩ := List.mem_map.mp member
    rfl

theorem WellKeyed.ascending {map : KeyedStore} (keyed : map.WellKeyed) : Ascending map.pairs :=
  List.pairwise_map.mp keyed.increasing

/-- A map with the right keys is a store. -/
theorem wellKeyed_iff {map : KeyedStore} : map.WellKeyed ↔ ∃ store, map = ofStore store := by
  constructor
  · intro keyed
    have names : map.pairs.map (Record.name ∘ Prod.snd) = map.keys :=
      List.map_congr_left fun pair member => (keyed.named pair member).symm
    have increasing : Records.Increasing map.records := by
      refine List.pairwise_map.mp ?_
      rw [records, List.map_map, names]
      exact keyed.increasing
    have same : map.pairs = map.records.map pairOf := by
      rw [records, List.map_map]
      conv_lhs => rw [← List.map_id map.pairs]
      refine List.map_congr_left fun pair member => ?_
      exact Prod.ext (keyed.named pair member) rfl
    refine ⟨⟨map.records, increasing⟩, ?_⟩
    obtain ⟨pairs⟩ := map
    rw [ofStore]
    exact congrArg mk same
  · rintro ⟨store, rfl⟩
    exact wellKeyed_ofStore store

theorem get?_ofStore (store : Store) (key : String) :
    (ofStore store).get? key = store.get? key := by
  have distinct := (wellKeyed_ofStore store).ascending.distinct
  rw [← lastOf_records]
  apply Option.ext
  intro record
  rw [get?, lookup_eq_some_iff distinct]
  exact (lastOf_eq_some_iff distinct).symm

/-- Maps are equal to stores when they answer the same for every class. -/
theorem eq_ofStore {map : KeyedStore} (ascending : Ascending map.pairs) {store : Store}
    (same : ∀ key, map.get? key = store.get? key) : map = ofStore store := by
  have keyed : map.WellKeyed := by
    refine ⟨List.pairwise_map.mpr ascending, fun pair member => ?_⟩
    have found := (lookup_eq_some_iff ascending.distinct).mpr member
    exact (Store.name_of_get? ((same pair.1).symm.trans found)).symm
  obtain ⟨other, rfl⟩ := wellKeyed_iff.mp keyed
  have stores : other = store := Store.ext_get? fun key =>
    (get?_ofStore other key).symm.trans (same key)
  rw [stores]

theorem isEmpty_ofStore (store : Store) : (ofStore store).isEmpty = store.isEmpty := by
  simp [isEmpty, ofStore, Store.isEmpty]

theorem get?_put (map : KeyedStore) (key : String) (record : Record) (other : String) :
    (map.put key record).get? other = if other = key then some record else map.get? other :=
  lookup_keep (key, record) map.pairs other

theorem ascending_put (store : Store) (key : String) (record : Record) :
    Ascending ((ofStore store).put key record).pairs :=
  ascending_keep _ (wellKeyed_ofStore store).ascending

private theorem put_ofStore (store : Store) (record : Record) :
    (ofStore store).put record.name record = ofStore (store.replace record) := by
  refine eq_ofStore (ascending_put store _ _) fun key => ?_
  rw [get?_put, Store.get?_replace, get?_ofStore]

theorem ofList_eq (records : List Record) : ofList records = ofStore (Store.ofList records) := by
  have from_ (store : Store) : records.foldl (fun map record =>
      map.put record.name record) (ofStore store) =
      ofStore (records.foldl Store.replace store) := by
    induction records generalizing store with
    | nil => rfl
    | cons record records ih => rw [List.foldl_cons, List.foldl_cons, put_ofStore, ih]
  exact from_ .empty

theorem conflict?_ofStore (store : Store) (record : Record) :
    (ofStore store).conflict? (pairOf record) = store.conflict? record := by
  rw [conflict?, get?_ofStore, Store.conflict?, Option.map_bind]
  change (store.get? record.name).bind _ = _
  cases found : store.get? record.name with
  | none => rfl
  | some ours =>
    rw [Option.bind_some, Option.bind_some, Function.comp_apply, Store.name_of_get? found]
    rfl

theorem absorb_ofStore (store : Store) (record : Record) :
    (ofStore store).absorb (pairOf record) = ofStore (store.absorb record) := by
  unfold absorb
  refine eq_ofStore (ascending_put store _ _) fun key => ?_
  rw [get?_put, Store.get?_absorb, get?_ofStore, get?_ofStore]
  rfl

theorem insert_ofStore (store : Store) (record : Record) :
    (ofStore store).insert record = (store.insert record).map ofStore := by
  rw [insert, conflict?_ofStore, Store.insert, absorb_ofStore]
  cases store.conflict? record <;> rfl

theorem merge_ofStore (ours theirs : Store) :
    (ofStore ours).merge (ofStore theirs) = (ours.merge theirs).map ofStore := by
  have conflicts : (ofStore theirs).pairs.findSome? (ofStore ours).conflict? =
      theirs.records.findSome? ours.conflict? := by
    rw [pairs_ofStore, List.findSome?_map]
    congr 1
    funext record
    exact conflict?_ofStore ours record
  have sums (store : Store) : (ofStore theirs).pairs.foldl absorb (ofStore store) =
      ofStore (theirs.records.foldl Store.absorb store) := by
    rw [pairs_ofStore, List.foldl_map]
    induction theirs.records generalizing store with
    | nil => rfl
    | cons record records ih => rw [List.foldl_cons, List.foldl_cons, absorb_ofStore, ih]
  rw [merge, conflicts, sums, Store.merge]
  cases theirs.records.findSome? ours.conflict? <;> rfl

theorem ofPairs_eq (pairs : List (String × Record)) :
    ofPairs pairs = (storeOfPairs pairs).map ofStore := by
  have ascending := ascending_lastOfEach pairs
  unfold ofPairs storeOfPairs
  simp only
  cases misplaced : (lastOfEach pairs).find? fun pair => pair.1 ≠ pair.2.name with
  | some pair => rfl
  | none =>
    have placed : ∀ pair ∈ lastOfEach pairs, pair.2.name = pair.1 := by
      intro pair member
      have same := List.find?_eq_none.mp misplaced pair member
      rw [decide_eq_true_eq, not_not] at same
      exact same.symm
    exact congrArg Except.ok (eq_ofStore ascending fun key =>
      (get?_ofList ascending placed key).symm)

theorem payload_ofStore (store : Store) : (ofStore store).payload = Metadata.payload store :=
  (payload_eq store).symm

namespace WellKeyed
variable {map : KeyedStore}

theorem name_of_get? (keyed : map.WellKeyed) {name : String} {record : Record}
    (found : map.get? name = some record) : record.name = name :=
  (keyed.named _ ((lookup_eq_some_iff keyed.ascending.distinct).mp found)).symm

theorem contains_iff (keyed : map.WellKeyed) (name : String) :
    map.contains name = true ↔ ∃ record, map.get? name = some record := by
  rw [contains, List.contains_iff_mem, keys, List.mem_map]
  constructor
  · rintro ⟨pair, member, rfl⟩
    exact ⟨pair.2, (lookup_eq_some_iff keyed.ascending.distinct).mpr member⟩
  · rintro ⟨record, found⟩
    exact ⟨_, (lookup_eq_some_iff keyed.ascending.distinct).mp found, rfl⟩

/-- There are as many records as different names of records. -/
theorem size_eq (keyed : map.WellKeyed) :
    map.size = (map.records.map Record.name).toFinset.card := by
  obtain ⟨store, rfl⟩ := wellKeyed_iff.mp keyed
  have names := List.toFinset_card_of_nodup store.nodup_names
  rw [Store.names, List.length_map] at names
  rw [size_ofStore, records_ofStore, names, Store.size]

end WellKeyed
end KeyedStore
end ClassCoverage
