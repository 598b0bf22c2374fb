import ClassCoverage.Proofs.StoreOrder
import Mathlib.Data.List.Dedup
import Mathlib.Data.List.Pairwise
import Mathlib.Data.List.Perm.Basic

/-! Sums of several stores. Merging one after another succeeds when no two of them clash, and then
the order does not matter. -/
namespace ClassCoverage.Store

/-- No two of the stores clash on a class. -/
def AllCompatible (stores : List Store) : Prop := stores.Pairwise Compatible

/-- Everything that the stores say. -/
def total (stores : List Store) : Store := stores.foldl sum empty

theorem compatible_self (store : Store) : Compatible store store := by
  rintro name ⟨ours, theirs, left, right, different⟩
  rw [left] at right
  cases right
  exact different (Record.SameLayout.refl ours)

theorem compatible_empty (store : Store) : Compatible empty store := by
  rintro name ⟨ours, theirs, left, right, different⟩
  cases left

theorem AllCompatible.perm {stores stores' : List Store} (order : stores.Perm stores')
    (compatible : AllCompatible stores) : AllCompatible stores' :=
  (order.pairwise_iff fun compatible => compatible.symm).mp compatible

theorem allCompatible_empty_iff {stores : List Store} :
    AllCompatible (empty :: stores) ↔ AllCompatible stores := by
  constructor
  · intro compatible
    exact (List.pairwise_cons.mp compatible).2
  · intro compatible
    exact List.pairwise_cons.mpr ⟨fun store _ => compatible_empty store, compatible⟩

/-- What clashes with a sum clashes with one of its parts. -/
theorem allCompatible_cons_cons_iff {start store : Store} {stores : List Store} :
    AllCompatible (start :: store :: stores) ↔
      Compatible start store ∧ AllCompatible (start.sum store :: stores) := by
  simp only [AllCompatible, List.pairwise_cons, List.forall_mem_cons]
  constructor
  · rintro ⟨⟨first, left⟩, right, others⟩
    refine ⟨first, fun other member => ?_, others⟩
    exact (compatible_sum_left_iff first other).mpr ⟨left other member, right other member⟩
  · rintro ⟨first, sums, others⟩
    have both := fun other member => (compatible_sum_left_iff first other).mp (sums other member)
    exact ⟨⟨first, fun other member => (both other member).1⟩, fun other member =>
      (both other member).2, others⟩

/-- Adding up from the left never clashes exactly when no two of the stores do. -/
theorem foldlM_merge_eq_ok_iff {stores : List Store} {start result : Store} :
    stores.foldlM merge start = .ok result ↔
      AllCompatible (start :: stores) ∧ result = stores.foldl sum start := by
  induction stores generalizing start with
  | nil =>
    constructor
    · intro done
      cases done
      exact ⟨List.pairwise_singleton _ _, rfl⟩
    · rintro ⟨-, rfl⟩
      rfl
  | cons store stores ih =>
    rw [List.foldlM_cons, List.foldl_cons]
    have opened : (start.merge store >>= fun sum => stores.foldlM merge sum) = .ok result ↔
        Compatible start store ∧ stores.foldlM merge (start.sum store) = .ok result := by
      cases merged : start.merge store with
      | error conflict =>
        have refused : ¬ Compatible start store := by
          intro compatible
          rw [merge_of_compatible compatible] at merged
          cases merged
        simp [bind, Except.bind, refused]
      | ok sum =>
        obtain ⟨compatible, rfl⟩ := merge_eq_ok_iff.mp merged
        simp [bind, Except.bind, compatible]
    rw [opened, ih, allCompatible_cons_cons_iff, and_assoc]

private theorem foldl_sum_perm {stores stores' : List Store} (order : stores.Perm stores')
    (compatible : AllCompatible stores) (start : Store) :
    stores.foldl sum start = stores'.foldl sum start := by
  apply List.Perm.foldl_eq' order
  intro one member other member' before
  have symmetric : Std.Symm Compatible := ⟨fun _ _ => Compatible.symm⟩
  have apart : Compatible one other :=
    List.Pairwise.forall_of_forall (fun store _ => compatible_self store) compatible member member'
  rw [sum_assoc, sum_assoc, sum_comm apart]

theorem total_perm {stores stores' : List Store} (order : stores.Perm stores')
    (compatible : AllCompatible stores) : total stores = total stores' :=
  foldl_sum_perm order compatible empty

/-- Stores that do not clash are merged in any order, with the same result. -/
theorem foldlM_merge_perm {stores stores' : List Store} (order : stores.Perm stores')
    (compatible : AllCompatible stores) : stores'.foldlM merge empty = .ok (total stores) := by
  rw [foldlM_merge_eq_ok_iff, allCompatible_empty_iff]
  exact ⟨compatible.perm order, total_perm order compatible⟩

theorem foldl_sum_eq (stores : List Store) (start : Store) :
    stores.foldl sum start = start.sum (total stores) := by
  induction stores generalizing start with
  | nil => exact (sum_empty start).symm
  | cons store stores ih =>
    have whole : total (store :: stores) = store.sum (total stores) := by
      rw [total, List.foldl_cons, empty_sum, ih]
    rw [List.foldl_cons, ih, sum_assoc, whole]

/-- What clashes with none of several stores does not clash with their sum either. -/
theorem compatible_foldl_sum_iff {stores : List Store} {start other : Store}
    (compatible : AllCompatible (start :: stores)) :
    Compatible (stores.foldl sum start) other ↔
      Compatible start other ∧ ∀ store ∈ stores, Compatible store other := by
  induction stores generalizing start with
  | nil => simp
  | cons store stores ih =>
    obtain ⟨first, others⟩ := allCompatible_cons_cons_iff.mp compatible
    rw [List.foldl_cons, ih others, compatible_sum_left_iff first, List.forall_mem_cons, and_assoc]

theorem compatible_total_iff {stores : List Store} (compatible : AllCompatible stores)
    {other : Store} :
    Compatible (total stores) other ↔ ∀ store ∈ stores, Compatible store other := by
  rw [total, compatible_foldl_sum_iff (allCompatible_empty_iff.mpr compatible)]
  exact and_iff_right (compatible_empty other)

/-- Adding stores up one by one is adding their sum. -/
theorem allCompatible_cons_iff {start : Store} {stores : List Store} :
    AllCompatible (start :: stores) ↔ AllCompatible stores ∧ Compatible start (total stores) := by
  rw [AllCompatible, List.pairwise_cons, and_comm]
  refine and_congr_right fun compatible => ?_
  have whole : Compatible (total stores) start ↔ _ := compatible_total_iff compatible
  constructor
  · intro each
    exact (whole.mpr fun store member => (each store member).symm).symm
  · intro sum store member
    exact (whole.mp sum.symm store member).symm

theorem total_append (front back : List Store) :
    total (front ++ back) = (total front).sum (total back) := by
  rw [total, List.foldl_append, foldl_sum_eq]
  rfl

/-- Stores can be added up in groups. -/
theorem total_flatten (groups : List (List Store)) :
    total groups.flatten = total (groups.map total) := by
  induction groups with
  | nil => rfl
  | cons group groups ih =>
    have whole : total ((group :: groups).map total) =
        (total group).sum (total (groups.map total)) := by
      rw [List.map_cons, ← List.singleton_append, total_append, total, List.foldl_cons, empty_sum]
      rfl
    rw [List.flatten_cons, total_append, ih, whole]

theorem allCompatible_flatten_iff {groups : List (List Store)} :
    AllCompatible groups.flatten ↔
      (∀ group ∈ groups, AllCompatible group) ∧ AllCompatible (groups.map total) := by
  rw [AllCompatible, List.pairwise_flatten, AllCompatible, List.pairwise_map]
  refine and_congr_right fun each => ?_
  apply List.Pairwise.iff_of_mem
  intro one other member member'
  rw [compatible_total_iff (each one member)]
  refine forall₂_congr fun store _ => ?_
  have whole : Compatible (total other) store ↔ _ := compatible_total_iff (each other member')
  constructor
  · intro apart
    exact (whole.mpr fun part own => (apart part own).symm).symm
  · intro sum part own
    exact (whole.mp sum.symm part own).symm

/-- A store that is added to nothing is taken as it is, as it would be anyway. -/
theorem fold_eq (stores : List Store) : fold stores = stores.foldlM merge empty := by
  unfold fold
  generalize empty = start
  induction stores generalizing start with
  | nil => rfl
  | cons store stores ih =>
    rw [List.foldlM_cons, List.foldlM_cons]
    have first : (if start.isEmpty then .ok store else start.merge store : Except Conflict Store) =
        start.merge store := by
      split
      · rename_i none
        rw [eq_empty_of_isEmpty none, merge_of_compatible (compatible_empty store), empty_sum]
      · rfl
    rw [first]
    congr 1
    funext sum
    exact ih sum

/-- The store of one record. -/
def single (record : Record) : Store := ⟨[record], List.pairwise_singleton _ _⟩

theorem insert_eq_merge (store : Store) (record : Record) :
    store.insert record = store.merge (single record) := by
  unfold insert merge single
  rw [List.findSome?_cons]
  cases store.conflict? record <;> rfl

/-- Puts one record after another into a store. -/
def insertAll (store : Store) (records : List Record) :
    Except Conflict Store := records.foldlM insert store

theorem insertAll_eq_ok_iff {store result : Store} {records : List Record} :
    store.insertAll records = .ok result ↔
      AllCompatible (store :: records.map single) ∧
      result = store.sum (total (records.map single)) := by
  have same : store.insertAll records = (records.map single).foldlM merge store := by
    rw [insertAll, List.foldlM_map]
    congr 1
    funext own record
    exact insert_eq_merge own record
  rw [same, foldlM_merge_eq_ok_iff, foldl_sum_eq]

theorem insertAll_singleton (store : Store) (record : Record) :
    store.insertAll [record] = store.insert record := by
  rw [insertAll, List.foldlM_cons]
  exact bind_pure _

theorem insertAll_append (store : Store) (front back : List Record) :
    store.insertAll (front ++ back) = store.insertAll front >>= fun sum => sum.insertAll back :=
  List.foldlM_append

/-- Records can be put into a store of their own first. -/
theorem merge_insertAll_iff {store result : Store} {records : List Record} :
    (∃ own, empty.insertAll records = .ok own ∧ store.merge own = .ok result) ↔
      store.insertAll records = .ok result := by
  simp only [insertAll_eq_ok_iff, merge_eq_ok_iff, allCompatible_empty_iff, empty_sum]
  rw [allCompatible_cons_iff]
  constructor
  · rintro ⟨own, ⟨compatible, rfl⟩, apart, rfl⟩
    exact ⟨⟨compatible, apart⟩, rfl⟩
  · rintro ⟨⟨compatible, apart⟩, rfl⟩
    exact ⟨_, ⟨compatible, rfl⟩, apart, rfl⟩

def names (store : Store) : List String := store.records.map Record.name

theorem nodup_names (store : Store) : store.names.Nodup := by
  apply List.pairwise_map.mpr
  apply List.Pairwise.imp _ store.increasing
  intro one other less same
  rw [same] at less
  exact String.lt_irrefl _ less

theorem mem_names_iff {store : Store} {name : String} :
    name ∈ store.names ↔ (store.get? name).isSome := by
  rw [names, List.mem_map]
  constructor
  · rintro ⟨record, member, rfl⟩
    rw [get?_of_mem member]
    rfl
  · intro known
    obtain ⟨record, found⟩ := Option.isSome_iff_exists.mp known
    exact ⟨record, mem_of_get? found, name_of_get? found⟩

private theorem mem_names_sum_iff {a b : Store} {name : String} :
    name ∈ (a.sum b).names ↔ name ∈ a.names ∨ name ∈ b.names := by
  rw [mem_names_iff, mem_names_iff, mem_names_iff, get?_sum]
  cases a.get? name <;> cases b.get? name <;> simp

private theorem mem_names_foldl_sum_iff {stores : List Store} {start : Store} {name : String} :
    name ∈ (stores.foldl sum start).names ↔ name ∈ start.names ∨ ∃ store ∈ stores,
    name ∈ store.names := by
  induction stores generalizing start with
  | nil => simp
  | cons store stores ih =>
    rw [List.foldl_cons, ih, mem_names_sum_iff, or_assoc]
    simp

/-- A sum has one record for each class that one of its parts knows. -/
theorem size_total (stores : List Store) :
    (total stores).size = (stores.flatMap names).dedup.length := by
  have same : (total stores).names.Perm (stores.flatMap names).dedup := by
    rw [List.perm_ext_iff_of_nodup (nodup_names _) (List.nodup_dedup _)]
    intro name
    rw [total, mem_names_foldl_sum_iff, List.mem_dedup, List.mem_flatMap]
    constructor
    · rintro (none | known)
      · cases none
      · exact known
    · exact .inr
  rw [← same.length_eq, names, List.length_map]
  rfl

end ClassCoverage.Store
