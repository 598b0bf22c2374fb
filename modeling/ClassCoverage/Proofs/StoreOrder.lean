import ClassCoverage.Proofs.StoreMerge

/-! What a store still knows of a record after others were added to it. Counts never go down, and no
class is ever forgotten. -/
namespace ClassCoverage

/-- A record of the same class and layout, with no count below that of `part`. -/
structure Record.Within (part total : Record) : Prop where
  name : total.name = part.name
  layout : part.SameLayout total
  hits : List.Forall₂ (fun ours theirs : LineCounter =>
    ours.hits ≤ theirs.hits) part.lines total.lines
  taken : List.Forall₂ (fun ours theirs : BranchCounter => ours.taken = true → theirs.taken = true)
    part.branches total.branches

namespace Record.Within

theorem refl (record : Record) : record.Within record where
  name := rfl
  layout := SameLayout.refl record
  hits := List.forall₂_same.mpr fun counter _ => UInt64.le_refl counter.hits
  taken := List.forall₂_same.mpr fun _ _ taken => taken

private theorem trans {a b c : Record} (first : a.Within b) (second : b.Within c) : a.Within c where
  name := second.name.trans first.name
  layout := first.layout.trans second.layout
  hits := by
    refine Aligned.forall₂_trans ?_ first.hits second.hits
    exact fun _ _ _ one other => UInt64.le_trans one other
  taken := Aligned.forall₂_trans (fun _ _ _ one other taken =>
    other (one taken)) first.taken second.taken

theorem add_left {a b : Record} (same : a.SameLayout b) : a.Within (a.add b) where
  name := rfl
  layout := same.add.symm
  hits := Aligned.forall₂_add_left
    (fun ours theirs => le_saturatingAdd_left ours.hits theirs.hits) same.1
  taken := Aligned.forall₂_add_left
    (fun ours theirs taken => by simp [BranchCounter.add, taken]) same.2

theorem add_right {a b : Record} (named : a.name = b.name) (same : a.SameLayout b) :
    b.Within (a.add b) := by
  rw [add_comm named same]
  exact add_left same.symm

end Record.Within

namespace Store

/-- The store has a record that the given one is within. -/
def Covers (store : Store) (record : Record) : Prop :=
  ∃ kept, store.get? record.name = some kept ∧ record.Within kept

def Includes (total part : Store) : Prop := ∀ record ∈ part.records, total.Covers record

theorem Covers.of_includes {total part : Store} {record : Record} (includes : total.Includes part)
    (covered : part.Covers record) : total.Covers record := by
  obtain ⟨kept, found, within⟩ := covered
  obtain ⟨more, found', within'⟩ := includes kept (mem_of_get? found)
  rw [name_of_get? found] at found'
  exact ⟨more, found', within.trans within'⟩

theorem Includes.refl (store : Store) : store.Includes store :=
  fun record member => ⟨record, get?_of_mem member, .refl record⟩

theorem Includes.trans {a b c : Store} (second : c.Includes b) (first : b.Includes a) :
    c.Includes a :=
  fun record member => .of_includes second (first record member)

private theorem includes_empty (store : Store) : store.Includes empty := by
  intro record member
  cases member

theorem includes_of_merge {a b total : Store} (merged : a.merge b = .ok total) :
    total.Includes a ∧ total.Includes b := by
  obtain ⟨compatible, rfl⟩ := merge_eq_ok_iff.mp merged
  constructor
  · intro record member
    have left := get?_of_mem member
    rw [Covers, get?_sum, left]
    cases right : b.get? record.name with
    | none => exact ⟨record, rfl, .refl record⟩
    | some other => exact ⟨record.add other, rfl, .add_left (compatible.sameLayout left right)⟩
  · intro record member
    have right := get?_of_mem member
    rw [Covers, get?_sum, right]
    cases left : a.get? record.name with
    | none => exact ⟨record, rfl, .refl record⟩
    | some other =>
      exact ⟨other.add record, rfl,
        .add_right (name_of_get? left) (compatible.sameLayout left right)⟩

theorem includes_of_insert {store store' : Store} {record : Record}
    (inserted : store.insert record = .ok store') :
    store'.Includes store ∧ store'.Covers record := by
  unfold insert at inserted
  cases refused : store.conflict? record with
  | some conflict =>
    rw [refused] at inserted
    cases inserted
  | none =>
    rw [refused] at inserted
    cases inserted
    have layouts := (conflict?_eq_none_iff store record).mp refused
    constructor
    · intro other member
      have found := get?_of_mem member
      rw [Covers, get?_absorb]
      by_cases same : other.name = record.name
      · rw [if_pos same, ← same, found]
        exact ⟨other.add record, rfl, .add_left (layouts other (same ▸ found))⟩
      · rw [if_neg same]
        exact ⟨other, found, .refl other⟩
    · rw [Covers, get?_absorb, if_pos rfl]
      cases found : store.get? record.name with
      | none => exact ⟨record, rfl, .refl record⟩
      | some ours =>
        exact ⟨ours.add record, rfl, .add_right (name_of_get? found) (layouts ours found)⟩

theorem eq_empty_of_isEmpty {store : Store} (none : store.isEmpty = true) : store = empty := by
  obtain ⟨records, increasing⟩ := store
  cases List.isEmpty_iff.mp none
  rfl

/-- What is folded has a part in the outcome. -/
theorem includes_of_foldlM {stores : List Store} {start total : Store}
    (folded : stores.foldlM (fun sum store => if sum.isEmpty then .ok store else sum.merge store)
      start = .ok total) :
    total.Includes start ∧ ∀ store ∈ stores, total.Includes store := by
  induction stores generalizing start with
  | nil =>
    cases folded
    exact ⟨.refl _, by simp⟩
  | cons store stores ih =>
    rw [List.foldlM_cons] at folded
    cases added :
      (if start.isEmpty then .ok store else start.merge store : Except Conflict Store) with
    | error conflict =>
      rw [added] at folded
      cases folded
    | ok sum =>
      rw [added] at folded
      obtain ⟨whole, later⟩ := ih folded
      have parts : sum.Includes start ∧ sum.Includes store := by
        split at added
        · rename_i none
          cases added
          exact ⟨eq_empty_of_isEmpty none ▸ includes_empty store, .refl store⟩
        · exact includes_of_merge added
      refine ⟨whole.trans parts.1, fun other member => ?_⟩
      rcases List.mem_cons.mp member with rfl | member
      · exact whole.trans parts.2
      · exact later other member

theorem includes_of_fold {stores : List Store} {total : Store} (folded : fold stores = .ok total) :
    ∀ store ∈ stores, total.Includes store :=
  (includes_of_foldlM folded).2

end Store
end ClassCoverage
