import ClassCoverage.Proofs.RecordAlgebra
import ClassCoverage.Store
import Mathlib.Tactic.Push
import Mathlib.Tactic.ByContra

/-! Stores under merging: a partial commutative monoid. A store is known by what it says of each
class, and two stores can be merged unless they clash on a class. -/
namespace ClassCoverage

namespace Records

theorem find?_cons_self (record : Record) (records : List Record) :
    find? record.name (record :: records) = some record := by
  simp [find?]

theorem find?_cons_of_ne {name : String} {record : Record} (different : record.name ≠ name)
    (records : List Record) : find? name (record :: records) = find? name records := by
  simp [find?, different]

theorem mem_of_find? {name : String} {record : Record} {records : List Record}
    (found : find? name records = some record) : record ∈ records :=
  List.mem_of_find?_eq_some found

private theorem find?_of_mem {record : Record} {records : List Record}
    (increasing : Increasing records) (member : record ∈ records) :
    find? record.name records = some record := by
  induction records with
  | nil => simp at member
  | cons head rest ih =>
    obtain ⟨least, sorted⟩ := List.pairwise_cons.mp increasing
    rcases List.mem_cons.mp member with rfl | later
    · exact find?_cons_self record rest
    · have different : head.name ≠ record.name := fun same =>
        String.lt_irrefl _ (same ▸ least record later)
      rw [find?_cons_of_ne different, ih sorted later]

private theorem head_name_eq {a b : Record} {as bs : List Record}
    (first : Increasing (a :: as)) (second : Increasing (b :: bs))
    (same : ∀ name, find? name (a :: as) = find? name (b :: bs)) : a.name = b.name := by
  have left := same a.name
  have right := same b.name
  rw [find?_cons_self] at left right
  rcases List.mem_cons.mp (mem_of_find? left.symm) with here | later
  · rw [here]
  · rcases List.mem_cons.mp (mem_of_find? right) with here | before
    · rw [here]
    · have less := (List.pairwise_cons.mp second).1 a later
      have greater := (List.pairwise_cons.mp first).1 b before
      exact absurd greater (String.lt_asymm less)

/-- Lists in name order are equal when they say the same of every class. -/
theorem eq_of_find? {as bs : List Record} (first : Increasing as) (second : Increasing bs)
    (same : ∀ name, find? name as = find? name bs) : as = bs := by
  induction as generalizing bs with
  | nil => cases bs with
    | nil => rfl
    | cons b bs =>
      have found := same b.name
      rw [find?_cons_self] at found
      simp [find?] at found
  | cons a as ih => cases bs with
    | nil =>
      have found := same a.name
      rw [find?_cons_self] at found
      simp [find?] at found
    | cons b bs =>
      have named := head_name_eq first second same
      have head : a = b := by
        have found := same a.name
        rw [find?_cons_self, named, find?_cons_self] at found
        exact Option.some.inj found
      subst head
      obtain ⟨least, sorted⟩ := List.pairwise_cons.mp first
      obtain ⟨least', sorted'⟩ := List.pairwise_cons.mp second
      congr 1
      refine ih sorted sorted' fun name => ?_
      by_cases here : a.name = name
      · subst here
        rw [find?_eq_none_of_lt least, find?_eq_none_of_lt least']
      · simpa [find?_cons_of_ne here] using same name

end Records

namespace Store

theorem ext_get? {a b : Store} (same : ∀ name, a.get? name = b.get? name) : a = b := by
  have records := Records.eq_of_find? a.increasing b.increasing same
  cases a
  cases b
  cases records
  rfl

theorem get?_empty (name : String) : empty.get? name = none := rfl

theorem get?_of_mem {store : Store} {record : Record} (member : record ∈ store.records) :
    store.get? record.name = some record :=
  Records.find?_of_mem store.increasing member

theorem mem_of_get? {store : Store} {name : String} {record : Record}
    (found : store.get? name = some record) : record ∈ store.records :=
  Records.mem_of_find? found

/-- Both stores know a class, with different layouts. -/
def Clash (a b : Store) (name : String) : Prop :=
  ∃ ours theirs, a.get? name = some ours ∧ b.get? name = some theirs ∧ ¬ ours.SameLayout theirs

def Compatible (a b : Store) : Prop := ∀ name, ¬ Clash a b name

theorem Clash.symm {a b : Store} {name : String} (clash : Clash a b name) : Clash b a name := by
  obtain ⟨ours, theirs, left, right, different⟩ := clash
  exact ⟨theirs, ours, right, left, fun same => different same.symm⟩

theorem Compatible.symm {a b : Store} (compatible : Compatible a b) : Compatible b a :=
  fun name clash => compatible name clash.symm

theorem Compatible.sameLayout {a b : Store} (compatible : Compatible a b) {name : String}
    {ours theirs : Record} (left : a.get? name = some ours) (right : b.get? name = some theirs) :
    ours.SameLayout theirs := by
  by_contra different
  exact compatible name ⟨ours, theirs, left, right, different⟩

theorem conflict?_eq_none_iff (store : Store) (record : Record) :
    store.conflict? record = none ↔
      ∀ ours, store.get? record.name = some ours → ours.SameLayout record := by
  unfold conflict?
  cases found : store.get? record.name with
  | none => simp
  | some ours => simp [Record.mismatch?_eq_none_iff]

private theorem className_of_conflict? {store : Store} {record : Record} {conflict : Conflict}
    (found : store.conflict? record = some conflict) : conflict.className = record.name := by
  unfold conflict? at found
  obtain ⟨mismatch, _, rfl⟩ := Option.map_eq_some_iff.mp found
  rfl

/-- A record of one store is refused by the other exactly when they clash on its class. -/
theorem conflict?_ne_none_iff {a b : Store} {record : Record} (member : record ∈ b.records) :
    a.conflict? record ≠ none ↔ Clash a b record.name := by
  rw [ne_eq, conflict?_eq_none_iff]
  constructor
  · intro refused
    push Not at refused
    obtain ⟨ours, left, different⟩ := refused
    exact ⟨ours, record, left, get?_of_mem member, different⟩
  · rintro ⟨ours, theirs, left, right, different⟩ accepted
    rw [get?_of_mem member] at right
    cases right
    exact different (accepted ours left)

theorem findSome?_conflict?_eq_none_iff (a b : Store) :
    b.records.findSome? a.conflict? = none ↔ Compatible a b := by
  rw [List.findSome?_eq_none_iff]
  constructor
  · rintro accepted name ⟨ours, theirs, left, right, different⟩
    have named := name_of_get? right
    subst named
    exact (conflict?_ne_none_iff (mem_of_get? right)).mpr ⟨ours, theirs, left, right, different⟩
      (accepted theirs (mem_of_get? right))
  · intro compatible record member
    by_contra refused
    exact compatible record.name ((conflict?_ne_none_iff member).mp refused)

/-- Everything two stores say, with the counters of shared classes added. -/
def sum (a b : Store) : Store := b.records.foldl absorb a

private theorem get?_foldl_absorb (records : List Record) (increasing : Records.Increasing records)
    (store : Store) (name : String) :
    (records.foldl absorb store).get? name =
      Option.merge Record.add (store.get? name) (Records.find? name records) := by
  induction records generalizing store with
  | nil => simp [Records.find?]
  | cons record rest ih =>
    obtain ⟨least, sorted⟩ := List.pairwise_cons.mp increasing
    rw [List.foldl_cons, ih sorted, get?_absorb]
    by_cases here : name = record.name
    · subst here
      rw [Records.find?_eq_none_of_lt least, Records.find?_cons_self]
      cases store.get? record.name <;> simp
    · rw [Records.find?_cons_of_ne (Ne.symm here)]
      simp [here]

theorem get?_sum (a b : Store) (name : String) :
    (a.sum b).get? name = Option.merge Record.add (a.get? name) (b.get? name) :=
  get?_foldl_absorb b.records b.increasing a name

theorem sum_empty (a : Store) : a.sum empty = a := rfl

theorem empty_sum (a : Store) : empty.sum a = a :=
  ext_get? fun name => by rw [get?_sum, get?_empty, Option.merge_none_left]

theorem sum_comm {a b : Store} (compatible : Compatible a b) : a.sum b = b.sum a := by
  refine ext_get? fun name => ?_
  rw [get?_sum, get?_sum]
  cases left : a.get? name with
  | none => simp
  | some ours =>
    cases right : b.get? name with
    | none => simp
    | some theirs =>
      have named := (name_of_get? left).trans (name_of_get? right).symm
      simp [Record.add_comm named (compatible.sameLayout left right)]

theorem sum_assoc (a b c : Store) : (a.sum b).sum c = a.sum (b.sum c) := by
  refine ext_get? fun name => ?_
  have associates : Std.Associative Record.add := ⟨Record.add_assoc⟩
  simp only [get?_sum]
  exact Std.Associative.assoc _ _ _

/-- What a third store clashes with in a sum, it clashes with in one of its parts. -/
theorem clash_sum_left_iff {a b : Store} (compatible : Compatible a b) (c : Store) (name : String) :
    Clash (a.sum b) c name ↔ Clash a c name ∨ Clash b c name := by
  simp only [Clash, get?_sum]
  cases left : a.get? name with
  | none => simp
  | some ours =>
    cases right : b.get? name with
    | none => simp
    | some theirs =>
      have same := compatible.sameLayout left right
      have either (other : Record) : ours.SameLayout other ↔ theirs.SameLayout other :=
        ⟨same.symm.trans, same.trans⟩
      simp [Record.sameLayout_add_left same, either]

theorem compatible_sum_left_iff {a b : Store} (compatible : Compatible a b) (c : Store) :
    Compatible (a.sum b) c ↔ Compatible a c ∧ Compatible b c := by
  simp only [Compatible, clash_sum_left_iff compatible, not_or, forall_and]

private theorem compatible_sum_right_iff {b c : Store} (compatible : Compatible b c) (a : Store) :
    Compatible a (b.sum c) ↔ Compatible a b ∧ Compatible a c := by
  constructor
  · intro whole
    obtain ⟨left, right⟩ := (compatible_sum_left_iff compatible a).mp whole.symm
    exact ⟨left.symm, right.symm⟩
  · rintro ⟨left, right⟩
    exact ((compatible_sum_left_iff compatible a).mpr ⟨left.symm, right.symm⟩).symm

/-- Three stores can be added up from either end under the same condition. -/
theorem compatible_assoc (a b c : Store) :
    Compatible a b ∧ Compatible (a.sum b) c ↔ Compatible b c ∧ Compatible a (b.sum c) := by
  constructor
  · rintro ⟨first, second⟩
    obtain ⟨outer, inner⟩ := (compatible_sum_left_iff first c).mp second
    exact ⟨inner, (compatible_sum_right_iff inner a).mpr ⟨first, outer⟩⟩
  · rintro ⟨first, second⟩
    obtain ⟨inner, outer⟩ := (compatible_sum_right_iff first a).mp second
    exact ⟨inner, (compatible_sum_left_iff inner c).mpr ⟨outer, first⟩⟩

theorem merge_of_compatible {a b : Store} (compatible : Compatible a b) :
    a.merge b = .ok (a.sum b) := by
  simp [merge, (findSome?_conflict?_eq_none_iff a b).mpr compatible, sum]

/-- A merge is refused with the least class the stores clash on. -/
theorem merge_of_not_compatible {a b : Store} (incompatible : ¬ Compatible a b) :
    ∃ conflict, a.merge b = .error conflict ∧ Clash a b conflict.className ∧
      ∀ name, Clash a b name → ¬ name < conflict.className := by
  cases found : b.records.findSome? a.conflict? with
  | none => exact absurd ((findSome?_conflict?_eq_none_iff a b).mp found) incompatible
  | some conflict =>
    obtain ⟨before, record, after, split, refused, accepted⟩ :=
      List.findSome?_eq_some_iff.mp found
    have member : record ∈ b.records := by simp [split]
    have named := className_of_conflict? refused
    refine ⟨conflict, by simp [merge, found], ?_, fun name clash less => ?_⟩
    · rw [named]
      exact (conflict?_ne_none_iff member).mp (by simp [refused])
    · obtain ⟨ours, theirs, left, right, different⟩ := clash
      have called := name_of_get? right
      subst called
      have earlier := mem_of_get? right
      rw [split] at earlier
      have ordered := b.increasing
      rw [split] at ordered
      rcases List.mem_append.mp earlier with front | back
      · have own : theirs ∈ b.records := mem_of_get? right
        exact (conflict?_ne_none_iff own).mpr ⟨ours, theirs, left, right, different⟩
          (accepted theirs front)
      · rcases List.mem_cons.mp back with rfl | later
        · exact String.lt_irrefl _ (named ▸ less)
        · have greater :=
            (List.pairwise_cons.mp (List.pairwise_append.mp ordered).2.1).1 theirs later
          exact String.lt_asymm greater (named ▸ less)

theorem merge_eq_ok_iff {a b total : Store} :
    a.merge b = .ok total ↔ Compatible a b ∧ total = a.sum b := by
  by_cases compatible : Compatible a b
  · simp [merge_of_compatible compatible, compatible, eq_comm]
  · obtain ⟨conflict, refused, _⟩ := merge_of_not_compatible compatible
    simp [refused, compatible]

private theorem merge_comm (a b : Store) :
    (a.merge b).mapError Conflict.className = (b.merge a).mapError Conflict.className := by
  by_cases compatible : Compatible a b
  · rw [merge_of_compatible compatible, merge_of_compatible compatible.symm, sum_comm compatible]
  · have incompatible : ¬ Compatible b a := fun other => compatible other.symm
    obtain ⟨ours, refused, clash, least⟩ := merge_of_not_compatible compatible
    obtain ⟨theirs, refused', clash', least'⟩ := merge_of_not_compatible incompatible
    have same : ours.className = theirs.className := by
      rcases Std.lt_trichotomy ours.className theirs.className with less | same | greater
      · exact absurd less (least' _ clash.symm)
      · exact same
      · exact absurd greater (least _ clash'.symm)
    simp [refused, refused', Except.mapError, same]

private theorem merge_assoc (a b c : Store) :
    (a.merge b >>= fun sum => sum.merge c).toOption =
      (b.merge c >>= fun sum => a.merge sum).toOption := by
  apply Option.ext
  intro total
  have opened (one other : Store) (next : Store → Except Conflict Store) :
      (one.merge other >>= next).toOption = some total ↔
        Compatible one other ∧ next (one.sum other) = .ok total := by
    cases result : one.merge other with
    | error conflict =>
      have refused : ¬ Compatible one other := fun compatible => by
        simp [merge_of_compatible compatible] at result
      simp [bind, Except.bind, Except.toOption, refused]
    | ok sum =>
      obtain ⟨compatible, rfl⟩ := merge_eq_ok_iff.mp result
      cases following : next (one.sum other) <;>
        simp [bind, Except.bind, Except.toOption, compatible, following]
  rw [opened, opened, merge_eq_ok_iff, merge_eq_ok_iff, ← and_assoc, ← and_assoc,
    compatible_assoc, sum_assoc]

/-- Merging is commutative, down to the class that is named when it is refused; it is associative,
a refused part counting as a refusal of the whole; and the empty store is neutral. -/
theorem merge_partialCommutativeMonoid (a b c : Store) :
    (a.merge b).mapError Conflict.className = (b.merge a).mapError Conflict.className ∧
    (a.merge b >>= fun sum => sum.merge c).toOption =
      (b.merge c >>= fun sum => a.merge sum).toOption ∧
    empty.merge a = .ok a ∧ a.merge empty = .ok a := by
  refine ⟨merge_comm a b, merge_assoc a b c, ?_, ?_⟩
  · exact merge_eq_ok_iff.mpr ⟨fun _ => by simp [Clash, get?_empty], (empty_sum a).symm⟩
  · exact merge_eq_ok_iff.mpr ⟨fun _ => by simp [Clash, get?_empty], (sum_empty a).symm⟩

end Store
end ClassCoverage
