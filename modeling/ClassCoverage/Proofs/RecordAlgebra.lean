import ClassCoverage.Record
import Mathlib.Data.List.Forall2

/-! Records of one layout form a commutative semigroup under addition. Hit counts that reach
their cap stay there, so the order in which they are added up does not show. -/
namespace ClassCoverage

theorem toNat_saturatingAdd (a b : UInt64) :
    (saturatingAdd a b).toNat = min (a.toNat + b.toNat) (2 ^ (64 : Nat) - 1) := by
  unfold saturatingAdd
  split
  · rename_i small
    rw [UInt64.toNat_add, Nat.mod_eq_of_lt small]
    omega
  · simp only [UInt64.toNat_ofNat']
    omega

private theorem saturatingAdd_comm (a b : UInt64) : saturatingAdd a b = saturatingAdd b a := by
  apply UInt64.toNat.inj
  rw [toNat_saturatingAdd, toNat_saturatingAdd, Nat.add_comm]

/-- A sum that passed the cap on the way has the cap on both sides. -/
theorem saturatingAdd_assoc (a b c : UInt64) :
    saturatingAdd (saturatingAdd a b) c = saturatingAdd a (saturatingAdd b c) := by
  apply UInt64.toNat.inj
  simp only [toNat_saturatingAdd]
  omega

theorem le_saturatingAdd_left (a b : UInt64) : a ≤ saturatingAdd a b := by
  rw [UInt64.le_iff_toNat_le, toNat_saturatingAdd]
  have bounded := a.toNat_lt
  omega

/-- The file name that is kept of two. -/
private def smaller (ours theirs : String) : String := if theirs < ours then theirs else ours

private theorem smallerHint_eq (ours theirs : Option String) :
    smallerHint ours theirs = Option.merge smaller ours theirs := by
  cases ours <;> cases theirs <;> rfl

private theorem smaller_comm (a b : String) : smaller a b = smaller b a := by
  unfold smaller
  rcases Std.lt_trichotomy a b with less | same | greater
  · simp [less, String.lt_asymm less]
  · simp [same]
  · simp [greater, String.lt_asymm greater]

private theorem smaller_assoc (a b c : String) :
    smaller (smaller a b) c = smaller a (smaller b c) := by
  unfold smaller
  by_cases first : b < a
  · by_cases second : c < b
    · simp [first, second, String.lt_trans second first]
    · simp [first, second]
  · by_cases second : c < b
    · simp [first, second]
    · have least : ¬ c < a := Std.not_lt.mpr
        (Std.le_trans (Std.not_lt.mp first) (Std.not_lt.mp second))
      simp [first, second, least]

private theorem smallerHint_comm (a b : Option String) : smallerHint a b = smallerHint b a := by
  have commutes : Std.Commutative smaller := ⟨smaller_comm⟩
  simp only [smallerHint_eq]
  exact Std.Commutative.comm a b

private theorem smallerHint_assoc (a b c : Option String) :
    smallerHint (smallerHint a b) c = smallerHint a (smallerHint b c) := by
  have associates : Std.Associative smaller := ⟨smaller_assoc⟩
  simp only [smallerHint_eq]
  exact Std.Associative.assoc a b c

/-! Counters of two records are added place by place. What a counter stands for, its key, is that of
the left one. -/

namespace Aligned
variable {α κ : Type} {key : α → κ} {add : α → α → α}

private theorem keys_add (add : α → α → α) (kept : ∀ a b, key (add a b) = key a) {as bs : List α}
    (same : as.map key = bs.map key) : (List.zipWith add as bs).map key = as.map key := by
  induction as generalizing bs with
  | nil => rfl
  | cons a as ih =>
    cases bs with
    | nil => simp at same
    | cons b bs =>
      obtain ⟨_, rest⟩ := List.cons.inj same
      simp [kept, ih rest]

private theorem add_comm (comm : ∀ a b, key a = key b → add a b = add b a) {as bs : List α}
    (same : as.map key = bs.map key) : List.zipWith add as bs = List.zipWith add bs as := by
  induction as generalizing bs with
  | nil => cases bs with
    | nil => rfl
    | cons b bs => simp at same
  | cons a as ih =>
    cases bs with
    | nil => simp at same
    | cons b bs =>
      obtain ⟨head, rest⟩ := List.cons.inj same
      simp [comm a b head, ih rest]

private theorem add_assoc (assoc : ∀ a b c, add (add a b) c = add a (add b c)) (as bs cs : List α) :
    List.zipWith add (List.zipWith add as bs) cs =
      List.zipWith add as (List.zipWith add bs cs) := by
  induction as generalizing bs cs with
  | nil => rfl
  | cons a as ih =>
    cases bs with
    | nil => rfl
    | cons b bs =>
      cases cs with
      | nil => rfl
      | cons c cs => simp [assoc, ih]

theorem forall₂_add_left {le : α → α → Prop} (grows : ∀ a b, le a (add a b)) {as bs : List α}
    (same : as.map key = bs.map key) : List.Forall₂ le as (List.zipWith add as bs) := by
  induction as generalizing bs with
  | nil => exact .nil
  | cons a as ih =>
    cases bs with
    | nil => simp at same
    | cons b bs =>
      obtain ⟨_, rest⟩ := List.cons.inj same
      exact .cons (grows a b) (ih rest)

theorem forall₂_trans {le : α → α → Prop} (trans : ∀ a b c, le a b → le b c → le a c)
    {as bs cs : List α} (first : List.Forall₂ le as bs) (second : List.Forall₂ le bs cs) :
    List.Forall₂ le as cs := by
  induction first generalizing cs with
  | nil => exact second
  | cons least _ ih =>
    cases second with
    | cons next rest => exact .cons (trans _ _ _ least next) (ih rest)

end Aligned

namespace LineCounter

private theorem add_comm (a b : LineCounter) (same : a.line = b.line) : a.add b = b.add a := by
  simp [add, same, saturatingAdd_comm]

private theorem add_assoc (a b c : LineCounter) : (a.add b).add c = a.add (b.add c) := by
  simp [add, saturatingAdd_assoc]

end LineCounter

namespace BranchCounter

private theorem add_comm (a b : BranchCounter) (same : a.site = b.site) : a.add b = b.add a := by
  obtain ⟨line, arm⟩ := Prod.mk.inj same
  simp [add, line, arm, Bool.or_comm]

private theorem add_assoc (a b c : BranchCounter) : (a.add b).add c = a.add (b.add c) := by
  simp [add, Bool.or_assoc]

end BranchCounter

namespace Record

theorem SameLayout.refl (record : Record) : record.SameLayout record := ⟨rfl, rfl⟩

theorem SameLayout.symm {a b : Record} (same : a.SameLayout b) : b.SameLayout a :=
  ⟨same.1.symm, same.2.symm⟩

theorem SameLayout.trans {a b c : Record} (first : a.SameLayout b) (second : b.SameLayout c) :
    a.SameLayout c :=
  ⟨first.1.trans second.1, first.2.trans second.2⟩

/-- A sum has the layout of what was added up. -/
theorem SameLayout.add {a b : Record} (same : a.SameLayout b) : (a.add b).SameLayout a :=
  ⟨Aligned.keys_add LineCounter.add (fun _ _ => rfl) same.1,
    Aligned.keys_add BranchCounter.add (fun _ _ => rfl) same.2⟩

theorem sameLayout_add_left {a b c : Record} (same : a.SameLayout b) :
    (a.add b).SameLayout c ↔ a.SameLayout c :=
  ⟨same.add.symm.trans, same.add.trans⟩

theorem add_comm {a b : Record} (named : a.name = b.name) (same : a.SameLayout b) :
    a.add b = b.add a := by
  have lines := Aligned.add_comm LineCounter.add_comm same.1
  have branches := Aligned.add_comm BranchCounter.add_comm same.2
  simp [add, named, smallerHint_comm a.sourceFile, lines, branches]

theorem add_assoc (a b c : Record) : (a.add b).add c = a.add (b.add c) := by
  have lines := Aligned.add_assoc LineCounter.add_assoc a.lines b.lines c.lines
  have branches := Aligned.add_assoc BranchCounter.add_assoc a.branches b.branches c.branches
  simp [add, smallerHint_assoc, lines, branches]

end Record
end ClassCoverage
