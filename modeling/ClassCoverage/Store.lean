import ClassCoverage.Record

/-! Coverage stores: at most one record for each class name, in name order. Adding stores adds the
counters of shared classes, and is refused as a whole when two layouts disagree. Shares of covered
counters are shown as whole percentages. -/
namespace ClassCoverage

/-- The class whose two records have different layouts, and how they differ. -/
structure Conflict where
  className : String
  mismatch : Mismatch
  deriving DecidableEq, Repr

namespace Records

def Increasing (records : List Record) : Prop := records.Pairwise fun a b => a.name < b.name

def find? (name : String) (records : List Record) : Option Record :=
  records.find? fun record => record.name = name

/-- Puts a record at its place, after `combine` with the one that is there already. -/
def upsert (combine : Record → Record → Record) (record : Record) : List Record → List Record
  | [] => [record]
  | other :: rest =>
    if record.name < other.name then record :: other :: rest
    else if other.name = record.name then combine other record :: rest
    else other :: upsert combine record rest

theorem name_mem_upsert {combine : Record → Record → Record} {record : Record}
    (named : ∀ old, old.name = record.name → (combine old record).name = record.name)
    {records : List Record} {member : Record} (found : member ∈ upsert combine record records) :
    member.name = record.name ∨ member ∈ records := by
  induction records with
  | nil => simp [upsert] at found; simp [found]
  | cons other rest ih =>
    simp only [upsert] at found
    split at found
    · rcases List.mem_cons.mp found with rfl | old
      · exact .inl rfl
      · exact .inr old
    · split at found
      · rename_i same
        rcases List.mem_cons.mp found with rfl | old
        · exact .inl (named other same)
        · exact .inr (List.mem_cons_of_mem _ old)
      · rcases List.mem_cons.mp found with rfl | later
        · exact .inr (List.mem_cons_self ..)
        · exact (ih later).imp_right (List.mem_cons_of_mem _)

theorem increasing_upsert {combine : Record → Record → Record} {record : Record}
    (named : ∀ old, old.name = record.name → (combine old record).name = record.name)
    {records : List Record} (increasing : Increasing records) :
    Increasing (upsert combine record records) := by
  induction records with
  | nil => simp [upsert, Increasing]
  | cons other rest ih =>
    obtain ⟨least, sorted⟩ := List.pairwise_cons.mp increasing
    simp only [upsert]
    split
    · rename_i smaller
      refine List.pairwise_cons.mpr ⟨fun member found => ?_, increasing⟩
      rcases List.mem_cons.mp found with rfl | later
      · exact smaller
      · exact String.lt_trans smaller (least member later)
    · rename_i notSmaller
      split
      · rename_i same
        refine List.pairwise_cons.mpr ⟨fun member found => ?_, sorted⟩
        rw [named other same, ← same]
        exact least member found
      · rename_i different
        refine List.pairwise_cons.mpr ⟨fun member found => ?_, ih sorted⟩
        rcases name_mem_upsert named found with equal | old
        · rw [equal]
          exact Std.lt_of_le_of_ne (Std.not_lt.mp notSmaller) different
        · exact least member old

theorem find?_eq_none_of_lt {name : String} {records : List Record}
    (above : ∀ record ∈ records, name < record.name) : find? name records = none := by
  refine List.find?_eq_none.mpr fun record member => ?_
  have later := above record member
  simp only [decide_eq_true_eq]
  rintro rfl
  exact String.lt_irrefl _ later

theorem find?_upsert {combine : Record → Record → Record} {record : Record}
    (named : ∀ old, old.name = record.name → (combine old record).name = record.name)
    {records : List Record} (increasing : Increasing records) (name : String) :
    find? name (upsert combine record records) =
      if name = record.name then
        some (((find? record.name records).map (combine · record)).getD record)
      else find? name records := by
  induction records with
  | nil =>
    by_cases same : name = record.name
    · simp [upsert, find?, same]
    · simp [upsert, find?, same, Ne.symm same]
  | cons other rest ih =>
    obtain ⟨least, sorted⟩ := List.pairwise_cons.mp increasing
    simp only [upsert]
    split
    · rename_i smaller
      have absent : find? record.name (other :: rest) = none :=
        find?_eq_none_of_lt fun member found => by
        rcases List.mem_cons.mp found with rfl | later
        · exact smaller
        · exact String.lt_trans smaller (least member later)
      by_cases same : name = record.name
      · subst same; rw [if_pos rfl, absent]; simp [find?]
      · rw [if_neg same]; simp [find?, Ne.symm same]
    · split
      · rename_i notSmaller equal
        by_cases same : name = record.name
        · subst same; simp [find?, equal, named other equal]
        · simp [find?, equal, named other equal, same, Ne.symm same]
      · rename_i notSmaller different
        by_cases same : name = record.name
        · subst same
          have rest := ih sorted
          simp only [find?, ↓reduceIte] at rest
          simp [find?, different, rest]
        · by_cases here : other.name = name
          · simp [find?, here, same]
          · have rest := ih sorted
            simp only [find?, same, ↓reduceIte] at rest
            simp [find?, here, same, rest]

end Records

structure Store where
  records : List Record
  increasing : Records.Increasing records

namespace Store

def empty : Store := ⟨[], List.Pairwise.nil⟩

instance : Inhabited Store := ⟨empty⟩

instance : DecidableEq Store := fun a b =>
  decidable_of_iff (a.records = b.records) ⟨fun same => by cases a; cases b; cases same; rfl,
    fun same => same ▸ rfl⟩

def size (store : Store) : Nat := store.records.length

def isEmpty (store : Store) : Bool := store.records.isEmpty

def get? (store : Store) (name : String) : Option Record := Records.find? name store.records

def contains (store : Store) (name : String) : Bool := (store.get? name).isSome

/-- Adds a record to what is known about its class, whatever its layout. -/
def absorb (store : Store) (record : Record) : Store :=
  ⟨Records.upsert Record.add record store.records,
    Records.increasing_upsert (fun _ same => same) store.increasing⟩

/-- Puts a record in the place of any other for its class. -/
def replace (store : Store) (record : Record) : Store :=
  ⟨Records.upsert (fun _ new => new) record store.records,
    Records.increasing_upsert (fun _ _ => rfl) store.increasing⟩

/-- Of several records for one class the last counts. -/
def ofList (records : List Record) : Store := records.foldl replace empty

def conflict? (store : Store) (record : Record) : Option Conflict :=
  ((store.get? record.name).bind fun ours => ours.mismatch? record).map fun mismatch =>
    { className := record.name, mismatch := mismatch }

def insert (store : Store) (record : Record) : Except Conflict Store :=
  match store.conflict? record with
  | some conflict => .error conflict
  | none => .ok (store.absorb record)

/-- Every shared class is compared before anything is added. -/
def merge (ours theirs : Store) : Except Conflict Store :=
  match theirs.records.findSome? ours.conflict? with
  | some conflict => .error conflict
  | none => .ok (theirs.records.foldl absorb ours)

/-- Adds up stores from the left. A store added to nothing is taken as it is. -/
def fold (stores : List Store) : Except Conflict Store :=
  stores.foldlM (fun sum store => if sum.isEmpty then .ok store else sum.merge store) empty

def linesCovered (store : Store) : Nat := (store.records.map Record.linesCovered).sum

def totalLines (store : Store) : Nat := (store.records.map fun record => record.lines.length).sum

def branchesCovered (store : Store) : Nat := (store.records.map Record.branchesCovered).sum

def totalBranches (store : Store) : Nat :=
  (store.records.map fun record => record.branches.length).sum

theorem get?_absorb (store : Store) (record : Record) (name : String) :
    (store.absorb record).get? name =
      if name = record.name then
        some (((store.get? record.name).map (Record.add · record)).getD record)
      else store.get? name :=
  Records.find?_upsert (fun _ same => same) store.increasing name

theorem get?_replace (store : Store) (record : Record) (name : String) :
    (store.replace record).get? name = if name = record.name then some record
    else store.get? name := by
  have found := @Records.find?_upsert (fun _ new => new) record (fun _ _ => rfl) store.records
    store.increasing name
  rw [show (store.replace record).get? name = _ from found]
  congr 1
  cases Records.find? record.name store.records <;> rfl

theorem name_of_get? {store : Store} {name : String} {record : Record}
    (found : store.get? name = some record) : record.name = name := by
  simpa using List.find?_some found

end Store

/-- Where there is nothing to cover, everything is covered. -/
def ratio (covered total : Nat) : Float :=
  if total = 0 then 1.0 else covered.toFloat / total.toFloat

/-- Rounds a share to a whole percentage between 0 and 100, halves upwards. What is not a number
counts as 0. -/
def percent (rate : Float) : Nat :=
  let hundredths := (rate * 100.0).round
  if 100.0 ≤ hundredths then 100 else if 0.0 < hundredths then hundredths.toUInt32.toNat else 0

def Record.lineRate (record : Record) : Float := ratio record.linesCovered record.lines.length

def Record.branchRate (record : Record) : Float :=
  ratio record.branchesCovered record.branches.length

def Store.lineRate (store : Store) : Float := ratio store.linesCovered store.totalLines

def Store.branchRate (store : Store) : Float := ratio store.branchesCovered store.totalBranches

end ClassCoverage
