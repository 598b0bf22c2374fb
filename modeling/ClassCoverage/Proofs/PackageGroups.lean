import ClassCoverage.Proofs.FreshSummaries
import ClassCoverage.Proofs.ShownCounts
import ClassCoverage.Proofs.StoreTotals

/-! What a report shows of a store. Every class is summarized once, with whatever source was found
for it, and stands in the group of its package. -/
namespace ClassCoverage.Report

theorem mem_insertText_iff {text other : String} {texts : List String} :
    other ∈ insertText text texts ↔ other = text ∨ other ∈ texts := by
  induction texts with
  | nil => simp [insertText]
  | cons first rest ih =>
    simp only [insertText]
    split
    · simp
    · split
      · rename_i same
        simp [same]
      · simp only [List.mem_cons, ih]
        exact or_left_comm

private theorem increasing_insertText {text : String} {texts : List String}
    (increasing : texts.Pairwise (· < ·)) :
    (insertText text texts).Pairwise (· < ·) := by
  induction texts with
  | nil => simp [insertText]
  | cons first rest ih =>
    obtain ⟨least, sorted⟩ := List.pairwise_cons.mp increasing
    simp only [insertText]
    split
    · rename_i smaller
      exact List.pairwise_cons.mpr ⟨Listing.least_cons smaller least, increasing⟩
    · rename_i notSmaller
      split
      · exact increasing
      · rename_i different
        refine List.pairwise_cons.mpr ⟨fun other member => ?_, ih sorted⟩
        rcases mem_insertText_iff.mp member with rfl | old
        · exact Std.lt_of_le_of_ne (Std.not_lt.mp notSmaller) (Ne.symm different)
        · exact least other old

private theorem mem_distinct_iff {text : String} {texts : List String} :
    text ∈ distinct texts ↔ text ∈ texts := by
  induction texts with
  | nil => rfl
  | cons first rest ih =>
    rw [distinct, List.foldr_cons, mem_insertText_iff, List.mem_cons]
    exact or_congr_right ih

theorem increasing_distinct (texts : List String) : (distinct texts).Pairwise (· < ·) := by
  induction texts with
  | nil => exact .nil
  | cons first rest ih => exact increasing_insertText ih

private theorem nodup_distinct (texts : List String) : (distinct texts).Nodup := by
  refine (increasing_distinct texts).imp ?_
  rintro text _ less rfl
  exact String.lt_irrefl text less

section
variable {α : Type} {keys : List String}

/-- The groups of different keys have all items of these keys, each of them once. -/
theorem perm_groups (key : α → String) (different : keys.Nodup) (items : List α) :
    (keys.flatMap fun chosen => items.filter fun item => key item = chosen).Perm
      (items.filter fun item => key item ∈ keys) := by
  induction keys with
  | nil => simp
  | cons chosen keys ih =>
    obtain ⟨fresh, different⟩ := List.nodup_cons.mp different
    have both := List.filter_append_perm (fun item => decide (key item = chosen))
      (items.filter fun item => key item ∈ chosen :: keys)
    have own : (items.filter fun item => key item ∈ chosen :: keys).filter (fun item =>
        key item = chosen) =
        items.filter fun item => key item = chosen := by
      rw [List.filter_filter]
      refine List.filter_congr fun item _ => ?_
      by_cases same : key item = chosen <;> simp [same]
    have others :
        (items.filter fun item => key item ∈ chosen :: keys).filter (fun item =>
        !decide (key item = chosen)) =
        items.filter fun item => key item ∈ keys := by
      rw [List.filter_filter]
      refine List.filter_congr fun item _ => ?_
      by_cases same : key item = chosen <;> simp [same, fresh]
    rw [own, others] at both
    rw [List.flatMap_cons]
    exact (List.Perm.append_left _ (ih different)).trans both

end

def ClassSummary.counts (summary : ClassSummary) : Counts :=
  ⟨summary.linesCovered, summary.linesValid, summary.branchesCovered, summary.branchesValid⟩

/-- What is found for a record: its source file, and what is known of that. -/
abbrev Finding := Record → Option SourceLocation × Option SourceStats

def Finding.summary (finding : Finding) (record : Record) : ClassSummary :=
  .ofRecord record (finding record).1 (finding record).2

/-- The context of a store for which these source files were found. -/
def Context.ofFinding (store : Store) (finding : Finding) (encoding : String)
    (moment : Moment) : Context :=
  { store := store, classes := store.records.map finding.summary, encoding := encoding,
    generatedAt := moment }

/-- What a lookup finds for a record, if this is known of the source files. -/
def Finding.of (lookup : SourceLookup) (disk : Disk)
    (stats : Record → Option SourceStats) : Finding :=
  fun record => (lookup.resolveRecord disk record, stats record)

/-- Whatever a lookup finds on a disk, every record of the store is summarized once, in name
order. -/
theorem summarize_eq (store : Store) (lookup : SourceLookup) (disk : Disk) :
    ∃ stats, summarize store lookup disk =
      store.records.map (Finding.of lookup disk stats).summary := by
  refine ⟨fun record => (lookup.resolveRecord disk record).bind fun location =>
    statsOf (disk.read location.path), ?_⟩
  rw [summarize_afresh]
  rfl

/-- The packages of the classes of a store, in byte order. -/
def packageNames (store : Store) : List String := distinct (store.records.map Record.packageName)

/-- The records of the classes of a package, in name order. -/
def recordsIn (store : Store) (package : String) : List Record :=
  store.records.filter fun record => record.packageName = package

theorem mem_packageNames_iff {store : Store} {package : String} :
    package ∈ packageNames store ↔ ∃ record ∈ store.records, record.packageName = package := by
  rw [packageNames, mem_distinct_iff, List.mem_map]

theorem packageNames_increasing (store : Store) :
    (packageNames store).Pairwise fun one other =>
    Utf8.encode one.toList < Utf8.encode other.toList :=
  (increasing_distinct _).imp Utf8.encode_lt_encode

/-- Every record is in the group of one package. -/
theorem perm_recordsIn (store : Store) :
    ((packageNames store).flatMap (recordsIn store)).Perm store.records := by
  have groups :=
    perm_groups Record.packageName (nodup_distinct (store.records.map Record.packageName))
    store.records
  have all : (store.records.filter fun record =>
      record.packageName ∈ packageNames store) = store.records := by
    refine List.filter_eq_self.mpr fun record member => ?_
    simpa using mem_packageNames_iff.mpr ⟨record, member, rfl⟩
  rw [packageNames] at all
  rw [all] at groups
  exact groups

theorem packages_ofFinding (store : Store) (finding : Finding) (encoding : String)
    (moment : Moment) :
    (Context.ofFinding store finding encoding moment).packages =
      (packageNames store).map fun package =>
      (package, (recordsIn store package).map finding.summary) := by
  unfold Context.packages packageNames recordsIn
  simp only [Context.ofFinding, List.map_map, List.filter_map]
  rfl

end ClassCoverage.Report
