import ClassCoverage.Check
import ClassCoverage.Proofs.AggregateRuns
import ClassCoverage.Proofs.StoreTotals

/-! What a check says. It depends on the set of the files that are there: their order, files that
are named again and files that are missing change hit counts at most, and of those only which are
zero is looked at. -/
namespace ClassCoverage

namespace Record

/-- The same counters, of which the same have counted anything. -/
structure AlikeCovered (a b : Record) : Prop where
  layout : a.SameLayout b
  hits : ∀ index, 0 < a.hitsAt index ↔ 0 < b.hitsAt index
  taken : ∀ index, a.takenAt index = b.takenAt index

private theorem map_covered_getElem? (record : Record) (index : Nat) :
    (record.lines.map LineCounter.covered)[index]? =
      if index < record.lines.length then some (decide (0 < record.hitsAt index)) else none := by
  rw [List.getElem?_map]
  by_cases inside : index < record.lines.length
  · simp only [inside, ↓reduceIte, hitsAt, List.getElem?_eq_getElem inside,
      Option.map_some, Option.getD_some,
      LineCounter.covered, UInt64.lt_iff_toNat_lt, UInt64.toNat_zero]
  · rw [if_neg inside, List.getElem?_eq_none (Nat.le_of_not_lt inside), Option.map_none]

private theorem map_taken_getElem? (record : Record) (index : Nat) :
    (record.branches.map BranchCounter.taken)[index]? =
      if index < record.branches.length then some (record.takenAt index) else none := by
  rw [List.getElem?_map]
  by_cases inside : index < record.branches.length
  · simp only [inside, ↓reduceIte, takenAt, List.getElem?_eq_getElem inside,
      Option.map_some, Option.getD_some]
  · rw [if_neg inside, List.getElem?_eq_none (Nat.le_of_not_lt inside), Option.map_none]

namespace AlikeCovered
variable {a b : Record}

theorem length_lines (alike : a.AlikeCovered b) : a.lines.length = b.lines.length := by
  simpa [lineNumbers] using congrArg List.length alike.layout.1

theorem length_branches (alike : a.AlikeCovered b) : a.branches.length = b.branches.length := by
  simpa [sites] using congrArg List.length alike.layout.2

private theorem linesCovered (alike : a.AlikeCovered b) : a.linesCovered = b.linesCovered := by
  have same : a.lines.map LineCounter.covered = b.lines.map LineCounter.covered := by
    apply List.ext_getElem?
    intro index
    simp only [map_covered_getElem?, alike.length_lines, alike.hits index]
  have counted := congrArg (List.countP id) same
  rwa [List.countP_map, List.countP_map] at counted

private theorem branchesCovered (alike : a.AlikeCovered b) :
    a.branchesCovered = b.branchesCovered := by
  have same : a.branches.map BranchCounter.taken = b.branches.map BranchCounter.taken := by
    apply List.ext_getElem?
    intro index
    simp only [map_taken_getElem?, alike.length_branches, alike.taken index]
  have counted := congrArg (List.countP id) same
  rwa [List.countP_map, List.countP_map] at counted

end AlikeCovered

/-- Something was hit exactly when it was hit in one of the parts. -/
theorem SumOf.hit_iff {parts : List Record} {whole : Record} (sum : SumOf parts whole)
    (index : Nat) :
    0 < whole.hitsAt index ↔ ∃ part ∈ parts, 0 < part.hitsAt index := by
  have positive : 0 < (parts.map (·.hitsAt index)).sum ↔ ∃ part ∈ parts, 0 < part.hitsAt index := by
    simp only [List.sum_pos_iff_exists_pos_nat, List.mem_map, exists_exists_and_eq_and]
  rw [sum.hits index, ← positive]
  omega

/-- How often a part is added does not matter. -/
theorem SumOf.alikeCovered {parts parts' : List Record} {whole whole' : Record}
    (sum : SumOf parts whole) (sum' : SumOf parts' whole')
    (same : ∀ part, part ∈ parts ↔ part ∈ parts') (some : parts ≠ []) :
    whole.AlikeCovered whole' where
  layout := by
    obtain ⟨part, member⟩ := List.exists_mem_of_ne_nil parts some
    exact (sum.layout part member).trans (sum'.layout part ((same part).mp member)).symm
  hits index := by
    rw [sum.hit_iff, sum'.hit_iff]
    simp only [same]
  taken index := by
    rw [sum.taken, sum'.taken, Bool.eq_iff_iff, List.any_eq_true, List.any_eq_true]
    simp only [same]

end Record

namespace Store

/-- The same classes, alike covered. -/
def AlikeCovered (a b : Store) :
    Prop := ∀ name, Option.Rel Record.AlikeCovered (a.get? name) (b.get? name)

private theorem map_records (store : Store) (count : Record → Nat) :
    store.records.map count = store.names.map fun name => ((store.get? name).map count).getD 0 := by
  rw [names, List.map_map]
  apply List.map_congr_left
  intro record member
  simp only [Function.comp_apply, get?_of_mem member, Option.map_some, Option.getD_some]

namespace AlikeCovered
variable {a b : Store}

theorem names (alike : a.AlikeCovered b) : a.names = b.names := by
  have members (name : String) : name ∈ a.names ↔ name ∈ b.names := by
    rw [mem_names_iff, mem_names_iff]
    have own := alike name
    generalize a.get? name = ours at own ⊢
    generalize b.get? name = theirs at own ⊢
    cases own <;> simp
  have order := (List.perm_ext_iff_of_nodup (nodup_names a) (nodup_names b)).mpr members
  apply order.eq_of_pairwise _ (List.pairwise_map.mpr a.increasing)
    (List.pairwise_map.mpr b.increasing)
  intro one other _ _ less greater
  exact absurd less (String.lt_asymm greater)

theorem sum_eq (alike : a.AlikeCovered b) {count : Record → Nat}
    (same : ∀ {one other : Record}, one.AlikeCovered other → count one = count other) :
    (a.records.map count).sum = (b.records.map count).sum := by
  rw [map_records, map_records, alike.names]
  congr 2
  funext name
  have own := alike name
  generalize a.get? name = ours at own ⊢
  generalize b.get? name = theirs at own ⊢
  cases own with
  | none => rfl
  | some own => exact same own

private theorem isEmpty (alike : a.AlikeCovered b) : a.isEmpty = b.isEmpty := by
  have sized : a.records.length = b.records.length := by
    simpa [Store.names] using congrArg List.length alike.names
  rw [Store.isEmpty, Store.isEmpty, Bool.eq_iff_iff, List.isEmpty_iff_length_eq_zero,
    List.isEmpty_iff_length_eq_zero, sized]

private theorem lineRate (alike : a.AlikeCovered b) : a.lineRate = b.lineRate := by
  have covered : a.linesCovered = b.linesCovered := alike.sum_eq Record.AlikeCovered.linesCovered
  have total : a.totalLines = b.totalLines := alike.sum_eq Record.AlikeCovered.length_lines
  rw [Store.lineRate, Store.lineRate, covered, total]

private theorem branchRate (alike : a.AlikeCovered b) : a.branchRate = b.branchRate := by
  have covered : a.branchesCovered = b.branchesCovered :=
    alike.sum_eq Record.AlikeCovered.branchesCovered
  have total : a.totalBranches = b.totalBranches := alike.sum_eq Record.AlikeCovered.length_branches
  rw [Store.branchRate, Store.branchRate, covered, total]

end AlikeCovered

/-- Sums of the same stores are alike covered, however often a store is added. -/
theorem alikeCovered_total {stores others : List Store} (compatible : AllCompatible stores)
    (same : ∀ store, store ∈ stores ↔ store ∈ others) :
    (total stores).AlikeCovered (total others) := by
  have compatible' : AllCompatible others := by
    rw [allCompatible_iff] at compatible ⊢
    intro one member other member'
    exact compatible one ((same one).mpr member) other ((same other).mpr member')
  intro name
  have holders (record : Record) : record ∈ held stores name ↔ record ∈ held others name := by
    simp only [held, List.mem_filterMap, same]
  rw [get?_total, get?_total]
  cases ours : held stores name with
  | nil =>
    have none : held others name = [] := by
      apply List.eq_nil_iff_forall_not_mem.mpr
      intro record member
      have impossible := (holders record).mpr member
      rw [ours] at impossible
      cases impossible
    rw [none]
    exact .none
  | cons first rest =>
    have some : held others name ≠ [] := by
      intro none
      have member := (holders first).mp (ours ▸ List.mem_cons_self ..)
      rw [none] at member
      cases member
    obtain ⟨whole', summed'⟩ : ∃ whole, Record.sum? (held others name) = .some whole := by
      cases theirs : held others name with
      | nil => exact absurd theirs some
      | cons first rest => exact ⟨_, rfl⟩
    have sum : Record.SumOf (held stores name) (rest.foldl Record.add first) :=
      Record.sumOf_of_sum? (fun one member other member' =>
        sameLayout_of_held compatible member member')
        (by rw [ours]; rfl)
    have sum' := Record.sumOf_of_sum?
      (fun one member other member' => sameLayout_of_held compatible' member member') summed'
    rw [summed']
    exact .some (sum.alikeCovered sum' holders (by rw [ours]; exact List.cons_ne_nil first rest))

end Store

namespace Metadata
open ClassCoverage.Aggregate (storesAt)

/-- Only what is there counts, not how often it is named. -/
theorem addable_congr {disk : Disk} {places places' : List Place}
    (same : ∀ place, place ∈ places ↔ place ∈ places') :
    Addable disk .empty places ↔ Addable disk .empty places' := by
  unfold Addable
  rw [Store.allCompatible_empty_iff, Store.allCompatible_empty_iff, Store.allCompatible_iff,
    Store.allCompatible_iff]
  simp only [storesAt, List.mem_filterMap, same]

end Metadata

namespace Check

def Options.files (options : Options) : List Path := options.metadataFile :: options.dataFiles

/-- Two runs that tell the same: both cannot read or add up the files, or both have one answer. -/
inductive Alike : Except Failure Outcome → Except Failure Outcome → Prop where
  | unreadable {one other : Failure} (ours : one.isOfData = true) (theirs : other.isOfData = true) :
      Alike (.error one) (.error other)
  | refused {failure : Failure} {metric : String} {minimum : UInt8}
      (above : excess? metric (some minimum) = some failure) :
      Alike (.error failure) (.error failure)
  | skipped : Alike (.ok .skipped) (.ok .skipped)
  | passed (line branch : Nat) : Alike (.ok (.passed line branch)) (.ok (.passed line branch))
  | short (metric : String) (expected actual : Nat) :
      Alike (.error (.threshold metric expected actual))
        (.error (.threshold metric expected actual))

private theorem excess_of_refused {minimums : Minimums} {failure : Failure}
    (refused : (excess? "line" minimums.line).or
      (excess? "branch" minimums.branch) = some failure) :
    ∃ metric minimum, excess? metric (some minimum) = some failure := by
  rcases Option.or_eq_some_iff.mp refused with line | ⟨-, branch⟩
  · cases given : minimums.line with
    | none => simp [given, excess?] at line
    | some minimum => exact ⟨"line", minimum, given ▸ line⟩
  · cases given : minimums.branch with
    | none => simp [given, excess?] at branch
    | some minimum => exact ⟨"branch", minimum, given ▸ branch⟩

private theorem threshold_of_shortfall {metric : String} {minimum : Option UInt8} {actual : Nat}
    {failure : Failure} (short : shortfall? metric minimum actual = some failure) :
    ∃ expected, failure = .threshold metric expected actual := by
  unfold shortfall? at short
  obtain ⟨minimum, -, below⟩ := Option.bind_eq_some_iff.mp short
  split at below
  · cases below
    exact ⟨_, rfl⟩
  · cases below

/-- A store is compared by its two rates alone. -/
theorem checkStore_congr {a b : Store} (alike : a.AlikeCovered b) (minimums : Minimums) :
    checkStore a minimums = checkStore b minimums := by
  unfold checkStore
  rw [alike.lineRate, alike.branchRate]

private theorem alike_checkStore (store : Store) (minimums : Minimums) :
    Alike (checkStore store minimums) (checkStore store minimums) := by
  unfold checkStore
  simp only
  split
  · rename_i failure short
    rcases Option.or_eq_some_iff.mp short with line | ⟨-, branch⟩
    · obtain ⟨expected, rfl⟩ := threshold_of_shortfall line
      exact .short _ _ _
    · obtain ⟨expected, rfl⟩ := threshold_of_shortfall branch
      exact .short _ _ _
  · exact .passed _ _

/-- What is answered to the sum of the files. -/
def verdict (minimums : Minimums) (store : Store) : Except Failure Outcome :=
  if store.isEmpty then .ok .skipped else checkStore store minimums

private theorem alike_verdict {a b : Store} (alike : a.AlikeCovered b) (minimums : Minimums) :
    Alike (verdict minimums a) (verdict minimums b) := by
  unfold verdict
  rw [alike.isEmpty, checkStore_congr alike]
  split
  · exact .skipped
  · exact alike_checkStore b minimums

private theorem run_of_refused {options : Options} {failure : Failure}
    (refused : (excess? "line" options.minimums.line).or
      (excess? "branch" options.minimums.branch) = some failure) (disk : Disk) :
    (run options).run.run disk = (.error failure, disk) := by
  unfold run
  rw [refused]
  rfl

private theorem run_of_allowed {options : Options} {disk : Disk} {answer : Except Failure Store}
    (allowed : (excess? "line" options.minimums.line).or
      (excess? "branch" options.minimums.branch) = none)
    (merged : (Metadata.mergeFiles options.files).run.run disk = (answer, disk)) :
    (run options).run.run disk = (answer.bind (verdict options.minimums), disk) := by
  unfold run
  rw [allowed]
  simp only
  rw [Steps.run_bind, ← Options.files, merged]
  cases answer with
  | error failure => rfl
  | ok store =>
    simp only [Except.bind, verdict]
    split
    · rfl
    · cases checkStore store options.minimums <;> rfl

/-- Checks with the same minimums tell the same if the same files are there under their paths.
Neither order nor repetition matters, a file may be named by several paths, and paths that lead
nowhere do not count. -/
theorem run_depends_on_files {disk : Disk} {one other : Options}
    (minimums : one.minimums = other.minimums)
    (same : ∀ place, place ∈ Metadata.named disk one.files ↔
      place ∈ Metadata.named disk other.files) :
    ∃ answer answer', (run one).run.run disk = (answer, disk) ∧
      (run other).run.run disk = (answer', disk) ∧
      Alike answer answer' := by
  cases limits : (excess? "line" one.minimums.line).or (excess? "branch" one.minimums.branch) with
  | some failure =>
    obtain ⟨metric, minimum, above⟩ := excess_of_refused limits
    exact ⟨_, _, run_of_refused limits disk,
      run_of_refused (minimums ▸ limits) disk, .refused above⟩
  | none =>
    have stores (store : Store) : store ∈ Aggregate.storesAt disk (Metadata.named disk one.files) ↔
        store ∈ Aggregate.storesAt disk (Metadata.named disk other.files) := by
      simp only [Aggregate.storesAt, List.mem_filterMap, same]
    have both : Metadata.Addable disk .empty _ ↔ Metadata.Addable disk .empty _ :=
      Metadata.addable_congr same
    obtain ⟨adds, fails⟩ := Metadata.run_foldlM_addFile_named disk one.files .empty
    obtain ⟨adds', fails'⟩ := Metadata.run_foldlM_addFile_named disk other.files .empty
    by_cases fine : Metadata.Addable disk .empty (Metadata.named disk one.files)
    · have compatible := Store.allCompatible_empty_iff.mp fine.2
      refine ⟨_, _, run_of_allowed limits (adds fine),
        run_of_allowed (minimums ▸ limits) (adds' (both.mp fine)), ?_⟩
      rw [← minimums]
      exact alike_verdict (Store.alikeCovered_total compatible stores) one.minimums
    · obtain ⟨failure, failed, ofData⟩ := fails fine
      obtain ⟨failure', failed', ofData'⟩ := fails' (fine ∘ both.mpr)
      exact ⟨_, _, run_of_allowed limits failed, run_of_allowed (minimums ▸ limits) failed',
        .unreadable ofData ofData'⟩

/-! Two files of one class, of which each has hit another line. -/

private def upper : Store := .single ⟨"A", none, [⟨1, 18446744073709551615⟩, ⟨2, 0⟩], []⟩

private def lower : Store := .single ⟨"A", none, [⟨1, 0⟩, ⟨2, 1⟩], []⟩

private def halves : Disk where
  root := .file "a.dat" (Metadata.encode upper) (.file "b.dat" (Metadata.encode lower) .empty)
  ordered := ⟨by decide, by decide, trivial⟩
  workPlace := []

private def once :
    Options := { metadataFile := ⟨"a.dat"⟩, dataFiles := [⟨"b.dat"⟩], minimums := ⟨some 80, none⟩ }

private def oftener : Options where
  metadataFile := ⟨"b.dat"⟩
  dataFiles := [⟨"gone/c.dat"⟩, ⟨"./a.dat"⟩, ⟨"b.dat"⟩, ⟨"a.dat"⟩]
  minimums := ⟨some 80, none⟩

theorem run_depends_on_files_of_halves :
    (Metadata.named halves once.files).length = 2 ∧
    (Metadata.named halves oftener.files).length = 4 ∧
      ∃ answer answer', (run once).run.run halves = (answer, halves) ∧
        (run oftener).run.run halves = (answer', halves) ∧
        Alike answer answer' := by
  have first : Metadata.named halves once.files = [["a.dat"], ["b.dat"]] := by decide +kernel
  have second : Metadata.named halves oftener.files = [["b.dat"], ["a.dat"],
      ["b.dat"], ["a.dat"]] := by
    decide +kernel
  refine ⟨by rw [first]; rfl, by rw [second]; rfl, run_depends_on_files rfl fun place => ?_⟩
  rw [first, second]
  simp only [List.mem_cons, List.not_mem_nil, or_false]
  constructor
  · rintro (rfl | rfl)
    · exact .inr (.inl rfl)
    · exact .inl rfl
  · rintro (rfl | rfl | rfl | rfl)
    · exact .inr rfl
    · exact .inl rfl
    · exact .inr rfl
    · exact .inl rfl

end Check

end ClassCoverage
