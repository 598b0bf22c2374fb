import ClassCoverage.Proofs.MetadataSave
import ClassCoverage.Proofs.StoreSums
import ClassCoverage.Proofs.TextOrder

/-! What several stores add up to. The result is given class by class, by the records that the
stores hold for it, so neither the order nor empty stores nor missing files can show. -/
namespace ClassCoverage

namespace Record

/-- The hits of a line counter, or none where there is no counter. -/
def hitsAt (record : Record) (index : Nat) : Nat :=
  ((record.lines[index]?).map fun counter => counter.hits.toNat).getD 0

def takenAt (record : Record) (index : Nat) :
    Bool := ((record.branches[index]?).map BranchCounter.taken).getD false

/-- The least of the file names in the order of their bytes, or nothing if there are none. -/
def LeastHint (hints : List String) : Option String → Prop
  | none => hints = []
  | some hint => hint ∈ hints ∧ ∀ other ∈ hints, Utf8.encode hint.toList ≤ Utf8.encode other.toList

/-- A record that says what the others say together. -/
structure SumOf (parts : List Record) (whole : Record) : Prop where
  layout : ∀ part ∈ parts, whole.SameLayout part
  hits : ∀ index, whole.hitsAt index = min (2 ^ (64 : Nat) - 1) (parts.map (·.hitsAt index)).sum
  taken : ∀ index, whole.takenAt index = parts.any (·.takenAt index)
  hint : LeastHint (parts.filterMap Record.sourceFile) whole.sourceFile

private theorem hitsAt_lt (record : Record) (index : Nat) :
    record.hitsAt index < 2 ^ (64 : Nat) := by
  unfold hitsAt
  cases record.lines[index]? with
  | none => decide
  | some counter => exact counter.hits.toNat_lt

/-- Lists of one length have something at the same places. -/
private theorem getElem?_pair {α β : Type} {one : List α} {other : List β}
    (sized : one.length = other.length) (index : Nat) :
    (∃ left right, one[index]? = some left ∧ other[index]? = some right) ∨
      (one[index]? = none ∧ other[index]? = none) := by
  by_cases inside : index < one.length
  · exact .inl ⟨_, _, List.getElem?_eq_getElem inside, List.getElem?_eq_getElem (sized ▸ inside)⟩
  · have outside := Nat.le_of_not_lt inside
    exact .inr ⟨List.getElem?_eq_none outside, List.getElem?_eq_none (sized ▸ outside)⟩

private theorem hitsAt_add {a b : Record} (same : a.SameLayout b) (index : Nat) :
    (a.add b).hitsAt index = min (2 ^ (64 : Nat) - 1) (a.hitsAt index + b.hitsAt index) := by
  have sized : a.lines.length = b.lines.length := by
    simpa [lineNumbers] using congrArg List.length same.1
  unfold hitsAt add
  rw [List.getElem?_zipWith]
  rcases getElem?_pair sized index with ⟨left, right, here, here'⟩ | ⟨none, none'⟩
  · simp only [here, here', Option.map_some, Option.getD_some, LineCounter.add, toNat_saturatingAdd]
    exact Nat.min_comm ..
  · simp [none, none']

private theorem takenAt_add {a b : Record} (same : a.SameLayout b) (index : Nat) :
    (a.add b).takenAt index = (a.takenAt index || b.takenAt index) := by
  have sized : a.branches.length = b.branches.length := by
    simpa [sites] using congrArg List.length same.2
  unfold takenAt add
  rw [List.getElem?_zipWith]
  rcases getElem?_pair sized index with ⟨left, right, here, here'⟩ | ⟨none, none'⟩
  · simp [here, here', BranchCounter.add]
  · simp [none, none']

theorem leastHint_smallerHint {hints : List String} {hint : Option String}
    (least : LeastHint hints hint) (next : Option String) :
    LeastHint (hints ++ next.toList) (smallerHint hint next) := by
  cases hint with
  | none =>
    cases least
    cases next with
    | none => rfl
    | some theirs =>
      refine ⟨List.mem_singleton_self theirs, fun other member => ?_⟩
      rw [List.mem_singleton.mp member]
      exact Std.le_refl _
  | some ours =>
    obtain ⟨held, below⟩ := least
    cases next with
    | none => exact (List.append_nil hints).symm ▸ ⟨held, below⟩
    | some theirs =>
      rw [Option.toList_some]
      by_cases less : theirs < ours
      · have under := Utf8.encode_le_encode (String.lt_asymm less)
        simp only [smallerHint, if_pos less]
        refine ⟨List.mem_append_right _ (List.mem_singleton_self theirs), fun other member => ?_⟩
        rcases List.mem_append.mp member with before | last
        · exact Std.le_trans under (below other before)
        · rw [List.mem_singleton.mp last]
          exact Std.le_refl _
      · simp only [smallerHint, if_neg less]
        refine ⟨List.mem_append_left _ held, fun other member => ?_⟩
        rcases List.mem_append.mp member with before | last
        · exact below other before
        · rw [List.mem_singleton.mp last]
          exact Utf8.encode_le_encode less

private theorem sumOf_singleton (record : Record) : SumOf [record] record where
  layout := fun part member => List.mem_singleton.mp member ▸ SameLayout.refl record
  hits := by
    intro index
    have small := record.hitsAt_lt index
    simp only [List.map_cons, List.map_nil, List.sum_cons, List.sum_nil]
    omega
  taken := by simp
  hint := by
    have nothing : LeastHint [] none := rfl
    have first := leastHint_smallerHint nothing record.sourceFile
    have same : smallerHint none record.sourceFile = record.sourceFile := rfl
    rw [same] at first
    cases held : record.sourceFile <;> simpa [held] using first

/-- One more record on top of a sum. -/
theorem SumOf.snoc {parts : List Record} {whole record : Record} (sum : SumOf parts whole)
    (same : whole.SameLayout record) : SumOf (parts ++ [record]) (whole.add record) where
  layout := by
    intro part member
    refine (sameLayout_add_left same).mpr ?_
    rcases List.mem_append.mp member with before | last
    · exact sum.layout part before
    · rw [List.mem_singleton.mp last]
      exact same
  hits := by
    intro index
    rw [hitsAt_add same, sum.hits index, List.map_append, List.sum_append]
    simp only [List.map_cons, List.map_nil, List.sum_cons, List.sum_nil]
    omega
  taken := by
    intro index
    rw [takenAt_add same, sum.taken index]
    simp
  hint := by
    have next := leastHint_smallerHint sum.hint record.sourceFile
    have parted : (parts ++ [record]).filterMap Record.sourceFile =
        parts.filterMap Record.sourceFile ++ record.sourceFile.toList := by
      rw [List.filterMap_append]
      cases held : record.sourceFile <;> simp [held]
    rw [parted]
    exact next

/-- The sum of records from the left, if there are any. -/
def sum? : List Record → Option Record
  | [] => none
  | first :: rest => some (rest.foldl add first)

theorem SumOf.foldl {parts rest : List Record} {whole : Record} (sum : SumOf parts whole)
    (same : ∀ record ∈ rest, whole.SameLayout record) :
    SumOf (parts ++ rest) (rest.foldl add whole) := by
  induction rest generalizing parts whole with
  | nil => rwa [List.append_nil]
  | cons record rest ih =>
    have first := same record (List.mem_cons_self ..)
    have next := ih (sum.snoc first) fun other member =>
      (sameLayout_add_left first).mpr (same other (List.mem_cons_of_mem record member))
    rwa [List.append_assoc] at next

theorem sumOf_of_sum? {records : List Record} {whole : Record}
    (same : ∀ one ∈ records, ∀ other ∈ records, one.SameLayout other)
    (summed : sum? records = some whole) :
    SumOf records whole := by
  cases records with
  | nil => cases summed
  | cons first rest =>
    cases summed
    exact (sumOf_singleton first).foldl fun record member =>
      same first (List.mem_cons_self ..) record (List.mem_cons_of_mem first member)

end Record

namespace Store

/-- The records that stores hold for a class. -/
def held (stores : List Store) (name : String) : List Record := stores.filterMap (·.get? name)

private theorem get?_foldl_sum {stores : List Store} {start : Store} {name : String} :
    (stores.foldl sum start).get? name =
      Record.sum? ((start.get? name).toList ++ held stores name) := by
  induction stores generalizing start with
  | nil => cases found : start.get? name <;> simp [held, found, Record.sum?]
  | cons store stores ih =>
    rw [List.foldl_cons, ih, get?_sum]
    cases start.get? name <;> cases found : store.get? name <;> simp [held, found, Record.sum?]

theorem get?_total (stores : List Store) (name : String) :
    (total stores).get? name = Record.sum? (held stores name) :=
  get?_foldl_sum

theorem allCompatible_iff {stores : List Store} :
    AllCompatible stores ↔ ∀ one ∈ stores, ∀ other ∈ stores, Compatible one other := by
  have symmetric : Std.Symm Compatible := ⟨fun _ _ => Compatible.symm⟩
  constructor
  · intro compatible one member other member'
    exact List.Pairwise.forall_of_forall (fun store _ =>
      compatible_self store) compatible member member'
  · intro compatible
    exact List.pairwise_of_forall_mem_list compatible

theorem fold_eq_ok_iff {stores : List Store} {whole : Store} :
    fold stores = .ok whole ↔ AllCompatible stores ∧ whole = total stores := by
  rw [fold_eq, foldlM_merge_eq_ok_iff, allCompatible_empty_iff]
  rfl

/-- The records for one class in stores that do not clash have one layout. -/
theorem sameLayout_of_held {stores : List Store} (compatible : AllCompatible stores) {name : String}
    {one other : Record} (member : one ∈ held stores name) (member' : other ∈ held stores name) :
    one.SameLayout other := by
  obtain ⟨ours, own, found⟩ := List.mem_filterMap.mp member
  obtain ⟨theirs, own', found'⟩ := List.mem_filterMap.mp member'
  exact (allCompatible_iff.mp compatible ours own theirs own').sameLayout found found'

def filled (stores : List Store) : List Store := stores.filter fun store => !store.isEmpty

theorem merge_empty (store : Store) : store.merge empty = .ok store :=
  merge_of_compatible (compatible_empty store).symm

/-- Empty stores change nothing, wherever they are. -/
theorem fold_filled (stores : List Store) : fold (filled stores) = fold stores := by
  rw [fold_eq, fold_eq]
  generalize empty = start
  induction stores generalizing start with
  | nil => rfl
  | cons store stores ih =>
    cases none : store.isEmpty with
    | false =>
      have kept : filled (store :: stores) = store :: filled stores := by simp [filled, none]
      rw [kept, List.foldlM_cons, List.foldlM_cons]
      congr 1
      funext sum
      exact ih sum
    | true =>
      have dropped : filled (store :: stores) = filled stores := by simp [filled, none]
      rw [dropped, ih, List.foldlM_cons, eq_empty_of_isEmpty none, merge_empty]
      rfl

theorem fold_of_empty {stores : List Store} (none : ∀ store ∈ stores, store = empty) :
    fold stores = .ok empty := by
  have nothing : filled stores = [] := by
    apply List.filter_eq_nil_iff.mpr
    intro store member
    rw [none store member]
    decide
  rw [← fold_filled, nothing]
  rfl

private theorem fold_perm {stores stores' : List Store} (order : stores.Perm stores') :
    (fold stores).toOption = (fold stores').toOption := by
  apply Option.ext
  intro whole
  have opened (result : Except Conflict Store) : result.toOption = some whole ↔
      result = .ok whole := by
    cases result <;> simp [Except.toOption]
  rw [opened, opened, fold_eq_ok_iff, fold_eq_ok_iff]
  constructor
  · rintro ⟨compatible, rfl⟩
    exact ⟨compatible.perm order, total_perm order compatible⟩
  · rintro ⟨compatible, rfl⟩
    exact ⟨compatible.perm order.symm, total_perm order.symm compatible⟩

end Store

namespace Metadata

/-- The files at those of the paths that lead to something hold the stores, one after the other. -/
inductive Hold (disk : Disk) : List Path → List Store → Prop
  | nil : Hold disk [] []
  | missing {path : Path} {paths : List Path} {stores : List Store}
    (absent : disk.exists? path = false)
      (rest : Hold disk paths stores) : Hold disk (path :: paths) stores
  | file {path : Path} {paths : List Path} {bytes : Bytes} {store : Store} {stores : List Store}
      (read : disk.read path = .ok bytes) (decoded : decode bytes = .ok store)
      (rest : Hold disk paths stores) : Hold disk (path :: paths) (store :: stores)

/-- Files are merged as the stores in them are, and the disk is not changed. -/
theorem run_mergeFiles {disk : Disk} {paths : List Path} {stores : List Store}
    (hold : Hold disk paths stores) :
    (mergeFiles paths).run.run disk = ((Store.fold stores).mapError Failure.ofConflict, disk) := by
  rw [Store.fold_eq]
  unfold mergeFiles
  generalize Store.empty = start
  induction hold generalizing start with
  | nil => rfl
  | missing absent _ ih =>
    rw [List.foldlM_cons, Steps.run_bind, Steps.run_bind, load_of_missing absent]
    exact ih start
  | file read decoded _ ih =>
    rw [List.foldlM_cons, Steps.run_bind, Steps.run_bind,
      load_of_decode read decoded, List.foldlM_cons]
    simp only [Action.run_ofExcept]
    rename_i store stores _
    cases start.merge store with
    | error conflict => rfl
    | ok sum => exact ih sum

end Metadata

namespace Store

/-- Stores can be added up exactly when every two of them agree on the layouts of the classes they
share, and the sum has the records of each class added up counter by counter. It does not depend on
the order, on empty stores or on whether the stores come from files. -/
theorem fold_sums_records (stores : List Store) :
    ((∃ whole, fold stores = .ok whole) ↔ ∀ one ∈ stores, ∀ other ∈ stores, Compatible one other) ∧
    (∀ whole, fold stores = .ok whole → ∀ name,
      (whole.get? name = none ↔ ∀ store ∈ stores, store.get? name = none) ∧
      ∀ record, whole.get? name = some record → Record.SumOf (held stores name) record) ∧
    (∀ others, (filled others).Perm (filled stores) →
    (fold others).toOption = (fold stores).toOption) ∧
    ∀ disk paths, Metadata.Hold disk paths stores →
      (Metadata.mergeFiles paths).run.run disk =
        ((fold stores).mapError Failure.ofConflict, disk) := by
  refine ⟨?_, ?_, ?_, ?_⟩
  · rw [← allCompatible_iff]
    constructor
    · rintro ⟨whole, folded⟩
      exact (fold_eq_ok_iff.mp folded).1
    · intro compatible
      exact ⟨total stores, fold_eq_ok_iff.mpr ⟨compatible, rfl⟩⟩
  · intro whole folded name
    obtain ⟨compatible, rfl⟩ := fold_eq_ok_iff.mp folded
    rw [get?_total]
    constructor
    · have none : Record.sum? (held stores name) = none ↔ held stores name = [] := by
        cases held stores name <;> simp [Record.sum?]
      rw [none, held, List.filterMap_eq_nil_iff]
    · intro record summed
      exact Record.sumOf_of_sum? (fun one member other member' =>
        sameLayout_of_held compatible member member') summed
  · intro others order
    rw [← fold_filled others, ← fold_filled stores]
    exact fold_perm order
  · intro disk paths hold
    exact Metadata.run_mergeFiles hold

/-- A counter that is full, an empty store and a counter of the same class that is not, in memory
and in files next to a path that leads nowhere. -/
theorem fold_sums_records_at_cap :
    ∃ (full other whole : Store) (disk : Disk),
      full.records = [⟨"A", some "b.src", [⟨7, 18446744073709551615⟩], [⟨7, 0, false⟩]⟩] ∧
      other.records = [⟨"A", some "a.src", [⟨7, 3⟩], [⟨7, 0, true⟩]⟩] ∧
      whole.records = [⟨"A", some "a.src", [⟨7, 18446744073709551615⟩], [⟨7, 0, true⟩]⟩] ∧
      fold [full, empty, other] = .ok whole ∧
      (∀ record, whole.get? "A" = some record →
      Record.SumOf (held [full, empty, other] "A") record) ∧
      (fold [other, full]).toOption = some whole ∧
      (Metadata.mergeFiles [⟨"full"⟩, ⟨"gone"⟩, ⟨"none"⟩, ⟨"other"⟩]).run.run disk =
        (.ok whole, disk) := by
  let full := single ⟨"A", some "b.src", [⟨7, 18446744073709551615⟩], [⟨7, 0, false⟩]⟩
  let other := single ⟨"A", some "a.src", [⟨7, 3⟩], [⟨7, 0, true⟩]⟩
  let whole := single ⟨"A", some "a.src", [⟨7, 18446744073709551615⟩], [⟨7, 0, true⟩]⟩
  let listing : Listing := .file "full" (Metadata.encode full) (.file "none" (Metadata.encode empty)
    (.file "other" (Metadata.encode other) .empty))
  have ordered : listing.Ordered := by
    have first : ∀ later ∈ ["none", "other"], "full" < later := by decide
    have second : ∀ later ∈ ["other"], "none" < later := by decide
    exact ⟨first, second, by simp [Listing.names], trivial⟩
  let disk : Disk := ⟨listing, ordered, []⟩
  have hold : Metadata.Hold disk [⟨"full"⟩, ⟨"gone"⟩, ⟨"none"⟩, ⟨"other"⟩] [full, empty, other] :=
    .file rfl (by decide +kernel) (.missing rfl (.file rfl (by decide +kernel)
      (.file rfl (by decide +kernel) .nil)))
  have folded : fold [full, empty, other] = .ok whole := rfl
  obtain ⟨-, records, orders, files⟩ := fold_sums_records [full, empty, other]
  have swapped := orders [other, full] (by decide +kernel)
  have merged := files disk _ hold
  rw [folded] at swapped merged
  exact ⟨full, other, whole, disk, rfl, rfl, rfl, folded,
    (records whole folded "A").2, swapped, merged⟩

end Store
end ClassCoverage
