import ClassCoverage.Proofs.StoreSums

/-! What a merge does to the counts of stores. Counters of a class that both stores know become one
counter, which has counted something if either has, also where the sum of their hits is more than a
counter can hold. So the counts of the result are those of the two stores, less what both have. -/
namespace ClassCoverage

/-- What counts on either side of two lists counts in their sum, and twice if it counts on both. -/
theorem Aligned.countP_add {α κ : Type} {key : α → κ} {add : α → α → α} {counts : α → Bool}
    (either : ∀ a b, counts (add a b) = (counts a || counts b)) {as bs : List α}
    (same : as.map key = bs.map key) :
    (List.zipWith add as bs).countP counts + (as.zip bs).countP (fun pair =>
    counts pair.1 && counts pair.2) =
      as.countP counts + bs.countP counts := by
  induction as generalizing bs with
  | nil => cases bs with
    | nil => rfl
    | cons b bs => simp at same
  | cons a as ih => cases bs with
    | nil => simp at same
    | cons b bs =>
      have rest := ih (List.cons.inj same).2
      simp only [List.zipWith_cons_cons, List.zip_cons_cons, List.countP_cons, either]
      cases counts a <;> cases counts b <;> simp <;> omega

theorem LineCounter.covered_add (a b : LineCounter) :
    (a.add b).covered = (a.covered || b.covered) := by
  rw [Bool.eq_iff_iff]
  simp only [covered, add, Bool.or_eq_true, decide_eq_true_eq,
    UInt64.lt_iff_toNat_lt, toNat_saturatingAdd,
    UInt64.toNat_zero]
  omega

namespace Record

/-- How many line counters have counted something on both sides. -/
def linesOnBoth (ours theirs : Record) : Nat :=
  (ours.lines.zip theirs.lines).countP fun pair => pair.1.covered && pair.2.covered

/-- How many arms were taken on both sides. -/
def armsOnBoth (ours theirs : Record) : Nat :=
  (ours.branches.zip theirs.branches).countP fun pair => pair.1.taken && pair.2.taken

/-- A figure of records, and what of it two records of one layout have in common: a sum has it only
once. -/
structure Overlap (figure : Record → Nat) (both : Record → Record → Nat) : Prop where
  add : ∀ {ours theirs : Record}, ours.SameLayout theirs →
    figure (ours.add theirs) + both ours theirs = figure ours + figure theirs
  least : ∀ ours theirs, both ours theirs ≤ figure theirs

private theorem overlap_lines :
    Overlap (fun record => record.lines.length) fun _ theirs => theirs.lines.length where
  add same := by
    have sized := congrArg List.length same.add.1
    simp only [lineNumbers, List.length_map] at sized
    rw [sized]
  least _ _ := Nat.le_refl _

private theorem overlap_branches :
    Overlap (fun record => record.branches.length) fun _ theirs => theirs.branches.length where
  add same := by
    have sized := congrArg List.length same.add.2
    simp only [sites, List.length_map] at sized
    rw [sized]
  least _ _ := Nat.le_refl _

/-- No more pairs than counters on the right. -/
private theorem countP_zip_le {α : Type} (counts : α → Bool) (as bs : List α) :
    (as.zip bs).countP (fun pair => counts pair.1 && counts pair.2) ≤ bs.countP counts := by
  induction as generalizing bs with
  | nil => simp
  | cons a as ih => cases bs with
    | nil => simp
    | cons b bs =>
      have rest := ih bs
      simp only [List.zip_cons_cons, List.countP_cons]
      cases counts a <;> cases counts b <;> simp <;> omega

private theorem overlap_linesCovered : Overlap linesCovered linesOnBoth where
  add same := Aligned.countP_add LineCounter.covered_add same.1
  least ours theirs := countP_zip_le LineCounter.covered ours.lines theirs.lines

private theorem overlap_branchesCovered : Overlap branchesCovered armsOnBoth where
  add same := Aligned.countP_add (fun _ _ => rfl) same.2
  least ours theirs := countP_zip_le BranchCounter.taken ours.branches theirs.branches

end Record

section
variable {figure : Record → Nat} {both : Record → Record → Nat}

theorem Records.sum_upsert (overlap : Record.Overlap figure both) {record : Record}
    {records : List Record} (increasing : Increasing records)
    (layout : ∀ ours, find? record.name records = some ours → ours.SameLayout record) :
    ((upsert Record.add record records).map figure).sum +
        ((find? record.name records).map (both · record)).getD 0 =
      (records.map figure).sum + figure record := by
  induction records with
  | nil => simp [upsert, find?]
  | cons other rest ih =>
    obtain ⟨least, sorted⟩ := List.pairwise_cons.mp increasing
    rw [upsert]
    split
    · rename_i smaller
      have absent : find? record.name (other :: rest) = none :=
        find?_eq_none_of_lt fun member found => by
        rcases List.mem_cons.mp found with rfl | later
        · exact smaller
        · exact String.lt_trans smaller (least member later)
      rw [absent]
      simp only [List.map_cons, List.sum_cons, Option.map_none, Option.getD_none]
      omega
    · split
      · rename_i same
        have found : find? record.name (other :: rest) = some other :=
          same ▸ find?_cons_self other rest
        have added := overlap.add (layout other found)
        rw [found]
        simp only [List.map_cons, List.sum_cons, Option.map_some, Option.getD_some]
        omega
      · rename_i different
        rw [find?_cons_of_ne different] at layout ⊢
        have later := ih sorted layout
        simp only [List.map_cons, List.sum_cons]
        omega

namespace Store

/-- The records for classes that a store knows, behind its own. -/
def pairsWith (store : Store) (records : List Record) : List (Record × Record) :=
  records.filterMap fun theirs => (store.get? theirs.name).map fun ours => (ours, theirs)

/-- The records of both stores for the classes that both know. -/
def shared (ours theirs : Store) : List (Record × Record) := ours.pairsWith theirs.records

theorem pairsWith_cons_of_unknown {store : Store} {record : Record}
    (unknown : store.get? record.name = none) (rest : List Record) :
    store.pairsWith (record :: rest) = store.pairsWith rest :=
  List.filterMap_cons_none (by rw [unknown]; rfl)

theorem pairsWith_cons_of_known {store : Store} {ours record : Record}
    (known : store.get? record.name = some ours) (rest : List Record) :
    store.pairsWith (record :: rest) = (ours, record) :: store.pairsWith rest :=
  List.filterMap_cons_some (by rw [known]; rfl)

private theorem sum_foldl_absorb (overlap : Record.Overlap figure both) {records : List Record}
    (increasing : Records.Increasing records) {store : Store}
    (layouts : ∀ record ∈ records, ∀ ours, store.get? record.name = some ours →
      ours.SameLayout record) :
    ((records.foldl absorb store).records.map figure).sum +
        ((store.pairsWith records).map fun pair => both pair.1 pair.2).sum =
      (store.records.map figure).sum + (records.map figure).sum := by
  induction records generalizing store with
  | nil => simp [pairsWith]
  | cons record rest ih =>
    obtain ⟨least, sorted⟩ := List.pairwise_cons.mp increasing
    rw [List.forall_mem_cons] at layouts
    -- What the store says of the classes that follow is not changed by the first record.
    have same : ∀ other ∈ rest, (store.absorb record).get? other.name = store.get? other.name := by
      intro other member
      rw [get?_absorb, if_neg]
      intro equal
      exact String.lt_irrefl _ (equal ▸ least other member)
    have pairs : (store.absorb record).pairsWith rest = store.pairsWith rest :=
      List.filterMap_congr fun other member => by rw [same other member]
    have later := ih sorted fun other member ours found =>
      layouts.2 other member ours (same other member ▸ found)
    rw [pairs] at later
    have first : ((store.absorb record).records.map figure).sum +
        ((store.get? record.name).map (both · record)).getD 0 =
          (store.records.map figure).sum + figure record :=
      Records.sum_upsert overlap store.increasing layouts.1
    rw [List.foldl_cons, List.map_cons, List.sum_cons]
    cases found : store.get? record.name with
    | none =>
      rw [found] at first
      simp only [Option.map_none, Option.getD_none] at first
      rw [pairsWith_cons_of_unknown found]
      omega
    | some ours =>
      rw [found] at first
      simp only [Option.map_some, Option.getD_some] at first
      rw [pairsWith_cons_of_known found, List.map_cons, List.sum_cons]
      simp only
      omega

private theorem sum_pairsWith_le (overlap : Record.Overlap figure both) (store : Store)
    (records : List Record) :
    ((store.pairsWith records).map fun pair => both pair.1 pair.2).sum ≤
      (records.map figure).sum := by
  induction records with
  | nil => simp [pairsWith]
  | cons record rest ih =>
    rw [List.map_cons, List.sum_cons]
    cases found : store.get? record.name with
    | none =>
      rw [pairsWith_cons_of_unknown found]
      omega
    | some ours =>
      have first := overlap.least ours record
      rw [pairsWith_cons_of_known found, List.map_cons, List.sum_cons]
      simp only
      omega

/-- Records for classes that are all known are all paired. -/
theorem map_pairsWith {store : Store} {records : List Record}
    (known : ∀ record ∈ records, (store.get? record.name).isSome) :
    (store.pairsWith records).map Prod.snd = records := by
  induction records with
  | nil => rfl
  | cons record rest ih =>
    rw [List.forall_mem_cons] at known
    obtain ⟨ours, found⟩ := Option.isSome_iff_exists.mp known.1
    rw [pairsWith_cons_of_known found, List.map_cons, ih known.2]

variable {ours theirs merged : Store}

/-- The figure of a merge is the sum of those of its parts, less what both have. -/
theorem sum_of_merge (overlap : Record.Overlap figure both)
    (success : ours.merge theirs = .ok merged) :
    (merged.records.map figure).sum + ((shared ours theirs).map fun pair =>
    both pair.1 pair.2).sum =
      (ours.records.map figure).sum + (theirs.records.map figure).sum := by
  obtain ⟨compatible, rfl⟩ := merge_eq_ok_iff.mp success
  apply sum_foldl_absorb overlap theirs.increasing
  intro record member own found
  exact compatible.sameLayout found (get?_of_mem member)

private theorem le_sum_of_merge (overlap : Record.Overlap figure both)
    (success : ours.merge theirs = .ok merged) :
    (ours.records.map figure).sum ≤ (merged.records.map figure).sum := by
  have whole := sum_of_merge overlap success
  have least : ((shared ours theirs).map fun pair => both pair.1 pair.2).sum ≤
      (theirs.records.map figure).sum :=
    sum_pairsWith_le overlap ours theirs.records
  omega

private theorem merge_swap (success : ours.merge theirs = .ok merged) :
    theirs.merge ours = .ok merged := by
  obtain ⟨compatible, rfl⟩ := merge_eq_ok_iff.mp success
  exact merge_eq_ok_iff.mpr ⟨compatible.symm, sum_comm compatible⟩

/-- Where one of two stores has all classes of the other, a merge has its figure, if the other has
nothing more to add to it. -/
theorem sum_of_merge_of_known (overlap : Record.Overlap figure fun _ record => figure record)
    (success : ours.merge theirs = .ok merged) (known : ∀ name ∈ theirs.names, name ∈ ours.names) :
    (merged.records.map figure).sum = (ours.records.map figure).sum := by
  have whole := sum_of_merge overlap success
  have pairs : (shared ours theirs).map Prod.snd = theirs.records :=
    map_pairsWith fun record member =>
      mem_names_iff.mp (known record.name (List.mem_map_of_mem member))
  have all : ((shared ours theirs).map fun pair => figure pair.2).sum =
      (theirs.records.map figure).sum := by
    rw [← pairs, List.map_map]
    rfl
  omega

/-- The counts of a store that two others were merged to. What both have is counted once. -/
structure Unites (ours theirs merged : Store) : Prop where
  totalLines : merged.totalLines + ((shared ours theirs).map fun pair => pair.2.lines.length).sum =
    ours.totalLines + theirs.totalLines
  linesCovered : merged.linesCovered + ((shared ours theirs).map fun pair =>
    pair.1.linesOnBoth pair.2).sum =
    ours.linesCovered + theirs.linesCovered
  totalBranches : merged.totalBranches + ((shared ours theirs).map fun pair =>
    pair.2.branches.length).sum =
    ours.totalBranches + theirs.totalBranches
  branchesCovered : merged.branchesCovered + ((shared ours theirs).map fun pair =>
    pair.1.armsOnBoth pair.2).sum =
    ours.branchesCovered + theirs.branchesCovered
  includes : merged.Includes ours ∧ merged.Includes theirs
  moreLines : ours.linesCovered ≤ merged.linesCovered ∧ theirs.linesCovered ≤ merged.linesCovered
  moreBranches : ours.branchesCovered ≤ merged.branchesCovered ∧
    theirs.branchesCovered ≤ merged.branchesCovered
  sameClasses : (∀ name, name ∈ ours.names ↔ name ∈ theirs.names) →
    (merged.totalLines = ours.totalLines ∧ merged.totalLines = theirs.totalLines) ∧
      merged.totalBranches = ours.totalBranches ∧ merged.totalBranches = theirs.totalBranches

/-- A merge loses no coverage, and its counts follow from those of its parts by inclusion and
exclusion. -/
theorem merge_unites (success : ours.merge theirs = .ok merged) : Unites ours theirs merged where
  totalLines := sum_of_merge Record.overlap_lines success
  linesCovered := sum_of_merge Record.overlap_linesCovered success
  totalBranches := sum_of_merge Record.overlap_branches success
  branchesCovered := sum_of_merge Record.overlap_branchesCovered success
  includes := includes_of_merge success
  moreLines :=
    ⟨le_sum_of_merge Record.overlap_linesCovered success,
      le_sum_of_merge Record.overlap_linesCovered (merge_swap success)⟩
  moreBranches :=
    ⟨le_sum_of_merge Record.overlap_branchesCovered success,
      le_sum_of_merge Record.overlap_branchesCovered (merge_swap success)⟩
  sameClasses same := by
    have swapped := merge_swap success
    exact ⟨⟨sum_of_merge_of_known Record.overlap_lines success fun name => (same name).mpr,
        sum_of_merge_of_known Record.overlap_lines swapped fun name => (same name).mp⟩,
      sum_of_merge_of_known Record.overlap_branches success fun name => (same name).mpr,
      sum_of_merge_of_known Record.overlap_branches swapped fun name => (same name).mp⟩

/-- A counter that is full and one that is not, a class of one side only, and arms that were taken
on both sides. -/
theorem merge_unites_at_cap :
    ∃ ours theirs merged : Store,
      ours.records = [⟨"A", none, [⟨1, 18446744073709551615⟩, ⟨2, 0⟩], [⟨1, 0, true⟩]⟩] ∧
      theirs.records = [⟨"A", none, [⟨1, 5⟩, ⟨2, 1⟩], [⟨1, 0, true⟩]⟩, ⟨"B", none, [⟨9, 0⟩], []⟩] ∧
      ours.merge theirs = .ok merged ∧ Unites ours theirs merged ∧
      merged.totalLines = 3 ∧ merged.linesCovered = 2 ∧ merged.totalBranches = 1 ∧
      merged.branchesCovered = 1 := by
  let ours := single ⟨"A", none, [⟨1, 18446744073709551615⟩, ⟨2, 0⟩], [⟨1, 0, true⟩]⟩
  let theirs := ofList [⟨"A", none, [⟨1, 5⟩, ⟨2, 1⟩], [⟨1, 0, true⟩]⟩, ⟨"B", none, [⟨9, 0⟩], []⟩]
  let merged := ours.sum theirs
  have success : ours.merge theirs = .ok merged := by decide +kernel
  exact ⟨ours, theirs, merged,
    rfl, by decide +kernel, success, merge_unites success, by decide +kernel,
    by decide +kernel, by decide +kernel, by decide +kernel⟩

end Store

end

end ClassCoverage
