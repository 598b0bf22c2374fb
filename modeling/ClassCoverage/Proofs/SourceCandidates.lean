import ClassCoverage.Proofs.SourcePlaces

/-! The order in which source files are looked for. Every candidate is tried under all roots before
the next one is, so what is found is the first of all pairs of a candidate and a root, candidates
before roots. -/
namespace ClassCoverage
open ClassCoverage.ClassName

theorem ClassName.sourceFile_eq (name extension : String) :
    sourceFile name extension = sourceFile name "" ++ extension := by
  rw [sourceFile, sourceFile, String.append_empty]

namespace SourceLookup
variable {lookup : SourceLookup} {disk : Disk} {record : Record}

theorem candidates_java (lookup : SourceLookup) (stem : String) :
    lookup.candidates (stem ++ ".java") = (stem ++ ".java") ::
      lookup.alternates.map (stem ++ ·) := by
  have stripped : Text.stripSuffix? sourceExtension.toList (stem ++ ".java").toList =
      some stem.toList := by
    unfold Text.stripSuffix?
    have ends : sourceExtension.toList <:+ (stem ++ ".java").toList := by
      rw [String.toList_append]
      exact List.suffix_append _ _
    rw [if_pos (List.isSuffixOf_iff_suffix.mpr ends)]
    simp [sourceExtension]
  unfold candidates
  rw [stripped]
  simp only [String.ofList_toList]

private theorem candidates_other (lookup : SourceLookup) {file : String}
    (other : ¬ ".java".toList <:+ file.toList) :
    lookup.candidates file = [file] := by
  have stripped : Text.stripSuffix? sourceExtension.toList file.toList = none :=
    if_neg (mt List.isSuffixOf_iff_suffix.mp other)
  unfold candidates
  rw [stripped]

/-- The files a record hints at, in the directory of its package. Only where the hint ends in
`.java` do the other extensions stand in for this one. -/
inductive HintedFiles (alternates : List String) (record : Record) : List String → Prop where
  | none (unhinted : ∀ hint, record.sourceFile = some hint → isPlain hint = false) :
    HintedFiles alternates record []
  | java {stem : String} (given : record.sourceFile = some (stem ++ ".java"))
      (plain : isPlain (stem ++ ".java") = true) :
      HintedFiles alternates record ((".java" :: alternates).map fun extension =>
        record.packageDirectory ++ (stem ++ extension))
  | other {hint : String} (given : record.sourceFile = some hint) (plain : isPlain hint = true)
      (other : ¬ ".java".toList <:+ hint.toList) :
      HintedFiles alternates record [record.packageDirectory ++ hint]

/-- All candidates of a record: the files it hints at, and then those that its name leads to. -/
def Candidates (alternates : List String) (record : Record) (candidates : List String) : Prop :=
  ∃ hinted, HintedFiles alternates record hinted ∧
    candidates = hinted ++ (".java" :: alternates).map (sourceFile record.name)

private theorem exists_hintedFiles (lookup : SourceLookup) (record : Record) :
    ∃ hinted, HintedFiles lookup.alternates record hinted ∧
      (hintedFile? record).toList.flatMap lookup.candidates = hinted := by
  rw [hintedFile?_eq]
  cases given : record.sourceFile with
  | none => exact ⟨[], .none (by simp [given]), rfl⟩
  | some hint =>
    cases plain : isPlain hint with
    | false =>
      refine ⟨[], .none fun other same => ?_, by simp [Option.filter, plain]⟩
      rw [given, Option.some.injEq] at same
      exact same ▸ plain
    | true =>
      have own : ((some hint).filter isPlain).map (record.packageDirectory ++ ·) =
          some (record.packageDirectory ++ hint) := by
        simp [Option.filter, plain]
      rw [own]
      simp only [Option.toList_some, List.flatMap_cons, List.flatMap_nil, List.append_nil]
      rw [candidates_append (front_packageDirectory record).closed]
      by_cases ends : ".java".toList <:+ hint.toList
      · obtain ⟨stem, whole⟩ := ends
        obtain rfl : hint = String.ofList stem ++ ".java" := by
          rw [← String.toList_inj, ← whole]
          simp
        refine ⟨_, .java given plain, ?_⟩
        rw [candidates_java]
        simp
      · exact ⟨_, .other given plain ends, by rw [candidates_other lookup ends]; rfl⟩

theorem candidates_sourceFile (lookup : SourceLookup) (name : String) :
    lookup.candidates (sourceFile name sourceExtension) = (".java" :: lookup.alternates).map
      (sourceFile name) := by
  calc lookup.candidates (sourceFile name sourceExtension)
    _ = lookup.candidates (sourceFile name "" ++ ".java") :=
    congrArg lookup.candidates (sourceFile_eq name ".java")
    _ = (".java" :: lookup.alternates).map (sourceFile name "" ++ ·) :=
      candidates_java lookup (sourceFile name "")
    _ = (".java" :: lookup.alternates).map (sourceFile name) :=
      List.map_congr_left fun extension _ => (sourceFile_eq name extension).symm

private theorem candidates_with_roots (lookup : SourceLookup) (roots : List Path) :
    { lookup with roots }.candidates = lookup.candidates := rfl

/-- A file that is there, under a candidate and a root of which no pair before has a file. Pairs are
ordered by their candidates and then by their roots. -/
def ComesFirst (disk : Disk) (candidates : List String) (roots : List Path)
    (location : SourceLocation) : Prop :=
  disk.isFile location.path = true ∧ ∃ i j, candidates[i]? = some location.relative ∧
    roots[j]? = some location.root ∧
    ∀ (i' j' : Nat) candidate root, candidates[i']? = some candidate → roots[j']? = some root →
      disk.isFile (root.join ⟨candidate⟩) = true → i < i' ∨ i = i' ∧ j ≤ j'

theorem ComesFirst.unique {candidates : List String} {roots : List Path}
    {one other : SourceLocation} (first : ComesFirst disk candidates roots one)
    (first' : ComesFirst disk candidates roots other) : one = other := by
  obtain ⟨file, i, j, candidate, root, least⟩ := first
  obtain ⟨file', i', j', candidate', root', least'⟩ := first'
  have before := least i' j' _ _ candidate' root' file'
  have behind := least' i j _ _ candidate root file
  obtain ⟨rfl, rfl⟩ : i = i' ∧ j = j' := by omega
  rw [candidate, Option.some.injEq] at candidate'
  rw [root, Option.some.injEq] at root'
  obtain ⟨_, _⟩ := one
  obtain ⟨_, _⟩ := other
  cases candidate'
  cases root'
  rfl

theorem findInRoots_eq_none_iff {relative : String} :
    lookup.findInRoots disk relative = none ↔ ∀ root ∈ lookup.roots,
    disk.isFile (root.join ⟨relative⟩) = false := by
  unfold findInRoots
  simp

theorem comesFirst_of_found {candidates : List String} {location : SourceLocation}
    (found : candidates.findSome? (lookup.findInRoots disk) = some location) :
    ComesFirst disk candidates lookup.roots location := by
  obtain ⟨before, relative, after, rfl, here, earlier⟩ := List.findSome?_eq_some_iff.mp found
  obtain ⟨root, first, rfl⟩ := Option.map_eq_some_iff.mp here
  obtain ⟨file, front, back, split, above⟩ := List.find?_eq_some_iff_append.mp first
  refine ⟨file, before.length, front.length, by simp, by simp [split], ?_⟩
  intro i j candidate root' candidate' held file'
  rcases Nat.lt_trichotomy i before.length with less | rfl | more
  · rw [List.getElem?_append_left less] at candidate'
    have none :=
      findInRoots_eq_none_iff.mp (earlier candidate (List.mem_of_getElem? candidate')) root'
      (List.mem_of_getElem? held)
    rw [file'] at none
    cases none
  · refine .inr ⟨rfl, ?_⟩
    by_contra less
    rw [split, List.getElem?_append_left (Nat.lt_of_not_le less)] at held
    simp only [List.getElem?_append_right (Nat.le_refl _), Nat.sub_self,
      List.getElem?_cons_zero, Option.some.injEq]
      at candidate'
    have none := above root' (List.mem_of_getElem? held)
    rw [candidate', file'] at none
    cases none
  · exact .inl more

private theorem found_iff {candidates : List String} {location : SourceLocation} :
    candidates.findSome? (lookup.findInRoots disk) = some location ↔
      ComesFirst disk candidates lookup.roots location := by
  refine ⟨comesFirst_of_found, fun first => ?_⟩
  cases found : candidates.findSome? (lookup.findInRoots disk) with
  | some other => rw [(comesFirst_of_found found).unique first]
  | none =>
    obtain ⟨file, i, j, candidate, root, -⟩ := first
    have none := List.findSome?_eq_none_iff.mp found _ (List.mem_of_getElem? candidate)
    have absent := findInRoots_eq_none_iff.mp none _ (List.mem_of_getElem? root)
    rw [SourceLocation.path] at file
    rw [absent] at file
    cases file

private theorem resolveRecord_eq (lookup : SourceLookup) (disk : Disk) (record : Record) :
    lookup.resolveRecord disk record =
      ((hintedFile? record).toList.flatMap lookup.candidates ++
        lookup.candidates (sourceFile record.name sourceExtension)).findSome?
          (lookup.findInRoots disk) := by
  rw [List.findSome?_append]
  unfold resolveRecord resolve resolveFile
  cases hintedFile? record with
  | none => rfl
  | some file => simp

private theorem relative_of_findInRoots {relative : String} {location : SourceLocation}
    (found : lookup.findInRoots disk relative = some location) : location.relative = relative := by
  obtain ⟨root, -, rfl⟩ := Option.map_eq_some_iff.mp found
  rfl

/-- Nothing is found under a candidate without a file, and something is found under one with a
file. -/
theorem found_of_first {candidates before after : List String} {primary : String}
    (split : candidates = before ++ primary :: after)
    (earlier : ∀ candidate ∈ before, ∀ root ∈ lookup.roots, disk.isFile (root.join ⟨candidate⟩) =
      false) (here : ∃ root ∈ lookup.roots, disk.isFile (root.join ⟨primary⟩) = true) :
    ∃ location, candidates.findSome? (lookup.findInRoots disk) = some location ∧
      location.relative = primary := by
  have none : before.findSome? (lookup.findInRoots disk) = none :=
    List.findSome?_eq_none_iff.mpr fun candidate member =>
      findInRoots_eq_none_iff.mpr (earlier candidate member)
  cases found : lookup.findInRoots disk primary with
  | none =>
    obtain ⟨root, member, file⟩ := here
    rw [findInRoots_eq_none_iff.mp found root member] at file
    cases file
  | some location =>
    refine ⟨location, ?_, relative_of_findInRoots found⟩
    rw [split, List.findSome?_append, none, Option.none_or, List.findSome?_cons, found]

private theorem findInRoots_with_root {relative : String} {location : SourceLocation}
    (found : lookup.findInRoots disk relative = some location) (root : Path) :
    { lookup with roots := lookup.roots ++ [root] }.findInRoots disk relative = some location := by
  obtain ⟨own, first, rfl⟩ := Option.map_eq_some_iff.mp found
  unfold findInRoots
  rw [List.find?_append, first]
  rfl

/-- What is found under the first candidate is found there with one more root, too. -/
theorem found_with_root {candidates : List String} {location : SourceLocation}
    (found : candidates.findSome? (lookup.findInRoots disk) = some location)
    (first : candidates.head? = some location.relative) (root : Path) :
    candidates.findSome? ({ lookup with roots := lookup.roots ++ [root] }.findInRoots disk) =
      some location := by
  obtain ⟨rest, rfl⟩ := List.head?_eq_some_iff.mp first
  cases own : lookup.findInRoots disk location.relative with
  | none =>
    obtain ⟨file, _, _, _, member, _⟩ := comesFirst_of_found found
    rw [SourceLocation.path, findInRoots_eq_none_iff.mp own _ (List.mem_of_getElem? member)] at file
    cases file
  | some other =>
    rw [List.findSome?_cons, own] at found
    rw [List.findSome?_cons, findInRoots_with_root own root]
    exact found

/-- A lookup answers the first pair of a candidate and a root that has a file, and nothing if there
is no such pair. So a candidate under any root comes before all later ones, and a root that is added
behind the others takes nothing from the first candidate. -/
theorem resolveRecord_comesFirst (lookup : SourceLookup) (disk : Disk) (record : Record) :
    ∃ candidates, Candidates lookup.alternates record candidates ∧
      (∀ location, lookup.resolveRecord disk record = some location ↔
        ComesFirst disk candidates lookup.roots location) ∧
      (lookup.resolveRecord disk record = none ↔
        ∀ candidate ∈ candidates, ∀ root ∈ lookup.roots,
          disk.isFile (root.join ⟨candidate⟩) = false) ∧
      (∀ before primary after, candidates = before ++ primary :: after →
        (∀ earlier ∈ before, ∀ root ∈ lookup.roots, disk.isFile (root.join ⟨earlier⟩) = false) →
        (∃ root ∈ lookup.roots, disk.isFile (root.join ⟨primary⟩) = true) →
        ∃ location, lookup.resolveRecord disk record = some location ∧
          location.relative = primary) ∧
      ∀ location, lookup.resolveRecord disk record = some location →
        candidates.head? = some location.relative →
        ∀ root, { lookup with roots := lookup.roots ++ [root] }.resolveRecord disk
          record = some location := by
  obtain ⟨hinted, files, same⟩ := exists_hintedFiles lookup record
  have search (roots : List Path) : { lookup with roots }.resolveRecord disk record =
      (hinted ++ (".java" :: lookup.alternates).map (sourceFile record.name)).findSome?
        ({ lookup with roots }.findInRoots disk) := by
    rw [resolveRecord_eq, candidates_with_roots, same, candidates_sourceFile]
  have own := search lookup.roots
  refine ⟨_, ⟨hinted, files, rfl⟩, fun location => ?_, ?_,
    fun before primary after split earlier here => ?_,
    fun location found first root => ?_⟩
  · rw [own, found_iff]
  · rw [own, List.findSome?_eq_none_iff]
    simp only [findInRoots_eq_none_iff]
  · rw [own]
    exact found_of_first split earlier here
  · rw [search]
    rw [own] at found
    exact found_with_root found first root

end SourceLookup
end ClassCoverage
