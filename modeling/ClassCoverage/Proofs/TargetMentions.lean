import ClassCoverage.Instrument
import ClassCoverage.Proofs.CollectedTargets
import ClassCoverage.Proofs.WalkedFiles
import Mathlib.Data.List.Forall2

/-! Which targets are collected. All that a configuration mentions is a target once, however often
and by whatever path it is mentioned, in the order of the first mentions and as the first mention
has it. -/
namespace ClassCoverage

namespace Steps
variable {ε σ α β : Type}

/-- Steps that only look and all succeed give their answers in order. -/
theorem run_mapM_ok {step : α → ExceptT ε (StateM σ) β} {items : List α}
    {answers : List β} {state : σ}
    (answered : List.Forall₂ (fun item answer => (step item).run.run state =
      (.ok answer, state)) items answers) :
    (items.mapM step).run.run state = (.ok answers, state) := by
  induction answered with
  | nil => rfl
  | cons own _ later =>
    rw [List.mapM_cons, run_bind, own]
    simp only
    rw [run_bind, later]
    rfl

/-- Steps that only look, and fail in one way if at all, fail together if one of them does. -/
theorem run_mapM_error {step : α → ExceptT ε (StateM σ) β} {items : List α} {fault : ε} {state : σ}
    (either : ∀ item ∈ items, (step item).run.run state = (.error fault, state) ∨
      ∃ answer, (step item).run.run state = (.ok answer, state))
    (failing : ∃ item ∈ items, (step item).run.run state = (.error fault, state)) :
    (items.mapM step).run.run state = (.error fault, state) := by
  induction items with
  | nil => simp at failing
  | cons item items ih =>
    rw [List.mapM_cons, run_bind]
    rcases either item (List.mem_cons_self ..) with failed | ⟨answer, own⟩
    · rw [failed]
    · obtain ⟨other, member, failed⟩ := failing
      have later : other ∈ items := by
        refine (List.mem_cons.mp member).resolve_left ?_
        rintro rfl
        rw [own] at failed
        cases failed
      rw [own]
      simp only
      rw [run_bind, ih (fun other member => either other (List.mem_cons_of_mem item member))
        ⟨other, later, failed⟩]

end Steps

namespace Scan

/-- A name with the suffix of an archive, in any letter case. -/
def NamesArchive (name : String) :
    Prop := ∃ stem ending, name = stem ++ ending ∧ Text.lower ending ∈ archiveSuffixes

private theorem isSuffix_lower_iff (suffix name : String) :
    suffix.toList <:+ (Text.lower name).toList ↔ ∃ stem ending, name = stem ++ ending ∧
    Text.lower ending = suffix := by
  rw [Text.toList_lower]
  constructor
  · rintro ⟨front, split⟩
    obtain ⟨stem, ending, whole, -, last⟩ := List.map_eq_append_iff.mp split.symm
    refine ⟨String.ofList stem, String.ofList ending, ?_, ?_⟩
    · rw [← String.toList_inj, whole]
      simp
    · rw [← String.toList_inj, Text.toList_lower, String.toList_ofList, last]
  · rintro ⟨stem, ending, rfl, rfl⟩
    rw [Text.toList_lower, String.toList_append, List.map_append]
    exact List.suffix_append _ _

private theorem isArchive_iff (path : Path) :
    isArchive path = true ↔ ∃ name, path.fileName? = some name ∧ NamesArchive name := by
  unfold isArchive
  cases path.fileName? with
  | none => simp
  | some name =>
    simp only [List.any_eq_true, List.isSuffixOf_iff_suffix, isSuffix_lower_iff,
      Option.some.injEq, exists_eq_left']
    constructor
    · rintro ⟨suffix, known, stem, ending, whole, rfl⟩
      exact ⟨stem, ending, whole, known⟩
    · rintro ⟨stem, ending, whole, known⟩
      exact ⟨_, known, stem, ending, whole, rfl⟩

def IsArchiveBelow (below : Place) : Prop := ∃ name, below.getLast? = some name ∧ NamesArchive name

private theorem walked_archives {disk : Disk} {base : Path} {top : Place} (spelled : disk.Spelled)
    (resolved : disk.resolve base = .ok top) (directory : disk.kind? top = some .directory) :
    ∃ paths, (collectMatching isArchive base).run.run disk = (.ok paths, disk) ∧
      Walked disk base top IsArchiveBelow paths := by
  obtain ⟨paths, run, walked⟩ := walked_collectMatching spelled resolved directory isArchive
  refine ⟨paths, run, walked.congr fun below wanted => ?_⟩
  rw [isArchive_iff,
    fileName?_pathTo (Disk.spelling_of_resolve resolved) (wanted.named spelled) wanted.inside]
  rfl

end Scan

namespace Target

/-- What is kept of a list: for each key the first item that has it, in the order of these. -/
structure FirstMentions {α κ : Type} [DecidableEq κ] (key : α → κ) (items kept : List α) :
    Prop where
  first : ∀ item ∈ kept, items.find? (fun other => key other = key item) = some item
  all : ∀ item ∈ items, ∃ other ∈ kept, key other = key item
  ordered : kept.Pairwise fun one other =>
    items.findIdx (fun item => key item = key one) < items.findIdx (fun item =>
      key item = key other)

section
variable {α κ : Type} [DecidableEq κ] {key : α → κ} {items kept : List α}

theorem firstMentions_firstOfEach (key : α → κ) (items : List α) :
    FirstMentions key items (firstOfEach key items) := by
  induction items with
  | nil => exact ⟨by simp [firstOfEach], by simp, List.Pairwise.nil⟩
  | cons item items ih =>
    rw [firstOfEach]
    have apart {other : α} (member : other ∈ (firstOfEach key items).filter fun other =>
        key other ≠ key item) :
        other ∈ firstOfEach key items ∧ key item ≠ key other := by
      obtain ⟨held, different⟩ := List.mem_filter.mp member
      exact ⟨held, Ne.symm (by simpa using different)⟩
    have behind {other : α} (different : key item ≠ key other) :
        (item :: items).findIdx (fun item => key item = key other) =
          items.findIdx (fun item => key item = key other) + 1 := by
      simp [List.findIdx_cons, different]
    refine ⟨?_, ?_, List.pairwise_cons.mpr ⟨?_, ?_⟩⟩
    · intro other member
      rcases List.mem_cons.mp member with rfl | later
      · exact List.find?_cons_of_pos (by simp)
      · obtain ⟨held, different⟩ := apart later
        rw [List.find?_cons_of_neg (by simpa using different)]
        exact ih.first other held
    · intro other member
      by_cases same : key item = key other
      · exact ⟨item, List.mem_cons_self .., same⟩
      · have later : other ∈ items := (List.mem_cons.mp member).resolve_left fun own =>
          same (congrArg key own.symm)
        obtain ⟨kept, held, own⟩ := ih.all other later
        refine ⟨kept, List.mem_cons_of_mem item (List.mem_filter.mpr ⟨held, ?_⟩), own⟩
        simpa [own] using Ne.symm same
    · intro other member
      rw [behind (apart member).2]
      simp [List.findIdx_cons]
    · refine (ih.ordered.filter _).imp_of_mem fun member member' less => ?_
      rw [behind (apart member).2, behind (apart member').2]
      exact Nat.succ_lt_succ less

theorem FirstMentions.mem (mentions : FirstMentions key items kept) {item : α}
    (member : item ∈ kept) : item ∈ items :=
  List.mem_of_find?_eq_some (mentions.first item member)

theorem FirstMentions.distinct (mentions : FirstMentions key items kept) :
    (kept.map key).Nodup := by
  apply List.pairwise_map.mpr
  refine mentions.ordered.imp fun less same => ?_
  simp [same] at less

end

/-- The archives of a set, in path order. A set whose directory is not there has none. -/
inductive SetMentions (disk : Disk) : ArchiveSet → List Target → Prop where
  | missing {base : Path} (absent : disk.isDirectory base = false) : SetMentions disk ⟨some base⟩ []
  | walked {base : Path} {top : Place} {paths : List Path} (resolved : disk.resolve base = .ok top)
      (directory : disk.kind? top = some .directory)
        (walked : Scan.Walked disk base top Scan.IsArchiveBelow paths) :
      SetMentions disk ⟨some base⟩ (paths.map .archive)

/-- What a configuration mentions. -/
inductive Mentioned (options : Instrument.Options) (disk : Disk) : Target → Prop where
  | archive {path : Path} (listed : path ∈ options.archives) (file : disk.isFile path = true) :
      Mentioned options disk (.archive path)
  | inSet {base : Path} {top below : Place} (listed : ⟨some base⟩ ∈ options.archiveSets)
      (resolved : disk.resolve base = .ok top) (directory : disk.kind? top = some .directory)
      (wanted : Scan.Wanted disk top below) (archive : Scan.IsArchiveBelow below) :
      Mentioned options disk (.archive (Scan.pathTo base below))
  | directory {path : Path} (listed : path ∈ options.classDirectories) :
    Mentioned options disk (.directory path)

def missingBase : Failure := .setting "Missing base directory for archive set"

theorem run_ofSet {disk : Disk} (spelled : disk.Spelled) (set : ArchiveSet) :
    (set.baseDirectory = none ∧ (ofSet set).run.run disk = (.error missingBase, disk)) ∨
      ∃ targets, SetMentions disk set targets ∧ (ofSet set).run.run disk = (.ok targets, disk) := by
  obtain ⟨base⟩ := set
  cases base with
  | none => exact .inl ⟨rfl, rfl⟩
  | some base =>
    right
    unfold ofSet
    simp only
    rw [Steps.run_bind, Steps.run_get]
    simp only
    cases directory : disk.isDirectory base with
    | false => exact ⟨[], .missing directory, rfl⟩
    | true =>
      obtain ⟨top, listing, resolved, found⟩ := Disk.resolve_of_isDirectory directory
      have kind := Disk.at?_eq_directory_iff.mp ⟨listing, found⟩
      obtain ⟨paths, run, walked⟩ := Scan.walked_archives spelled resolved kind
      refine ⟨_, .walked resolved kind walked, ?_⟩
      rw [if_pos rfl, Steps.run_bind, run]
      rfl

private theorem run_sets {disk : Disk} (spelled : disk.Spelled) {sets : List ArchiveSet}
    (based : ∀ set ∈ sets, set.baseDirectory ≠ none) :
    ∃ lists, List.Forall₂ (SetMentions disk) sets lists ∧ (sets.mapM ofSet).run.run disk =
      (.ok lists, disk) := by
  have each : ∃ lists, List.Forall₂ (fun set targets => SetMentions disk set targets ∧
      (ofSet set).run.run disk = (.ok targets, disk)) sets lists := by
    induction sets with
    | nil => exact ⟨[], .nil⟩
    | cons set sets ih =>
      obtain ⟨own, others⟩ := List.forall_mem_cons.mp based
      obtain ⟨lists, later⟩ := ih others
      obtain ⟨targets, first⟩ := (run_ofSet spelled set).resolve_left fun missing => own missing.1
      exact ⟨targets :: lists, .cons first later⟩
  obtain ⟨lists, each⟩ := each
  exact ⟨lists, each.imp fun _ _ => And.left, Steps.run_mapM_ok (each.imp fun _ _ => And.right)⟩

private theorem run_sets_of_missing {disk : Disk} (spelled : disk.Spelled) {sets : List ArchiveSet}
    (missing : ∃ set ∈ sets, set.baseDirectory = none) :
    (sets.mapM ofSet).run.run disk = (.error missingBase, disk) := by
  apply Steps.run_mapM_error
  · intro set _
    exact (run_ofSet spelled set).imp And.right fun ⟨targets, _, run⟩ => ⟨targets, run⟩
  · obtain ⟨⟨base⟩, member, rfl⟩ := missing
    exact ⟨_, member, rfl⟩

private theorem mem_iff_of_setMentions {disk : Disk} {set : ArchiveSet} {targets : List Target}
    (mentions : SetMentions disk set targets) (target : Target) :
    target ∈ targets ↔ ∃ base top below, set = ⟨some base⟩ ∧ disk.resolve base = .ok top ∧
      disk.kind? top = some .directory ∧ Scan.Wanted disk top below ∧ Scan.IsArchiveBelow below ∧
      target = .archive (Scan.pathTo base below) := by
  cases mentions with
  | missing absent =>
    refine iff_of_false List.not_mem_nil ?_
    rintro ⟨base, top, below, ⟨⟩, resolved, directory, -⟩
    rw [Disk.isDirectory_of_resolve resolved directory] at absent
    cases absent
  | walked resolved directory walked =>
    rw [List.mem_map]
    constructor
    · rintro ⟨path, member, rfl⟩
      obtain ⟨below, wanted, archive, rfl⟩ := (walked.found path).mp member
      exact ⟨_, _, below, rfl, resolved, directory, wanted, archive, rfl⟩
    · rintro ⟨base, top, below, ⟨⟩, resolved', -, wanted, archive, rfl⟩
      cases resolved.symm.trans resolved'
      exact ⟨_, (walked.found _).mpr ⟨below, wanted, archive, rfl⟩, rfl⟩

private theorem mem_flatten_iff {disk : Disk} {sets : List ArchiveSet} {lists : List (List Target)}
    (mentions : List.Forall₂ (SetMentions disk) sets lists) (target : Target) :
    target ∈ lists.flatten ↔ ∃ base top below, ⟨some base⟩ ∈ sets ∧ disk.resolve base = .ok top ∧
      disk.kind? top = some .directory ∧ Scan.Wanted disk top below ∧ Scan.IsArchiveBelow below ∧
      target = .archive (Scan.pathTo base below) := by
  induction mentions with
  | nil => simp
  | cons own _ later =>
    rw [List.flatten_cons, List.mem_append, mem_iff_of_setMentions own, later]
    constructor
    · rintro (⟨base, top, below, rfl, rest⟩ | ⟨base, top, below, member, rest⟩)
      · exact ⟨base, top, below, List.mem_cons_self .., rest⟩
      · exact ⟨base, top, below, List.mem_cons_of_mem _ member, rest⟩
    · rintro ⟨base, top, below, member, rest⟩
      rcases List.mem_cons.mp member with same | member
      · exact .inl ⟨base, top, below, same.symm, rest⟩
      · exact .inr ⟨base, top, below, member, rest⟩

/-- All mentions: the archives that are there, then the archives of each set, then the class
directories. -/
def allMentions (options : Instrument.Options) (disk : Disk)
    (lists : List (List Target)) : List Target :=
  (options.archives.filter disk.isFile).map .archive ++ lists.flatten ++
    options.classDirectories.map .directory

private theorem mem_allMentions_iff {options : Instrument.Options} {disk : Disk}
    {lists : List (List Target)}
    (mentions : List.Forall₂ (SetMentions disk) options.archiveSets lists) (target : Target) :
    target ∈ allMentions options disk lists ↔ Mentioned options disk target := by
  rw [allMentions, List.mem_append, List.mem_append, mem_flatten_iff mentions,
    List.mem_map, List.mem_map]
  constructor
  · rintro ((⟨path, member, rfl⟩ | ⟨base, top, below, listed, resolved, directory,
      wanted, archive, rfl⟩) |
      ⟨path, listed, rfl⟩)
    · obtain ⟨listed, file⟩ := List.mem_filter.mp member
      exact .archive listed file
    · exact .inSet listed resolved directory wanted archive
    · exact .directory listed
  · intro mentioned
    cases mentioned with
    | archive listed file => exact .inl (.inl ⟨_, List.mem_filter.mpr ⟨listed, file⟩, rfl⟩)
    | inSet listed resolved directory wanted archive =>
      exact .inl (.inr ⟨_, _, _, listed, resolved, directory, wanted, archive, rfl⟩)
    | directory listed => exact .inr ⟨_, listed, rfl⟩

theorem nodup_of_collect {archives : List Path} {sets : List ArchiveSet}
    {classDirectories : List Path} {disk disk' : Disk} {targets : List Target}
    (run : (collect archives sets classDirectories).run.run disk =
      (.ok targets, disk')) : targets.Nodup := by
  unfold collect at run
  rw [Steps.run_bind, Steps.run_get] at run
  simp only at run
  obtain ⟨groups, middle, -, answered⟩ := Steps.run_bind_ok run
  cases answered
  exact (firstMentions_firstOfEach _ _).distinct.of_map

/-- The targets of a configuration. What a path stands for is the place it leads to, or else its
parts. -/
structure Collected (options : Instrument.Options) (disk : Disk) (targets : List Target) :
    Prop where
  distinct : (targets.map fun target => identity disk target.path).Nodup
  places : (targets.filterMap fun target => disk.canonical? target.path).Nodup
  complete : ∀ target, Mentioned options disk target →
    ∃! kept, kept ∈ targets ∧ identity disk kept.path = identity disk target.path
  sound : ∀ target ∈ targets, Mentioned options disk target
  inOrder : ∃ lists, List.Forall₂ (SetMentions disk) options.archiveSets lists ∧
    FirstMentions (fun target => identity disk target.path) (allMentions options disk lists) targets

private theorem collected_of_firstMentions {options : Instrument.Options} {disk : Disk}
    {lists : List (List Target)} {targets : List Target}
    (mentions : List.Forall₂ (SetMentions disk) options.archiveSets lists)
    (firsts : FirstMentions (fun target => identity disk target.path)
      (allMentions options disk lists) targets) :
    Collected options disk targets where
  distinct := firsts.distinct
  places := by
    apply List.pairwise_filterMap.mpr
    refine (List.pairwise_map.mp firsts.distinct).imp fun apart place found place' found' => ?_
    rintro rfl
    apply apart
    unfold identity
    rw [found, found']
  complete target mentioned := by
    obtain ⟨kept, member, same⟩ :=
      firsts.all target ((mem_allMentions_iff mentions target).mpr mentioned)
    refine ⟨kept, ⟨member, same⟩, ?_⟩
    rintro other ⟨member', same'⟩
    exact List.inj_on_of_nodup_map firsts.distinct member' member (same'.trans same.symm)
  sound target member := (mem_allMentions_iff mentions target).mp (firsts.mem member)
  inOrder := ⟨lists, mentions, firsts⟩

end Target

namespace Instrument

private def libraries : Disk where
  root := .directory "lib" (.directory ".git" (.file "c.jar" [] .empty)
    (.file "B.WAR" [] (.file "a.jar" []
    (.file "notes.txt" [] .empty)))) .empty
  ordered := ⟨by decide,
    ⟨by decide, ⟨by decide, trivial⟩, by decide, by decide, by decide, trivial⟩,
    trivial⟩
  workPlace := []

private def manyMentions : Options where
  archives := [⟨"lib/../lib/a.jar"⟩, ⟨"gone.jar"⟩]
  archiveSets := [⟨some ⟨"./lib"⟩⟩, ⟨some ⟨"none"⟩⟩]
  classDirectories := [⟨"none"⟩, ⟨"none/"⟩, ⟨"/lib/a.jar/"⟩, ⟨"lib"⟩]

end Instrument
end ClassCoverage
