import ClassCoverage.Proofs.SourcePlaces
import ClassCoverage.Proofs.StoreTotals
import ClassCoverage.Report.Context
import Mathlib.Data.List.Nodup

/-! Summaries show what they would show if every source file were read anew for each class. What was
read is known by the parts of its path, and paths with the same parts lead to the same file. The
complexity of a report counts every file once. -/
namespace ClassCoverage

namespace Disk
variable {disk : Disk} {one other : Path}

/-- Reads a file, unless reading is refused at its place. -/
def readUnless (disk : Disk) (refused : Place → Option Fault) (path : Path) :
    Except Fault Bytes := do
  match refused (← disk.resolve path) with
  | some fault => throw fault
  | none => disk.read path

theorem readUnless_nothing (disk : Disk) : disk.readUnless (fun _ => none) = disk.read := by
  funext path
  unfold readUnless
  cases resolved : disk.resolve path with
  | ok place => rfl
  | error fault =>
    unfold read
    rw [resolved]
    rfl

private theorem resolve_of_isFile (file : disk.isFile one = true) :
    ∃ place, disk.resolve one = .ok place := by
  unfold isFile node? at file
  cases resolved : disk.resolve one with
  | ok place => exact ⟨place, rfl⟩
  | error fault =>
    rw [resolved] at file
    cases file

/-- Files at paths with the same parts are one file. A path that leads nowhere may have the parts of
one that does: a slash behind the name of a file is no part. -/
theorem resolve_eq_of_parts (file : disk.isFile one = true) (file' : disk.isFile other = true)
    (same : one.parts = other.parts) : disk.resolve one = disk.resolve other := by
  obtain ⟨place, resolved⟩ := resolve_of_isFile file
  obtain ⟨place', resolved'⟩ := resolve_of_isFile file'
  have aims := aim_of_parts same disk
  rw [aim_of_resolve resolved, aim_of_resolve resolved'] at aims
  rw [resolved, resolved', aims]

private theorem readUnless_of_parts (refused : Place → Option Fault) (file : disk.isFile one = true)
    (file' : disk.isFile other = true) (same : one.parts = other.parts) :
    disk.readUnless refused one = disk.readUnless refused other := by
  unfold readUnless read
  rw [resolve_eq_of_parts file file' same]

end Disk

theorem SourceLookup.isFile_of_resolveRecord {lookup : SourceLookup} {disk : Disk} {record : Record}
    {location : SourceLocation} (found : lookup.resolveRecord disk record = some location) :
    disk.isFile location.path = true := by
  rcases Option.or_eq_some_iff.mp found with hinted | ⟨-, named⟩
  · obtain ⟨file, -, resolved⟩ := Option.bind_eq_some_iff.mp hinted
    exact (resolveFile_eq_some resolved).2.2
  · exact (resolveFile_eq_some named).2.2

namespace Report

variable {find : Record → Option SourceLocation} {read : Path → Except Fault Bytes}

/-- The summary of a class for which its source file is looked up and read without regard to any
other class. -/
def afresh (find : Record → Option SourceLocation) (read : Path → Except Fault Bytes)
    (record : Record) :
    ClassSummary where
  name := record.name
  package := record.packageName
  source := find record
  stats := (find record).bind fun location => statsOf (read location.path)
  linesValid := record.lines.length
  linesCovered := record.linesCovered
  branchesValid := record.branches.length
  branchesCovered := record.branchesCovered

/-- What is read of the source files that are found depends on the parts of their paths alone. -/
def KnownByParts (find : Record → Option SourceLocation)
    (read : Path → Except Fault Bytes) : Prop :=
  ∀ ⦃record record' location location'⦄, find record = some location →
    find record' = some location' →
    location.path.parts = location'.path.parts → read location.path = read location'.path

theorem knownByParts_readUnless (lookup : SourceLookup) (disk : Disk)
    (refused : Place → Option Fault) :
    KnownByParts (lookup.resolveRecord disk) (disk.readUnless refused) := by
  intro record record' location location' found found' same
  exact Disk.readUnless_of_parts refused (SourceLookup.isFile_of_resolveRecord found)
    (SourceLookup.isFile_of_resolveRecord found') same

/-- What is kept of a source file is what reading it would give. Files that could not be read are
kept as well. -/
def StatsCache.Holds (find : Record → Option SourceLocation) (read : Path → Except Fault Bytes)
    (cache : StatsCache) : Prop :=
  ∀ ⦃record location stats⦄, find record = some location →
    cache.lookup location.path.parts = some stats →
    stats = statsOf (read location.path)

private theorem cachedStats_holds (known : KnownByParts find read) {record : Record}
    {location : SourceLocation} (found : find record = some location) {cache : StatsCache}
    (holds : cache.Holds find read) :
    (cachedStats read location.path cache).1 = statsOf (read location.path) ∧
      (cachedStats read location.path cache).2.Holds find read := by
  unfold cachedStats
  cases looked : cache.lookup location.path.parts with
  | some stats => exact ⟨holds found looked, holds⟩
  | none =>
    refine ⟨rfl, fun record' location' stats found' looked' => ?_⟩
    simp only [List.lookup_cons] at looked'
    split at looked'
    · rename_i same
      rw [← Option.some.inj looked', known found found' (beq_iff_eq.mp same).symm]
    · exact holds found' looked'

private theorem summarizeRecord_afresh (known : KnownByParts find read) (record : Record)
    {cache : StatsCache} (holds : cache.Holds find read) :
    (summarizeRecord find read record cache).1 = afresh find read record ∧
      (summarizeRecord find read record cache).2.Holds find read := by
  unfold summarizeRecord afresh
  cases found : find record with
  | none => exact ⟨rfl, holds⟩
  | some location =>
    obtain ⟨own, later⟩ := cachedStats_holds known found holds
    refine ⟨?_, later⟩
    simp only [own]
    rfl

private theorem summarizeRecords_afresh (known : KnownByParts find read) (records : List Record)
    {cache : StatsCache} (holds : cache.Holds find read) :
    summarizeRecords find read records cache = records.map (afresh find read) := by
  induction records generalizing cache with
  | nil => rfl
  | cons record records ih =>
    obtain ⟨own, later⟩ := summarizeRecord_afresh known record holds
    rw [summarizeRecords, List.map_cons, ← own, ← ih later]

theorem summarizeWith_afresh (known : KnownByParts find read) (store : Store) :
    summarizeWith find read store = store.records.map (afresh find read) := by
  refine summarizeRecords_afresh known store.records fun record location stats _ looked => ?_
  cases looked

theorem summarize_afresh (store : Store) (lookup : SourceLookup) (disk : Disk) :
    summarize store lookup disk =
      store.records.map (afresh (lookup.resolveRecord disk) disk.read) := by
  have known := knownByParts_readUnless lookup disk fun _ => none
  rw [Disk.readUnless_nothing] at known
  exact summarizeWith_afresh known store

/-- The decision words and operators of a file. -/
def decisionCount (content : Except Fault Bytes) : Nat :=
  match content with
  | .ok bytes => ((SourceStats.linesOf (Utf8.decodeLossy bytes)).map SourceStats.decisions).sum
  | .error _ => 0

/-- The paths of the source files that are found for these classes and can be read. Classes of one
file bring its path again, or another spelling of it. -/
def readablePaths (find : Record → Option SourceLocation) (read : Path → Except Fault Bytes)
    (records : List Record) :
    List Path :=
  ((records.filterMap find).map SourceLocation.path).filter fun path => (read path).toOption.isSome

/-- Some of these paths, one for each list of parts that one of them has. -/
structure OnePathEach (files paths : List Path) : Prop where
  apart : (files.map Path.parts).Nodup
  own : ∀ file ∈ files, file ∈ paths
  all : ∀ path ∈ paths, path.parts ∈ files.map Path.parts

private theorem exists_onePathEach (paths : List Path) : ∃ files, OnePathEach files paths := by
  induction paths with
  | nil => exact ⟨[], .nil, by simp, by simp⟩
  | cons path paths ih =>
    obtain ⟨files, apart, own, all⟩ := ih
    have later : ∀ file ∈ files, file ∈ path :: paths := fun file member =>
      List.mem_cons_of_mem path (own file member)
    by_cases known : path.parts ∈ files.map Path.parts
    · exact ⟨files, apart, later, List.forall_mem_cons.mpr ⟨known, all⟩⟩
    · refine ⟨path :: files, List.nodup_cons.mpr ⟨known, apart⟩,
        List.forall_mem_cons.mpr ⟨List.mem_cons_self .., later⟩,
        List.forall_mem_cons.mpr ⟨List.mem_cons_self .., fun other member => ?_⟩⟩
      exact List.mem_cons_of_mem path.parts (all other member)

/-- What a summary tells of a source file: the parts of its path, and its complexity. -/
def ClassSummary.file? (summary : ClassSummary) : Option (List Path.Part × Nat) :=
  match summary.source, summary.stats with
  | some location, some stats => some (location.path.parts, stats.complexity)
  | _, _ => none

theorem countFile_eq (files : List (List Path.Part × Nat)) (summary : ClassSummary) :
    Context.countFile files summary = match summary.file? with
      | some own => own :: files.filter fun file => file.1 ≠ own.1
      | none => files := by
  unfold Context.countFile ClassSummary.file?
  cases summary.source with
  | none => rfl
  | some location => cases summary.stats with
    | none => rfl
    | some stats => rfl

private theorem nodup_countFile {files : List (List Path.Part × Nat)}
    (apart : (files.map Prod.fst).Nodup) (summary : ClassSummary) :
    ((Context.countFile files summary).map Prod.fst).Nodup := by
  rw [countFile_eq]
  cases summary.file? with
  | none => exact apart
  | some own =>
    refine List.nodup_cons.mpr ⟨fun member => ?_, (List.filter_sublist.map Prod.fst).nodup apart⟩
    obtain ⟨file, kept, same⟩ := List.mem_map.mp member
    exact absurd same (of_decide_eq_true (List.mem_filter.mp kept).2)

/-- A file is taken out only to be put back with the same complexity. -/
theorem mem_countFile_iff {files : List (List Path.Part × Nat)} {summary : ClassSummary}
    (agree : ∀ own, summary.file? = some own → ∀ file ∈ files, file.1 = own.1 → file = own)
    (file : List Path.Part × Nat) :
    file ∈ Context.countFile files summary ↔ file ∈ files ∨ summary.file? = some file := by
  rw [countFile_eq]
  cases told : summary.file? with
  | none => simp
  | some own =>
    simp only [List.mem_cons, List.mem_filter, decide_eq_true_eq, Option.some.injEq]
    constructor
    · rintro (rfl | ⟨old, -⟩)
      · exact .inr rfl
      · exact .inl old
    · rintro (old | rfl)
      · by_cases same : file.1 = own.1
        · exact .inl (agree own told file old same)
        · exact .inr ⟨old, same⟩
      · exact .inl rfl

/-- However often a file is told of, and in whatever order, it is counted once. -/
theorem counted_foldl_countFile (known : List Path.Part × Nat → Prop) {classes : List ClassSummary}
    {files : List (List Path.Part × Nat)}
    (function : ∀ ⦃file other⦄, known file → known other → file.1 = other.1 → file = other)
    (told : ∀ summary ∈ classes, ∀ file, summary.file? = some file → known file)
    (old : ∀ file ∈ files, known file) (apart : (files.map Prod.fst).Nodup) :
    ((classes.foldl Context.countFile files).map Prod.fst).Nodup ∧
      ∀ file, file ∈ classes.foldl Context.countFile files ↔
        file ∈ files ∨ ∃ summary ∈ classes, summary.file? = some file := by
  induction classes generalizing files with
  | nil => exact ⟨apart, by simp⟩
  | cons summary classes ih =>
    rw [List.forall_mem_cons] at told
    have members : ∀ file, file ∈ Context.countFile files summary ↔ file ∈ files ∨
        summary.file? = some file :=
      mem_countFile_iff fun own here file member same =>
        function (old file member) (told.1 own here) same
    have kept : ∀ file ∈ Context.countFile files summary, known file := fun file member =>
      ((members file).mp member).elim (old file) (told.1 file)
    obtain ⟨distinct, all⟩ := ih told.2 kept (nodup_countFile apart summary)
    refine ⟨distinct, fun file => ?_⟩
    rw [List.foldl_cons, all, members, or_assoc]
    simp

/-- A class tells of a source file exactly if one is found and can be read. -/
theorem file?_afresh (find : Record → Option SourceLocation) (read : Path → Except Fault Bytes)
    (record : Record) (file : List Path.Part × Nat) :
    (afresh find read record).file? = some file ↔ ∃ location bytes, find record = some location ∧
      read location.path = .ok bytes ∧
      (location.path.parts, 1 + decisionCount (read location.path)) = file := by
  unfold ClassSummary.file? afresh
  cases find record with
  | none => simp
  | some location =>
    cases content : read location.path with
    | error fault => simp [statsOf, content, Except.toOption]
    | ok bytes => simp [statsOf, content, Except.toOption, SourceStats.ofText, decisionCount]

private theorem mem_readablePaths_iff {records : List Record} {path : Path} :
    path ∈ readablePaths find read records ↔
      ∃ record ∈ records, ∃ location bytes, find record = some location ∧ location.path = path ∧
        read path = .ok bytes := by
  simp only [readablePaths, List.mem_filter, List.mem_map, List.mem_filterMap]
  constructor
  · rintro ⟨⟨location, ⟨record, member, found⟩, rfl⟩, readable⟩
    cases content : read location.path with
    | error fault => simp [content, Except.toOption] at readable
    | ok bytes => exact ⟨record, member, location, bytes, found, rfl, rfl⟩
  · rintro ⟨record, member, location, bytes, found, rfl, content⟩
    exact ⟨⟨location, ⟨record, member, found⟩, rfl⟩, by simp [content, Except.toOption]⟩

/-- Classes that tell of the same parts tell of the same complexity. -/
theorem eq_of_file? (known : KnownByParts find read) {record record' : Record}
    {one other : List Path.Part × Nat} (here : (afresh find read record).file? = some one)
    (here' : (afresh find read record').file? = some other) (same : one.1 =
      other.1) : one = other := by
  obtain ⟨location, bytes, found, content, rfl⟩ := (file?_afresh find read record one).mp here
  obtain ⟨location', bytes', found', content', rfl⟩ :=
    (file?_afresh find read record' other).mp here'
  rw [known found found' same, Prod.mk.injEq]
  exact ⟨same, rfl⟩

/-- With one path for each file, the classes tell of the files at these paths. -/
theorem exists_file?_iff (known : KnownByParts find read) {records : List Record}
    {files : List Path} (each : OnePathEach files (readablePaths find read records))
    (file : List Path.Part × Nat) :
    (∃ record ∈ records, (afresh find read record).file? = some file) ↔
      ∃ path ∈ files, (path.parts, 1 + decisionCount (read path)) = file := by
  constructor
  · rintro ⟨record, member, here⟩
    obtain ⟨location, bytes, found, content, rfl⟩ := (file?_afresh find read record file).mp here
    have listed := mem_readablePaths_iff.mpr ⟨record, member, location, bytes, found, rfl, content⟩
    obtain ⟨path, inside, same⟩ := List.mem_map.mp (each.all location.path listed)
    obtain ⟨record', -, location', -, found', rfl, -⟩ :=
      mem_readablePaths_iff.mp (each.own path inside)
    exact ⟨location'.path, inside, by rw [same, known found' found same]⟩
  · rintro ⟨path, inside, rfl⟩
    obtain ⟨record, member, location, bytes, found, rfl, content⟩ :=
      mem_readablePaths_iff.mp (each.own path inside)
    exact ⟨record, member, (file?_afresh find read record _).mpr ⟨location, bytes,
      found, content, rfl⟩⟩

/-- The complexity of a report is that of its source files, with one path for each of them. -/
theorem totalComplexity_afresh (known : KnownByParts find read) {records : List Record}
    {context : Context} (shown : context.classes.Perm (records.map (afresh find read)))
    {files : List Path} (each : OnePathEach files (readablePaths find read records)) :
    context.totalComplexity = (files.map fun file => 1 + decisionCount (read file)).sum := by
  have told (file : List Path.Part × Nat) :
      (∃ summary ∈ context.classes, summary.file? = some file) ↔
      ∃ record ∈ records, (afresh find read record).file? = some file := by
    simp only [shown.mem_iff, List.mem_map, exists_exists_and_eq_and]
  have function : ∀ ⦃one other⦄, (∃ record ∈ records, (afresh find read record).file? = some one) →
      (∃ record ∈ records, (afresh find read record).file? = some other) →
      one.1 = other.1 → one = other := by
    rintro one other ⟨record, -, here⟩ ⟨record', -, here'⟩ same
    exact eq_of_file? known here here' same
  have inside : ∀ summary ∈ context.classes, ∀ file, summary.file? = some file →
      ∃ record ∈ records, (afresh find read record).file? = some file :=
    fun summary member file here => (told file).mp ⟨summary, member, here⟩
  obtain ⟨distinct, members⟩ :=
    counted_foldl_countFile _ function inside (List.forall_mem_nil _) .nil
  have apart : (files.map fun file => (file.parts, 1 + decisionCount (read file))).Nodup := by
    refine List.Nodup.of_map Prod.fst ?_
    rw [List.map_map]
    exact each.apart
  have counted : (context.classes.foldl Context.countFile []).Perm
      (files.map fun file => (file.parts, 1 + decisionCount (read file))) := by
    refine (List.perm_ext_iff_of_nodup (List.Nodup.of_map Prod.fst distinct) apart).mpr fun file =>
      ?_
    rw [members, told, exists_file?_iff known each, List.mem_map]
    simp
  unfold Context.totalComplexity
  rw [(counted.map Prod.snd).sum_nat, List.map_map]
  rfl

/-- Keeping what was read changes no summary, also if reading some files is refused: every class is
summarized once, in name order, as if its source file were looked up and read for it alone. The
complexity of a report on these classes, in whatever order they come, is the sum over its source
files of one plus the decisions of the file, with one path for each file. -/
theorem summaries_afresh (store : Store) (lookup : SourceLookup) (disk : Disk)
    (refused : Place → Option Fault) :
    let find := lookup.resolveRecord disk
    let read := disk.readUnless refused
    let summaries := summarizeWith find read store
    summaries = store.records.map (afresh find read) ∧
      (summaries.map ClassSummary.name).Pairwise (fun one other =>
        Utf8.encode one.toList < Utf8.encode other.toList) ∧
      (∃ files, OnePathEach files (readablePaths find read store.records)) ∧
      (∀ (context : Context) (files : List Path), context.classes.Perm summaries →
        OnePathEach files (readablePaths find read store.records) →
          context.totalComplexity = (files.map fun file => 1 + decisionCount (read file)).sum) ∧
      summarize store lookup disk = summarizeWith find (disk.readUnless fun _ => none) store := by
  intro find read summaries
  have known := knownByParts_readUnless lookup disk refused
  have shown : summaries = store.records.map (afresh find read) := summarizeWith_afresh known store
  refine ⟨shown, ?_, exists_onePathEach _, fun context files order each => ?_, ?_⟩
  · rw [shown, List.map_map, List.pairwise_map]
    exact store.increasing.imp Utf8.encode_lt_encode
  · rw [shown] at order
    exact totalComplexity_afresh known order each
  · rw [Disk.readUnless_nothing]
    rfl

/-! Classes that share a file under two spellings, and one whose file may not be read. -/

private def shelf : Disk where
  root := .directory "src" (.file "B.java" [] (.directory "p"
    (.file "A.java" (Bytes.ofString "if (a && b) {}\nx(); // if") .empty) .empty)) .empty
  ordered := ⟨by decide, ⟨by decide, by decide, ⟨by decide, trivial⟩, trivial⟩, trivial⟩
  workPlace := []

private def refusedFile (place : Place) : Option Fault :=
  if place = ["src", "B.java"] then some .notPermitted else none

private def sharing : Store where
  records := [⟨"B", none, [], []⟩, ⟨"p..A", none, [⟨1, 1⟩], []⟩, ⟨"p.A", none, [], []⟩,
    ⟨"p.A$C", none, [], []⟩]
  increasing := by
    unfold Records.Increasing
    decide

theorem summaries_afresh_of_sharing :
    let find := SourceLookup.resolveRecord { roots := [⟨"src"⟩] } shelf
    let read := shelf.readUnless refusedFile
    find ⟨"B", none, [], []⟩ = some ⟨⟨"src"⟩, "B.java"⟩ ∧
      readablePaths find read sharing.records = [⟨"src/p//A.java"⟩,
      ⟨"src/p/A.java"⟩, ⟨"src/p/A.java"⟩] ∧
      (⟨sharing, (summarizeWith find read sharing).reverse, "UTF-8",
      0⟩ : Context).totalComplexity = 3 := by
  intro find read
  have paths : readablePaths find read sharing.records =
      [⟨"src/p//A.java"⟩, ⟨"src/p/A.java"⟩, ⟨"src/p/A.java"⟩] := by
    decide +kernel
  have each : OnePathEach [⟨"src/p/A.java"⟩] (readablePaths find read sharing.records) := by
    rw [paths]
    exact ⟨by decide +kernel, by decide +kernel, by decide +kernel⟩
  have decisions : 1 + decisionCount (read ⟨"src/p/A.java"⟩) = 3 := by decide +kernel
  have total := (summaries_afresh sharing { roots := [⟨"src"⟩] } shelf refusedFile).2.2.2.1
    ⟨sharing, (summarizeWith find read sharing).reverse, "UTF-8", 0⟩ _ (List.reverse_perm _) each
  refine ⟨by decide +kernel, paths, ?_⟩
  rw [total, List.map_singleton, List.sum_singleton]
  exact decisions

end Report
end ClassCoverage
