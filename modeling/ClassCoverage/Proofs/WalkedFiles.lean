import ClassCoverage.Proofs.StepRuns
import ClassCoverage.Proofs.TextOrder
import ClassCoverage.Proofs.TreePaths

/-! What a scan answers: every wanted file below its root, under a path that leads to it, once and
in path order. The parts of paths are ordered as their bytes are, so the files below a root are in
path order when the names on their ways are. -/
namespace ClassCoverage

namespace Path

def Part.bytes (part : Part) : Bytes := Utf8.encode part.text.toList

/-- Paths are compared part by part, and parts by their bytes. -/
def Precedes (one other : Path) : Prop := one.parts.map Part.bytes < other.parts.map Part.bytes

instance (one other : Path) : Decidable (Precedes one other) :=
  inferInstanceAs (Decidable (one.parts.map Part.bytes < other.parts.map Part.bytes))

/-- A slash comes before every character of a name. -/
example : Precedes ⟨"a/x"⟩ ⟨"a.b/x"⟩ ∧ ¬ ("a/x" < "a.b/x") := by decide

private theorem names_lt {one other : Place} (less : one < other) :
    (one.map Part.name).map Part.bytes < (other.map Part.name).map Part.bytes := by
  induction less with
  | nil => exact List.nil_lt_cons ..
  | cons _ ih => exact List.cons_lt_cons_iff.mpr (.inr ⟨rfl, ih⟩)
  | rel less => exact List.cons_lt_cons_iff.mpr (.inl ((Utf8.encode_lt_iff _ _).mpr less))

/-- Below a root, paths are ordered as the places they lead to. -/
theorem precedes_pathTo {root : Path} (nonempty : root.spelling ≠ "") {one other : Place}
    (own : ∀ name ∈ one, IsName name) (own' : ∀ name ∈ other, IsName name) (less : one < other) :
    Precedes (Scan.pathTo root one) (Scan.pathTo root other) := by
  unfold Precedes
  rw [parts_pathTo nonempty own, parts_pathTo nonempty own', List.map_append, List.map_append]
  exact List.append_left_lt (names_lt less)

end Path

namespace Scan
open ClassCoverage.Path

/-- A regular file below a directory, by the names that lead to it from there. None of these is
excluded, its own included; the names that lead to the directory do not count. -/
structure Wanted (disk : Disk) (top below : Place) : Prop where
  inside : below ≠ []
  kept : ∀ name ∈ below, isExcluded name = false
  file : ∃ content, disk.kind? (top ++ below) = some (.file content)

/-- What a scan for the chosen files below a root answers. -/
structure Walked (disk : Disk) (root : Path) (top : Place) (chosen : Place → Prop)
    (paths : List Path) : Prop where
  found : ∀ path, path ∈ paths ↔ ∃ below, Wanted disk top below ∧ chosen below ∧
    path = pathTo root below
  once : (paths.map disk.resolve).Nodup
  increasing : paths.Pairwise Precedes

theorem Walked.congr {disk : Disk} {root : Path} {top : Place} {chosen chosen' : Place → Prop}
    {paths : List Path} (walked : Walked disk root top chosen paths)
    (same : ∀ below, Wanted disk top below → (chosen below ↔ chosen' below)) :
    Walked disk root top chosen' paths where
  found path := by
    rw [walked.found]
    refine exists_congr fun below => and_congr_right fun wanted => ?_
    rw [same below wanted]
  once := walked.once
  increasing := walked.increasing

private theorem mem_places_iff_wanted {disk : Disk} {top below : Place} {listing : Listing}
    (found : disk.at? top = some (.directory listing)) :
    below ∈ places isExcluded listing ↔ Wanted disk top below := by
  rw [mem_places_iff (Listing.ordered_at? disk.ordered found)]
  constructor
  · rintro ⟨inside, kept, file⟩
    exact ⟨inside, kept, by simpa only [Disk.kind?_below found] using file⟩
  · rintro ⟨inside, kept, file⟩
    exact ⟨inside, kept, by simpa only [Disk.kind?_below found] using file⟩

section
variable {disk : Disk} {root : Path} {top below : Place}

theorem Wanted.named (wanted : Wanted disk top below) (spelled : disk.Spelled) :
    ∀ name ∈ below, IsName name := by
  obtain ⟨content, file⟩ := wanted.file
  exact fun name member => spelled _ _ file name (List.mem_append_right top member)

/-- The path of a wanted file leads to it. -/
theorem Wanted.resolve (wanted : Wanted disk top below) (spelled : disk.Spelled)
    (resolved : disk.resolve root = .ok top) (directory : disk.kind? top = some .directory) :
    disk.resolve (pathTo root below) = .ok (top ++ below) := by
  obtain ⟨content, file⟩ := wanted.file
  exact (lands_pathTo resolved directory wanted.inside (wanted.named spelled) file).resolve file

/-- A scan of a directory always succeeds, and leaves the disk as it is. -/
theorem walked_collectMatching (spelled : disk.Spelled) (resolved : disk.resolve root = .ok top)
    (directory : disk.kind? top = some .directory) (keep : Path → Bool) :
    ∃ paths, (collectMatching keep root).run.run disk = (.ok paths, disk) ∧
      Walked disk root top (fun below => keep (pathTo root below) = true) paths := by
  obtain ⟨listing, found⟩ := Disk.at?_eq_directory_iff.mpr directory
  have nonempty : root.spelling ≠ "" := Disk.spelling_of_resolve resolved
  have wanted {below : Place} (member : below ∈ places isExcluded listing) :
      Wanted disk top below :=
    (mem_places_iff_wanted found).mp member
  have increasing : (places isExcluded listing).Pairwise (· < ·) :=
    increasing_places (Listing.ordered_at? disk.ordered found)
  refine ⟨_, Action.run_look_ok (filesMatching_eq resolved found keep), ?_, ?_, ?_⟩
  · intro path
    rw [List.mem_filter, List.mem_map]
    constructor
    · rintro ⟨⟨below, member, rfl⟩, kept⟩
      exact ⟨below, wanted member, kept, rfl⟩
    · rintro ⟨below, wanted, kept, rfl⟩
      exact ⟨⟨below, (mem_places_iff_wanted found).mpr wanted, rfl⟩, kept⟩
  · -- Different names lead to different places.
    apply List.pairwise_map.mpr
    apply List.Pairwise.filter
    apply List.pairwise_map.mpr
    refine increasing.imp_of_mem fun member member' less same => ?_
    rw [(wanted member).resolve spelled resolved directory,
      (wanted member').resolve spelled resolved directory,
      Except.ok.injEq] at same
    rw [List.append_cancel_left same] at less
    exact List.lt_irrefl _ less
  · apply List.Pairwise.filter
    apply List.pairwise_map.mpr
    exact increasing.imp_of_mem fun member member' less =>
      precedes_pathTo nonempty ((wanted member).named spelled) ((wanted member').named spelled) less

/-- Scans list exactly the wanted files below their root that they are asked for, each once and in
path order: those that a predicate keeps, all of them, or those of a given name. -/
theorem scans_walk (spelled : disk.Spelled) (resolved : disk.resolve root = .ok top)
    (directory : disk.kind? top = some .directory) :
    (∀ below, Wanted disk top below → (pathTo root below).parts = root.parts ++ below.map .name ∧
      disk.resolve (pathTo root below) = .ok (top ++ below)) ∧
    (∀ keep, ∃ paths, (collectMatching keep root).run.run disk = (.ok paths, disk) ∧
      Walked disk root top (fun below => keep (pathTo root below) = true) paths) ∧
    (∃ paths, (collectFiles root).run.run disk = (.ok paths, disk) ∧ Walked disk root top (fun _ =>
    True) paths) ∧
    ∀ name, ∃ paths, (discover name root).run.run disk = (.ok paths, disk) ∧
      Walked disk root top (fun below => below.getLast? = some name) paths := by
  have nonempty : root.spelling ≠ "" := Disk.spelling_of_resolve resolved
  refine ⟨fun below wanted => ⟨?_, ?_⟩, ?_, ?_, fun name => ?_⟩
  · exact parts_pathTo nonempty (wanted.named spelled)
  · exact wanted.resolve spelled resolved directory
  · exact walked_collectMatching spelled resolved directory
  · obtain ⟨paths, run, walked⟩ := walked_collectMatching spelled resolved directory fun _ => true
    exact ⟨paths, run, walked.congr fun _ _ => by simp⟩
  · obtain ⟨paths, run, walked⟩ :=
      walked_collectMatching spelled resolved directory fun path => path.fileName? == some name
    refine ⟨paths, run, walked.congr fun below wanted => ?_⟩
    rw [fileName?_pathTo nonempty (wanted.named spelled) wanted.inside, beq_iff_eq]

end

/-! A root that is excluded itself, with excluded names at several depths below it. -/

private def excludedRoot : Disk where
  root := .directory ".svn" (.directory ".git" (.file "HEAD" [] .empty)
    (.directory "a" (.file "x" [] .empty)
    (.directory "a.b" (.file "x" [] (.file "x~" [] .empty)) .empty))) .empty
  ordered := ⟨by decide, ⟨by decide, ⟨by decide, trivial⟩, by decide, ⟨by decide, trivial⟩,
    by decide, ⟨by decide, by decide, trivial⟩, trivial⟩, trivial⟩
  workPlace := []

theorem scans_walk_of_excluded_root :
    (collectFiles ⟨"./.svn"⟩).run.run excludedRoot =
      (.ok [⟨"./.svn/a/x"⟩, ⟨"./.svn/a.b/x"⟩], excludedRoot) ∧
      Walked excludedRoot ⟨"./.svn"⟩ [".svn"] (fun _ => True) [⟨"./.svn/a/x"⟩,
      ⟨"./.svn/a.b/x"⟩] := by
  have spelled : excludedRoot.Spelled := Disk.spelled_of_root (by decide)
  have resolved : excludedRoot.resolve ⟨"./.svn"⟩ = .ok [".svn"] := by decide
  have directory : excludedRoot.kind? [".svn"] = some .directory := by decide
  obtain ⟨-, -, ⟨paths, run, walked⟩, -⟩ := scans_walk spelled resolved directory
  have answer : ((collectFiles ⟨"./.svn"⟩).run.run excludedRoot).1 = .ok [⟨"./.svn/a/x"⟩,
      ⟨"./.svn/a.b/x"⟩] := by decide
  rw [run, Except.ok.injEq] at answer
  rw [← answer]
  exact ⟨run, walked⟩

end Scan
end ClassCoverage
