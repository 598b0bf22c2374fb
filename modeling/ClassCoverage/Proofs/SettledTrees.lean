import ClassCoverage.Proofs.SettledArchives
import ClassCoverage.Proofs.TreeRuns

/-! Trees of classes that stay as they are. A steady rewriter settles every tree that it rewrites in
place: all of its classes are left alone from then on, also those that are reached under other names
from a tree around it. -/
namespace ClassCoverage
variable {σ : Type}

namespace Disk

/-- Two disks with the same directories and the same files, whatever is in the files. -/
structure Alike (disk disk' : Disk) : Prop where
  workPlace : disk'.workPlace = disk.workPlace
  directory : ∀ place, disk'.kind? place = some .directory ↔ disk.kind? place = some .directory
  file : ∀ place,
    (∃ content, disk'.kind? place = some (.file content)) ↔
    ∃ content, disk.kind? place = some (.file content)

namespace Alike
variable {disk disk' : Disk}

theorem refl (disk : Disk) : Alike disk disk := ⟨rfl, fun _ => .rfl, fun _ => .rfl⟩

private theorem trans {a b c : Disk} (first : Alike a b) (second : Alike b c) : Alike a c where
  workPlace := second.workPlace.trans first.workPlace
  directory place := (second.directory place).trans (first.directory place)
  file place := (second.file place).trans (first.file place)

theorem keeps (alike : Alike disk disk') : disk.Keeps disk' :=
  ⟨alike.workPlace, fun place => (alike.directory place).mpr⟩

theorem keeps_back (alike : Alike disk disk') : disk'.Keeps disk :=
  ⟨alike.workPlace.symm, fun place => (alike.directory place).mp⟩

theorem spelled (alike : Alike disk disk') (spelled : disk.Spelled) : disk'.Spelled := by
  intro place kind found
  cases kind with
  | directory => exact spelled place _ ((alike.directory place).mp found)
  | file content =>
    obtain ⟨content', found'⟩ := (alike.file place).mp ⟨content, found⟩
    exact spelled place _ found'

theorem mem_filesBelow_iff (alike : Alike disk disk') (top below : Place) :
    below ∈ ClassTree.filesBelow disk' top ↔ below ∈ ClassTree.filesBelow disk top := by
  rw [ClassTree.mem_filesBelow_iff, ClassTree.mem_filesBelow_iff, alike.file]

end Alike

/-- A file with new content is still a file. -/
theorem Updated.alike {disk disk' : Disk} {place : Place} {content content' : Bytes}
    (updated : disk.Updated disk' place (some (.file content')))
    (file : disk.kind? place = some (.file content)) :
    Alike disk disk' where
  workPlace := updated.workPlace
  directory other := by
    rw [updated.kinds]
    split
    · rename_i here
      simp [here, file]
    · rfl
  file other := by
    rw [updated.kinds]
    split
    · rename_i here
      simp [here, file]
    · rfl

end Disk

/-- Where the archives and the class directories of a run lie. -/
structure Sites where
  archives : List Place
  trees : List Place
  deriving DecidableEq

namespace Sites

/-- A place at which one of the trees can have a class file. -/
def IsClass (sites : Sites) (place : Place) : Prop :=
  ∃ top ∈ sites.trees, ∃ below, place = top ++ below ∧
    (∀ name ∈ below, Scan.isExcluded name = false) ∧
    ClassName.isClassFile (Text.join "/" below) = true

/-- None of the archives is a class file of a tree. -/
def Apart (sites : Sites) : Prop := ∀ place ∈ sites.archives, ¬ sites.IsClass place

end Sites

/-- What rewriting leaves of a disk: every file is as it was, or a class that the rewriter knows, or
a settled archive. -/
structure Advance [Archive.Library] (rewriter : Rewriter σ) (keep : Bool) (sites : Sites)
    (disk disk' : Disk) : Prop where
  alike : disk.Alike disk'
  files : ∀ place content, disk'.kind? place = some (.file content) →
    disk.kind? place = some (.file content) ∨ (sites.IsClass place ∧ rewriter.Knows content) ∨
      (place ∈ sites.archives ∧ Archive.Settled rewriter keep content)

namespace Advance
variable {rewriter : Rewriter σ} {keep : Bool} {sites : Sites} {disk disk' : Disk}

theorem refl [Archive.Library] (disk : Disk) :
    Advance rewriter keep sites disk disk := ⟨.refl disk, fun _ _ => .inl⟩

theorem trans [Archive.Library] {a b c : Disk} (first : Advance rewriter keep sites a b)
    (second : Advance rewriter keep sites b c) :
    Advance rewriter keep sites a c where
  alike := first.alike.trans second.alike
  files place content held := by
    rcases second.files place content held with same | new
    · exact first.files place content same
    · exact .inr new

theorem of_updated [Archive.Library] {place : Place} {content content' : Bytes}
    (updated : disk.Updated disk' place (some (.file content')))
    (file : disk.kind? place = some (.file content))
    (new : sites.IsClass place ∧ rewriter.Knows content' ∨ place ∈ sites.archives ∧
      Archive.Settled rewriter keep content') : Advance rewriter keep sites disk disk' where
  alike := updated.alike file
  files other bytes held := by
    rw [updated.kinds] at held
    split at held
    · rename_i here
      cases held
      rw [here]
      exact .inr new
    · exact .inl held

/-- A settled archive remains one. -/
theorem archive [Archive.Library] {place : Place} {content' : Bytes} (apart : sites.Apart)
    (member : place ∈ sites.archives)
    (settled : ∀ content, disk.kind? place = some (.file content) →
      Archive.Settled rewriter keep content) (advance : Advance rewriter keep sites disk disk')
    (held : disk'.kind? place = some (.file content')) :
    Archive.Settled rewriter keep content' := by
  rcases advance.files place content' held with same | ⟨isClass, -⟩ | ⟨-, new⟩
  · exact settled content' same
  · exact absurd isClass (apart place member)
  · exact new

end Advance

namespace ClassTree
open ClassCoverage.Path

variable {rewriter : Rewriter σ} {keep : Bool} {sites : Sites} {disk disk' : Disk}
  {top below : Place} {path : Path}

/-- The file is no class that the rewriter would do anything with. -/
def SettledAt (rewriter : Rewriter σ) (disk : Disk) (top below : Place) : Prop :=
  ∀ content, disk.kind? (top ++ below) = some (.file content) →
    isOffered (Text.join "/" below) content.length = true →
    rewriter.LeavesAlone (Text.join "/" below) content

/-- A tree whose classes are all left alone. -/
def Settled (rewriter : Rewriter σ) (disk : Disk) (top : Place) : Prop :=
  ∀ below ∈ filesBelow disk top, SettledAt rewriter disk top below

theorem isClassFile_of_isOffered {relative : String} {size : Nat}
    (offered : isOffered relative size = true) :
    ClassName.isClassFile relative = true := by
  unfold isOffered at offered
  simp only [Bool.and_eq_true] at offered
  exact offered.1

theorem SettledAt.advance [Archive.Library] (apart : sites.Apart) (member : top ∈ sites.trees)
    (kept : ∀ name ∈ below, Scan.isExcluded name = false)
    (settled : SettledAt rewriter disk top below)
      (advance : Advance rewriter keep sites disk disk') :
    SettledAt rewriter disk' top below := by
  intro content held offered
  rcases advance.files _ content held with same | ⟨-, known⟩ | ⟨archive, -⟩
  · exact settled content same offered
  · exact known _
  · exact absurd ⟨top, member, below, rfl, kept, isClassFile_of_isOffered offered⟩ (apart _ archive)

theorem Settled.advance [Archive.Library] (apart : sites.Apart) (member : top ∈ sites.trees)
    (settled : Settled rewriter disk top) (advance : Advance rewriter keep sites disk disk') :
    Settled rewriter disk' top := by
  intro below file
  have before := (advance.alike.mem_filesBelow_iff top below).mp file
  exact (settled below before).advance apart member (mem_filesBelow_iff.mp before).2.1 advance

/-- A file of the tree that a path leads to. -/
structure FileOf (disk : Disk) (path : Path) (top below : Place) : Prop where
  resolved : disk.resolve path = .ok top
  directory : disk.kind? top = some .directory
  file : below ∈ filesBelow disk top
  named : ∀ name ∈ below, IsName name

namespace FileOf

theorem alike (fileOf : FileOf disk path top below) (same : disk.Alike disk') :
    FileOf disk' path top below where
  resolved := Disk.resolve_keep same.keeps fileOf.resolved fileOf.directory
  directory := same.keeps.directory top fileOf.directory
  file := (same.mem_filesBelow_iff top below).mpr fileOf.file
  named := fileOf.named

theorem inside (fileOf : FileOf disk path top below) :
    below ≠ [] := (mem_filesBelow_iff.mp fileOf.file).1

theorem kept (fileOf : FileOf disk path top below) : ∀ name ∈ below, Scan.isExcluded name = false :=
  (mem_filesBelow_iff.mp fileOf.file).2.1

theorem content (fileOf : FileOf disk path top below) :
    ∃ content, disk.kind? (top ++ below) = some (.file content) :=
  (mem_filesBelow_iff.mp fileOf.file).2.2

theorem relative (fileOf : FileOf disk path top below) :
    (Scan.pathTo path below).relativeTo path = Text.join "/" below :=
  relativeTo_pathTo (Disk.spelling_of_resolve fileOf.resolved) fileOf.named

theorem aims (fileOf : FileOf disk path top below) :
    disk.Aims (path.join ⟨Text.join "/" below⟩) (top ++ below) (disk.wayTo path below) := by
  rw [← Disk.aim_of_resolve fileOf.resolved]
  exact Disk.aims_join disk path fileOf.inside fileOf.named

/-- All directories above the file are there. -/
theorem above (fileOf : FileOf disk path top below) (rooted : disk.Rooted) :
    ∀ stop ∈ disk.wayTo path below, disk.kind? stop = some .directory := by
  obtain ⟨content, held⟩ := fileOf.content
  have resolved := fileOf.resolved
  unfold Disk.resolve at resolved
  split at resolved
  · cases resolved
  · have walked : Disk.walk disk.root (disk.start path) path.steps = some top :=
      Disk.walk_of_follow_directory resolved fileOf.directory
    have parent : disk.root.kind? (top ++ below.dropLast) = some .directory := by
      rw [← List.dropLast_append_getLast fileOf.inside, ← List.append_assoc] at held
      exact Listing.kind?_of_append held (by simp)
    have named : ∀ name ∈ below.dropLast, IsName name := fun name member =>
      fileOf.named name (List.dropLast_subset _ member)
    have whole : Disk.walk disk.root (disk.start path) (path.steps ++ below.dropLast) =
        some (top ++ below.dropLast) := by
      rw [Disk.walk_append walked]
      exact Disk.walk_names named parent
    exact ((Disk.walk_eq_some_iff (Disk.Lands.kind?_start rooted path)).mp whole).1

/-- All directories on the way are there, if the destination is the tree itself. -/
theorem ways (fileOf : FileOf disk path top below) (rooted : disk.Rooted) {destination : Path}
    (same : sameDirectory disk path destination = true) :
    ∀ stop ∈ disk.wayTo destination below, disk.kind? stop = some .directory := by
  unfold sameDirectory samePlace Disk.canonical? at same
  rw [fileOf.resolved] at same
  cases found : disk.resolve destination with
  | error fault =>
    have parts : path.parts = destination.parts := by simpa [found, Except.toOption] using same
    obtain ⟨absolute, steps⟩ := eq_of_parts parts
    have way : disk.wayTo destination below = disk.wayTo path below := by
      unfold Disk.wayTo Disk.start
      rw [absolute, steps]
    rw [way]
    exact fileOf.above rooted
  | ok place =>
    obtain rfl : top = place := by simpa [found, Except.toOption] using same
    have other : FileOf disk destination top below :=
      ⟨found, fileOf.directory, fileOf.file, fileOf.named⟩
    exact other.above rooted

/-- A file of the tree may be written where it is. -/
theorem open_ (fileOf : FileOf disk path top below) (rooted : disk.Rooted) :
    disk.Open (disk.wayTo path below) (top ++ below) := by
  obtain ⟨old, held⟩ := fileOf.content
  have above := fileOf.above rooted
  exact {
    clear := fun stop member content file => by
      rw [above stop member] at file
      cases file
    free := by simp [held]
    apart := fun member => by
      rw [above _ member] at held
      cases held }

/-- A file of the tree that was written is the only one that changed. -/
theorem updated_of_placed {content : Bytes} (fileOf : FileOf disk path top below)
    (rooted : disk.Rooted)
    (placed : disk.Placed disk' (disk.wayTo path below) (top ++ below) content) :
    disk.Updated disk' (top ++ below) (some (.file content)) := by
  refine ⟨placed.workPlace, (fileOf.open_ rooted).free, by simp, fun place => ?_⟩
  rw [placed.kinds]
  split
  · rfl
  · split
    · rename_i member
      exact (fileOf.above rooted place member).symm
    · rfl

private theorem updated {content : Bytes} {bench : Bench σ} {shop' : Workshop σ}
    (fileOf : FileOf disk path top below) (rooted : disk.Rooted)
    (run : ((writeClass (path.join ⟨Text.join "/" below⟩) content).carryOut rewriter).run.run ⟨disk,
      bench⟩ = (.ok (), shop')) :
    disk.Updated shop'.disk (top ++ below) (some (.file content)) ∧ shop'.bench = bench := by
  obtain ⟨same, -, placed⟩ :=
    ((puts_writeClass rooted fileOf.aims content).ok_iff rewriter bench).mp run
  exact ⟨fileOf.updated_of_placed rooted placed, same⟩

/-- In place, a file that is offered to the rewriter is written if it was transformed, and other
files are passed over. -/
theorem run_rewriteFile {content : Bytes} (fileOf : FileOf disk path top below)
    (held : disk.kind? (top ++ below) = some (.file content)) (summary : Summary)
      (bench : Bench σ) :
    ((rewriteFile path path true summary (Scan.pathTo path below)).carryOut rewriter).run.run ⟨disk,
    bench⟩ =
      if isOffered (Text.join "/" below) content.length then
        ((do
          let rewritten ← rewriteClass true (Text.join "/" below) (path.join ⟨Text.join "/" below⟩)
            content
          let summary := { summary with classes := summary.classes + 1 }
          if rewritten.transformed then return {
            summary with transformed := summary.transformed + 1 }
          else return { summary with copied := summary.copied + 1 } :
          Course Summary).carryOut rewriter).run.run
            ⟨disk, bench⟩
      else (.ok { summary with copied := summary.copied + 1 }, ⟨disk, bench⟩) := by
  have lands := Scan.lands_pathTo fileOf.resolved fileOf.directory fileOf.inside fileOf.named held
  unfold rewriteFile
  simp only [fileOf.relative]
  rw [Course.run_bind, Course.run_see, lands.size held]
  simp only [Except.mapError]
  split
  · rw [Course.run_bind, Course.run_see, lands.read held]
    rfl
  · rfl

end FileOf

/-- A steady rewriter settles every file it comes to. -/
theorem advance_of_rewriteFile [Archive.Library] (steady : rewriter.Steady) (rooted : disk.Rooted)
    (member : top ∈ sites.trees) (fileOf : FileOf disk path top below) {bench : Bench σ}
    {summary summary' : Summary} {shop' : Workshop σ}
    (run : ((rewriteFile path path true summary (Scan.pathTo path below)).carryOut rewriter).run.run
      ⟨disk, bench⟩ = (.ok summary', shop')) :
    Advance rewriter keep sites disk shop'.disk ∧ SettledAt rewriter shop'.disk top below := by
  obtain ⟨content, held⟩ := fileOf.content
  rw [fileOf.run_rewriteFile held] at run
  split at run
  · rename_i offered
    obtain ⟨answer, middle, first, rest⟩ := Course.run_bind_ok run
    obtain rfl : shop' = middle := by
      split at rest
      · cases rest
        rfl
      · cases rest
        rfl
    obtain ⟨bench', answered, done⟩ := rewriteClass_ok_iff.mp first
    simp only [Bool.not_true, Bool.or_false] at done
    split at done
    · rename_i new
      have known := steady.knows answered new
      obtain ⟨updated, -⟩ := fileOf.updated rooted done
      have isClass : sites.IsClass (top ++ below) :=
        ⟨top, member, below, rfl, fileOf.kept, isClassFile_of_isOffered offered⟩
      refine ⟨.of_updated updated held (.inl ⟨isClass, known⟩), ?_⟩
      intro content' held' _
      cases updated.here.symm.trans held'
      exact known _
    · rename_i old
      cases done
      refine ⟨.refl disk, ?_⟩
      intro content' held' _
      cases held.symm.trans held'
      exact steady.leavesAlone answered (Bool.eq_false_iff.mpr old)
  · rename_i passed
    cases run
    refine ⟨.refl disk, ?_⟩
    intro content' held' offered
    cases held.symm.trans held'
    exact absurd offered passed

private theorem advance_of_files [Archive.Library] (steady : rewriter.Steady) (apart : sites.Apart)
    (rooted : disk.Rooted) (member : top ∈ sites.trees) {files : List Place}
    (found : ∀ below ∈ files, FileOf disk path top below) {bench : Bench σ}
    {summary summary' : Summary} {shop' : Workshop σ}
    (run : ((files.foldlM (fun summary below =>
      rewriteFile path path true summary (Scan.pathTo path below)) summary).carryOut
        rewriter).run.run ⟨disk, bench⟩ = (.ok summary', shop')) :
    Advance rewriter keep sites disk shop'.disk ∧ ∀ below ∈ files,
    SettledAt rewriter shop'.disk top below := by
  induction files generalizing disk bench summary with
  | nil =>
    cases run
    exact ⟨.refl disk, by simp⟩
  | cons below files ih =>
    rw [List.forall_mem_cons] at found
    rw [List.foldlM_cons] at run
    obtain ⟨_, middle, first, later⟩ := Course.run_bind_ok run
    obtain ⟨one, settled⟩ : Advance rewriter keep sites disk middle.disk ∧ _ :=
      advance_of_rewriteFile steady rooted member found.1 first
    have found' : ∀ other ∈ files, FileOf middle.disk path top other :=
      fun other held => (found.2 other held).alike one.alike
    obtain ⟨others, rest⟩ := ih (rooted.keep one.alike.keeps) found' later
    exact ⟨one.trans others,
      List.forall_mem_cons.mpr ⟨settled.advance apart member found.1.kept others, rest⟩⟩

theorem sameDirectory_self (resolved : disk.resolve path = .ok top) :
    sameDirectory disk path path = true := by
  unfold sameDirectory samePlace Disk.canonical?
  simp [resolved, Except.toOption]

/-- What lies below a directory that a path leads to. -/
theorem fileOf_of_mem (spelled : disk.Spelled) (resolved : disk.resolve path = .ok top)
    (file : below ∈ filesBelow disk top) : FileOf disk path top below where
  resolved := resolved
  directory := kind?_of_filesBelow (List.ne_nil_of_mem file)
  file := file
  named name part := by
    obtain ⟨-, -, content, held⟩ := mem_filesBelow_iff.mp file
    exact spelled _ _ held name (List.mem_append_right top part)

/-- Nothing is done for a path that leads to no directory. -/
theorem run_rewrite_of_missing {shop : Workshop σ} (missing : shop.disk.isDirectory path = false)
    (destination : Path) : (rewrite path destination rewriter).run.run shop = (.ok {}, shop) := by
  unfold rewrite course
  rw [Course.run_bind, Course.run_disk]
  simp only [missing, Bool.not_false, ↓reduceIte]
  rfl

/-- A tree that a steady rewriter has rewritten in place is settled. -/
theorem advance_of_rewrite [Archive.Library] (steady : rewriter.Steady) (apart : sites.Apart)
    {shop shop' : Workshop σ} (rooted : shop.disk.Rooted) (spelled : shop.disk.Spelled)
    (member : ∀ top, shop.disk.resolve path = .ok top → shop.disk.kind? top = some .directory →
      top ∈ sites.trees) {summary : Summary}
    (run : (rewrite path path rewriter).run.run shop = (.ok summary, shop')) :
    Advance rewriter keep sites shop.disk shop'.disk ∧
      ∀ top, shop'.disk.resolve path = .ok top → Settled rewriter shop'.disk top := by
  cases directory : shop.disk.isDirectory path with
  | false =>
    rw [run_rewrite_of_missing directory] at run
    cases run
    refine ⟨.refl _, ?_⟩
    intro top resolved below file
    have there :=
      Disk.isDirectory_of_resolve resolved (kind?_of_filesBelow (List.ne_nil_of_mem file))
    exact absurd (directory.symm.trans there) Bool.false_ne_true
  | true =>
    obtain ⟨top, listing, resolved, here⟩ := Disk.resolve_of_isDirectory directory
    have inside := member top resolved (Disk.at?_eq_directory_iff.mp ⟨listing, here⟩)
    rw [rewrite, run_course_of_files resolved here, sameDirectory_self resolved] at run
    have found := fun below => @fileOf_of_mem _ top below path spelled resolved
    obtain ⟨advance, settled⟩ : Advance rewriter keep sites shop.disk shop'.disk ∧ _ :=
      advance_of_files steady apart rooted inside found run
    refine ⟨advance, ?_⟩
    intro top' resolved' below file
    have alike := advance.alike
    obtain rfl : top' = top := by
      rw [← Disk.aim_of_resolve resolved, ← Disk.aim_keep alike.workPlace,
        Disk.aim_of_resolve resolved']
    exact settled below ((alike.mem_filesBelow_iff top' below).mp file)

/-- A file of a settled tree is offered to the rewriter, if at all, and left as it is. -/
theorem run_rewriteFile_of_settled (fileOf : FileOf disk path top below)
    (settled : SettledAt rewriter disk top below) (summary : Summary) (bench : Bench σ) :
    ∃ summary' bench', ((rewriteFile path path true summary
      (Scan.pathTo path below)).carryOut rewriter).run.run
        ⟨disk, bench⟩ =
        (.ok summary', ⟨disk, bench'⟩) ∧
      summary'.transformed = summary.transformed ∧ bench'.store = bench.store := by
  obtain ⟨content, held⟩ := fileOf.content
  rw [fileOf.run_rewriteFile held]
  split
  · rename_i offered
    obtain ⟨answer, bench', answered, same, store⟩ := settled content held offered bench
    have left : ((rewriteClass true (Text.join "/" below) (path.join ⟨Text.join "/" below⟩)
        content).carryOut
        rewriter).run.run ⟨disk, bench⟩ = (.ok answer, ⟨disk, bench'⟩) := by
      refine rewriteClass_ok_iff.mpr ⟨bench', answered, ?_⟩
      simp only [same, Bool.not_true, Bool.or_self, Bool.false_eq_true, ↓reduceIte]
      rfl
    rw [Course.run_bind, left]
    simp only [same, Bool.false_eq_true, ↓reduceIte]
    exact ⟨_, bench', rfl, rfl, store⟩
  · exact ⟨_, bench, rfl, rfl, rfl⟩

private theorem run_files_of_settled {files : List Place}
    (found : ∀ below ∈ files, FileOf disk path top below)
    (settled : ∀ below ∈ files, SettledAt rewriter disk top below) (summary : Summary)
    (bench : Bench σ) :
    ∃ summary' bench', ((files.foldlM (fun summary below =>
        rewriteFile path path true summary (Scan.pathTo path below)) summary).carryOut
          rewriter).run.run ⟨disk, bench⟩ =
        (.ok summary', ⟨disk, bench'⟩) ∧
      summary'.transformed = summary.transformed ∧ bench'.store = bench.store := by
  induction files generalizing bench summary with
  | nil => exact ⟨summary, bench, rfl, rfl, rfl⟩
  | cons below files ih =>
    rw [List.forall_mem_cons] at found settled
    obtain ⟨_, middle, first, count, store⟩ :=
      run_rewriteFile_of_settled found.1 settled.1 summary bench
    obtain ⟨_, bench', later, count', store'⟩ := ih found.2 settled.2 _ middle
    rw [List.foldlM_cons, Course.run_bind, first]
    exact ⟨_, bench', later, count'.trans count, store'.trans store⟩

/-- Rewriting a settled tree in place leaves the disk and the store as they are. -/
theorem run_rewrite_of_settled (spelled : disk.Spelled)
    (settled : ∀ top, disk.resolve path = .ok top → Settled rewriter disk top) (bench : Bench σ) :
    ∃ summary bench', (rewrite path path rewriter).run.run ⟨disk, bench⟩ =
      (.ok summary, ⟨disk, bench'⟩) ∧
      summary.transformed = 0 ∧ bench'.store = bench.store := by
  cases directory : disk.isDirectory path with
  | false => exact ⟨_, bench, run_rewrite_of_missing directory path, rfl, rfl⟩
  | true =>
    obtain ⟨top, listing, resolved, here⟩ := Disk.resolve_of_isDirectory directory
    rw [rewrite, run_course_of_files resolved here, sameDirectory_self resolved]
    exact run_files_of_settled (fun below => fileOf_of_mem spelled resolved)
      (settled top resolved) {} bench

end ClassTree
end ClassCoverage
