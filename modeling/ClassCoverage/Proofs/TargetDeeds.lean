import ClassCoverage.Instrument.Crew
import ClassCoverage.Proofs.ArchiveDeeds
import ClassCoverage.Proofs.CollectedTargets
import ClassCoverage.Proofs.TreeDeeds

/-! What the rewriting of a target comes to, and what it has to do with the rest of the disk: some
files are read, some are written, and no other file counts. -/
namespace ClassCoverage

namespace Target

/-- Is the file at a place read? -/
def Reads (disk : Disk) : Target → Place → Prop
  | .archive path, place => place = disk.aim path
  | .directory path, place => ClassTree.Reached (disk.aim path) place

instance (disk : Disk) : (target : Target) → (place : Place) → Decidable (target.Reads disk place)
  | .archive path, place => inferInstanceAs (Decidable (place = disk.aim path))
  | .directory path, place => inferInstanceAs (Decidable (ClassTree.Reached (disk.aim path) place))

/-- The places of the files that can be written. Classes go to the output directory, if there is
one. -/
def goals (output? : Option Path) (disk : Disk) : Target → List Place
  | .archive path => [disk.aim path]
  | .directory path => ClassTree.goals disk path (output?.getD path)

/-- The files of a target at the start, and those that can be written. -/
def files (output? : Option Path) (disk : Disk) : Target → List Place
  | .archive path => [disk.aim path]
  | .directory path => (ClassTree.filesBelow disk (disk.aim path)).map (disk.aim path ++ ·) ++
      ClassTree.goals disk path (output?.getD path)

/-- The directories that are made for the files that can be written, if they are not there. -/
def ways (output? : Option Path) (disk : Disk) : Target → List Place
  | .archive _ => []
  | .directory path =>
    (ClassTree.filesBelow disk (disk.aim path)).flatMap (disk.wayTo (output?.getD path))

/-- Where files come and go: an archive is moved to a copy, and removed, before it is written
anew. -/
def Loose (disk : Disk) : Target → Place → Prop
  | .archive path, place => place = disk.aim path ∨ Archive.IsSpare (disk.aim path) place
  | .directory _, _ => False

/-- Where the files of one target come and go, the other one neither reads nor writes, nor has to
make a directory. -/
def Aside (output? : Option Path) (disk : Disk) (one other : Target) : Prop :=
  ∀ place, one.Loose disk place → place ∉ other.goals output? disk ∧ ¬ other.Reads disk place ∧
    (place ∈ other.ways output? disk → disk.kind? place = some .directory)

/-- What one target writes the other one neither reads nor writes. -/
structure Separate (output? : Option Path) (disk : Disk) (one other : Target) : Prop where
  writes : ∀ place ∈ one.goals output? disk, place ∉ other.goals output? disk
  forth : ∀ place ∈ one.goals output? disk, ¬ other.Reads disk place
  back : ∀ place ∈ other.goals output? disk, ¬ one.Reads disk place
  aside : one.Aside output? disk other
  asideBack : other.Aside output? disk one

theorem Separate.symm {output? : Option Path} {disk : Disk} {one other : Target}
    (separate : Separate output? disk one other) : Separate output? disk other one :=
  ⟨fun place own theirs => separate.writes place theirs own, separate.back,
    separate.forth, separate.asideBack,
    separate.aside⟩

instance (output? : Option Path) (disk : Disk) :
    Std.Symm (Separate output? disk) := ⟨fun _ _ => Separate.symm⟩

/-- The classes of a target, with their names and contents. -/
def classes [Archive.Library] (disk : Disk) : Target → List (String × Bytes)
  | .archive path =>
    match disk.kind? (disk.aim path) with
    | some (.file content) => Archive.classes content
    | _ => []
  | .directory path => ClassTree.classes disk (disk.aim path)

/-- None of the files of a target is written over before it is read. -/
def Tidy (output? : Option Path) (disk : Disk) : Target → Prop
  | .archive _ => True
  | .directory path => ClassTree.Tidy disk path (output?.getD path)

/-- A target that is found under its path: an archive that is there, or a tree whose names can be
spelled. -/
inductive Ready (disk : Disk) : Target → Prop where
  | archive {path : Path} (file : disk.isFile path = true) : Ready disk (.archive path)
  | directory {path : Path} (found : ClassTree.Found disk path)
      (named : ∀ below ∈ ClassTree.filesBelow disk (disk.aim path),
      ∀ name ∈ below, Path.IsName name) :
      Ready disk (.directory path)

/-- Two disks on which the same becomes of a target. -/
structure Agree (target : Target) (output? : Option Path) (disk disk' : Disk) : Prop where
  files : Delta.Agree (target.Reads disk) disk disk'
  inPlace : ∀ path, target = .directory path → ClassTree.filesBelow disk (disk.aim path) ≠ [] →
    ClassTree.sameDirectory disk' path (output?.getD path) =
      ClassTree.sameDirectory disk path (output?.getD path)

theorem kind?_of_isFile {disk : Disk} (rooted : disk.Rooted) {path : Path}
    (file : disk.isFile path = true) :
    ∃ content, disk.Lands path (disk.aim path) ∧ disk.kind? (disk.aim path) =
      some (.file content) := by
  obtain ⟨place, content, lands, held⟩ := Disk.lands_of_isFile rooted file
  obtain rfl : disk.aim path = place := Disk.aim_of_resolve (lands.resolve held)
  exact ⟨content, lands, held⟩

/-- The same becomes of a target while its files stay as they are, if no directory was made on the
way to an output directory that is the target itself. -/
theorem Ready.agree {output? : Option Path} {disk disk' : Disk} {target : Target}
    (keeps : disk.Keeps disk') (ready : Ready disk target)
    (files : Delta.Agree (target.Reads disk) disk disk')
    (back : ∀ path output, target = .directory path → output? = some output →
      disk.aim output = disk.aim path → disk'.Keeps disk) : target.Agree output? disk disk' where
  files := files
  inPlace path same inside := by
    subst same
    cases ready with
    | directory found named =>
      have resolved := found inside
      have directory := ClassTree.kind?_of_filesBelow inside
      have resolved' := Disk.resolve_keep keeps resolved directory
      apply ClassTree.sameDirectory_congr keeps.workPlace resolved resolved'
      cases output? with
      | none => exact ⟨fun _ => resolved, fun _ => resolved'⟩
      | some output =>
        constructor
        · intro after
          have aim := Disk.aim_of_resolve after
          rw [Disk.aim_keep keeps.workPlace] at aim
          exact Disk.resolve_keep (back path output rfl rfl aim) after (keeps.directory _ directory)
        · intro before
          exact Disk.resolve_keep keeps before directory

end Target

namespace Instrument
variable {σ : Type} {options : Options} {plan : Plan} {disk disk' : Disk}

/-- What becomes of a target, on a disk that was like this at the start. -/
def doTarget [Archive.Library] (options : Options) (plan : Plan) (disk : Disk) :
    Target → Doing Summary
  | .archive path => do
    let done ← Archive.doArchive plan
        { keepDirectoryEntries := options.keepDirectoryEntries } disk path
    return { archives := 1, classes := done.classes, transformed := done.transformed }
  | .directory path => do
    let done ← ClassTree.doTree plan disk path (options.outputDirectory.getD path)
    return { directories := 1, classes := done.classes, transformed := done.transformed }

theorem spreads_doTarget [Archive.Library] (target : Target) :
    (doTarget options plan disk target).Always
      (Deed.Spreads (target.goals options.outputDirectory disk)) := by
  cases target with
  | archive path => exact .bind (Archive.spreads_doArchive plan _ disk path) fun _ => .pure _
  | directory path => exact .bind (ClassTree.spreads_doTree plan disk path _) fun _ => .pure _

/-- The records of a target are those of its classes. -/
theorem records_of_doTarget [Archive.Library] {target : Target} {summary : Summary} {deed : Deed}
    (rooted : disk.Rooted) (ready : target.Ready disk)
    (tidy : target.Tidy options.outputDirectory disk)
    (made : (doTarget options plan disk target).run {} = some (summary, deed)) :
    deed.records = plan.recordsOf (target.classes disk) := by
  cases ready with
  | @archive path file =>
    obtain ⟨content, -, held⟩ := Target.kind?_of_isFile rooted file
    obtain ⟨done, deed, first, rest⟩ := Doing.run_bind_some made
    cases rest
    rw [Target.classes, held]
    exact Archive.records_of_doArchive held first
  | directory found named =>
    obtain ⟨done, deed, first, rest⟩ := Doing.run_bind_some made
    cases rest
    exact ClassTree.records_of_doTree tidy first

/-- The rewriting of a target ends as its deed says. -/
theorem ends_course [Archive.Library] {rewriter : Rewriter σ} {origin : Workshop σ}
    {target : Target} (rooted : origin.disk.Rooted) (follows : rewriter.Follows plan)
    (ready : target.Ready origin.disk) :
    Ends rewriter (course options target) origin origin
      ((doTarget options plan origin.disk target).run {}) := by
  cases ready with
  | archive file => exact .map _ (Archive.ends_course rooted follows file)
  | directory found named => exact .map _ (ClassTree.ends_course rooted follows named found)

end Instrument
end ClassCoverage
