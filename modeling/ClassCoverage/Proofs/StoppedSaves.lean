import ClassCoverage.Proofs.MetadataSave
import ClassCoverage.Proofs.TreePaths

/-! Saves that stop or fail on their way. Wherever a save ends, its file is as it was or holds the
whole store. The temporary file is left over only where the save was stopped from outside. -/
namespace ClassCoverage

namespace Disk
open ClassCoverage.Path

/-- The place of a file next to that of a path. -/
def sibling (disk : Disk) (path : Path) (name : String) : Place := disk.aim path.directory ++ [name]

/-- A path that is missing does not lead through its own place, where a directory would have to be
made for it. -/
def Straight (disk : Disk) (path : Path) : Prop :=
  disk.kind? (disk.aim path) = none →
    disk.aim path ∉ way (disk.start path.directory) path.directory.steps

namespace Updated
variable {a b c : Disk} {place : Place} {kind kind' : Option Kind}

theorem again (first : Updated a b place kind) (second : Updated b c place kind') :
    Updated a c place kind' where
  workPlace := second.workPlace.trans first.workPlace
  free := first.free
  leaf := second.leaf
  kinds other := by
    rw [second.kinds]
    split
    · rfl
    · rename_i apart
      exact first.elsewhere apart

theorem undone (first : Updated a b place kind)
    (second : Updated b c place (a.kind? place)) : c = a := by
  apply eq_of_kinds (second.workPlace.trans first.workPlace)
  intro other
  rw [(first.again second).kinds]
  split
  · rename_i same
    rw [same]
  · rfl

end Updated

/-- Nothing is removed where nothing is. -/
theorem removeFile_of_absent {disk : Disk} {path : Path}
    (absent : disk.kind? (disk.aim path) = none) :
    (disk.removeFile path).toOption.getD disk = disk := by
  cases removed : disk.removeFile path with
  | error fault => rfl
  | ok disk' =>
    unfold removeFile at removed
    cases resolved : disk.resolve path with
    | error fault => simp [resolved, bind, Except.bind] at removed
    | ok place =>
      rw [aim_of_resolve resolved] at absent
      have missing : disk.at? place = none := Option.map_eq_none_iff.mp absent
      simp [resolved, bind, Except.bind, missing] at removed

/-- New directories are all that is new. -/
theorem Extended.cases {disk disk' : Disk} {places : List Place}
    (extended : Extended disk disk' places) (clear : disk.Clear places) (place : Place) :
    disk'.kind? place = disk.kind? place ∨
      disk.kind? place = none ∧ place ∈ places ∧ disk'.kind? place = some .directory := by
  rw [extended.kinds]
  split
  · rename_i member
    cases before : disk.kind? place with
    | none => exact .inr ⟨rfl, member, rfl⟩
    | some kind => cases kind with
      | directory => exact .inl rfl
      | file content => exact absurd before (clear place member content)
  · exact .inl rfl

/-- A path is found where all directories that it leads through are there. -/
theorem resolve_of_directories {disk : Disk} (rooted : disk.Rooted) {path : Path}
    (spelled : path.spelling ≠ "")
    (directories : ∀ stop ∈ way (disk.start path) path.steps, disk.kind? stop = some .directory) :
    disk.resolve path = .ok (disk.aim path) ∧ disk.kind? (disk.aim path) = some .directory := by
  have start := Lands.kind?_start rooted path
  have walked := (walk_eq_some_iff start).mpr ⟨directories, rfl⟩
  refine ⟨?_, kind?_of_walk start walked⟩
  unfold resolve
  rw [if_neg (by simpa using spelled)]
  exact follow_of_walk walked

/-- What is read under a path lies where the path leads to. -/
theorem lands_of_read {disk : Disk} (rooted : disk.Rooted) {path : Path} {content : Bytes}
    (held : disk.read path = .ok content) :
    disk.Lands path (disk.aim path) ∧ disk.kind? (disk.aim path) = some (.file content) := by
  obtain ⟨place, resolved, file⟩ := resolve_of_read held
  rw [aim_of_resolve resolved]
  exact ⟨lands_of_resolve rooted resolved file, file⟩

end Disk

namespace Metadata
open ClassCoverage.Path

/-- How a save may end: it is stopped from outside, or answers that it failed or that it is done. -/
inductive Ending where
  | stopped
  | failed
  | finished

def Ending.of : Except Failure Unit → Ending
  | .ok () => .finished
  | .error _ => .failed

/-- What a step that does not get to its end may have done. -/
inductive SaveStep.Partly (disk : Disk) : SaveStep → Disk → Prop
  | nothing {step : SaveStep} : Partly disk step disk
  | directories {directory : Path} {made : List Place} {disk' : Disk}
      (some : made ⊆ Disk.way (disk.start directory) directory.steps) (clear : disk.Clear made)
      (extended : disk.Extended disk' made) : Partly disk (.makeDirectories directory) disk'
  | bytes {file : Path} {bytes : Bytes} {count : Nat} {disk' : Disk}
      (appended : (SaveStep.append file (bytes.take count)).run disk = .ok disk') :
      Partly disk (.append file bytes) disk'

/-- The temporary file is there while these steps are taken, and is removed if they fail. -/
def SaveStep.holdsTemporary : SaveStep → Bool
  | append .. | sync .. | rename .. => true
  | makeDirectories .. | create .. | syncDirectory .. => false

def SaveStep.cleanUp (step : SaveStep) (temporary : Path) (disk : Disk) : Disk :=
  if step.holdsTemporary then (disk.removeFile temporary).toOption.getD disk else disk

/-- All ways that steps may go. -/
inductive Runs (temporary : Path) : List SaveStep → Disk → Ending → Disk → Prop
  | finished {disk : Disk} : Runs temporary [] disk .finished disk
  | unanswered {disk : Disk} : Runs temporary [] disk .stopped disk
  | stopped {step : SaveStep} {steps : List SaveStep} {disk disk' : Disk}
    (part : step.Partly disk disk') :
      Runs temporary (step :: steps) disk .stopped disk'
  | failed {step : SaveStep} {steps : List SaveStep} {disk middle disk' : Disk}
    (part : step.Partly disk middle)
      (cleaned : step.cleanUp temporary middle = disk') :
      Runs temporary (step :: steps) disk .failed disk'
  | next {step : SaveStep} {steps : List SaveStep} {disk middle disk' : Disk} {ending : Ending}
      (done : step.run disk = .ok middle) (rest : Runs temporary steps middle ending disk') :
      Runs temporary (step :: steps) disk ending disk'

/-- A file next to the one that is saved. -/
def temporaryFile (path : Path) (name : String) : Path := path.directory.join ⟨name⟩

/-- All ways that a save may go whose temporary file is given a name that is free. -/
inductive Saves (store : Store) (path : Path) (name : String) (disk : Disk) : Ending → Disk → Prop
  | early {ending : Ending} {disk' : Disk} (unfinished : ending ≠ .finished)
      (part : (SaveStep.makeDirectories path.directory).Partly disk disk') :
      Saves store path name disk ending disk'
  | prepared {made disk' : Disk} {ending : Ending}
    (makes : disk.makeDirectories path.directory = .ok made)
      (named : IsName name) (free : made.kind? (made.sibling path name) = none)
      (runs : Runs (temporaryFile path name) (saveSteps (temporaryFile path name) path
        (encode store)) made ending
        disk') : Saves store path name disk ending disk'

/-- A disk that has room for a temporary file next to that of a path. -/
structure Site (made : Disk) (path : Path) (name : String) : Prop where
  rooted : made.Rooted
  named : IsName name
  directories : ∀ stop ∈ Disk.way (made.start path.directory) path.directory.steps,
    made.kind? stop = some .directory
  free : made.kind? (made.sibling path name) = none

/-- Where a save stands, by the steps that it still has to take. -/
inductive Stands (made : Disk) (path : Path) (name : String) (bytes : Bytes) :
    List SaveStep → Disk → Prop
  | prepared : Stands made path name bytes (saveSteps (temporaryFile path name) path bytes) made
  | created {now : Disk} (updated : made.Updated now (made.sibling path name) (some (.file []))) :
      Stands made path name bytes
        [.append (temporaryFile path name) bytes, .sync (temporaryFile path name),
          .rename (temporaryFile path name) path, .syncDirectory path.directory] now
  | filled {now : Disk} (updated : made.Updated now (made.sibling path name) (some (.file bytes))) :
      Stands made path name bytes
        [.sync (temporaryFile path name), .rename (temporaryFile path name) path,
        .syncDirectory path.directory] now
  | synced {now : Disk} (updated : made.Updated now (made.sibling path name) (some (.file bytes))) :
      Stands made path name bytes [.rename (temporaryFile path name) path,
      .syncDirectory path.directory] now
  | renamed {now : Disk} (updated : made.Updated now (made.aim path) (some (.file bytes)))
      (lands : now.Lands path (made.aim path)) :
      Stands made path name bytes [.syncDirectory path.directory] now
  | ended {now : Disk} (updated : made.Updated now (made.aim path) (some (.file bytes)))
      (lands : now.Lands path (made.aim path)) : Stands made path name bytes [] now

/-- What is left in the end. -/
inductive Leaves (made : Disk) (path : Path) (name : String) (bytes : Bytes) : Ending → Disk → Prop
  | nothing {ending : Ending} (unfinished : ending ≠ .finished) :
    Leaves made path name bytes ending made
  | temporary {count : Nat} {disk' : Disk}
      (updated : made.Updated disk' (made.sibling path name) (some (.file (bytes.take count)))) :
      Leaves made path name bytes .stopped disk'
  | replaced {ending : Ending} {disk' : Disk} (updated : made.Updated disk' (made.aim path)
    (some (.file bytes)))
      (lands : disk'.Lands path (made.aim path)) : Leaves made path name bytes ending disk'

section
variable {made now next : Disk} {path : Path} {name : String} {bytes : Bytes} {step : SaveStep}
  {steps : List SaveStep}

theorem Site.lands (site : Site made path name) :
    made.Lands (temporaryFile path name) (made.sibling path name) := by
  have named : ∀ part ∈ [name], IsName part := List.forall_mem_singleton.mpr site.named
  have aims := Disk.aims_join made path.directory (List.cons_ne_nil name []) named
  have single : Text.join "/" [name] = name := by simp [Text.join]
  rw [single, Disk.wayTo, List.dropLast_singleton, List.append_nil] at aims
  exact aims.lands site.rooted site.directories

/-- What is appended to the empty temporary file is all that it holds then. -/
theorem Site.append (site : Site made path name)
    (updated : made.Updated now (made.sibling path name) (some (.file []))) {content : Bytes}
    (done : (SaveStep.append (temporaryFile path name) content).run now = .ok next) :
    made.Updated next (made.sibling path name) (some (.file content)) := by
  have lands := site.lands.keep updated.keeps
  have free : now.kind? (made.sibling path name) ≠ some .directory := by simp [updated.here]
  have written := lands.written (site.rooted.keep updated.keeps) free content
  simp only [SaveStep.run, lands.read updated.here, bind, Except.bind,
    List.nil_append, lands.write free,
    Except.ok.injEq] at done
  exact done ▸ updated.again written

/-- Renaming the temporary file leaves the file of the path in its stead. -/
theorem Site.rename (site : Site made path name)
    (updated : made.Updated now (made.sibling path name) (some (.file bytes)))
    (done : (SaveStep.rename (temporaryFile path name) path).run now = .ok next) :
    made.Updated next (made.aim path) (some (.file bytes)) ∧ next.Lands path (made.aim path) := by
  have lands := site.lands.keep updated.keeps
  have erased := lands.erased updated.here
  obtain ⟨target, landsPath, free, rfl⟩ :=
    Disk.lands_of_rename (lands.resolve updated.here) updated.here done
  rw [← site.free] at erased
  have back := updated.undone erased
  have landsMade := landsPath.keep erased.keeps
  rw [back] at landsMade ⊢
  obtain ⟨above, aims, -⟩ := landsMade.aims site.rooted
  have freeMade : made.kind? target ≠ some .directory :=
    fun directory => free (updated.keeps.directory _ directory)
  have written := landsMade.written site.rooted freeMade bytes
  obtain rfl : made.aim path = target := aims.steps.1
  exact ⟨written, landsMade.keep written.keeps⟩

/-- A step that is done leads on to where the next one starts. -/
theorem Stands.advance (site : Site made path name)
    (stands : Stands made path name bytes (step :: steps) now) (done : step.run now = .ok next) :
    Stands made path name bytes steps next := by
  cases stands with
  | prepared =>
    have free : made.kind? (made.sibling path name) ≠ some .directory := by simp [site.free]
    have created : made.write (temporaryFile path name) [] = .ok next := done
    rw [site.lands.write free, Except.ok.injEq] at created
    exact .created (created ▸ site.lands.written site.rooted free [])
  | created updated => exact .filled (site.append updated done)
  | filled updated =>
    cases done
    exact .synced updated
  | synced updated =>
    obtain ⟨updated', lands⟩ := site.rename updated done
    exact .renamed updated' lands
  | renamed updated lands =>
    cases done
    exact .ended updated lands

/-- What is there while a step is under way: the temporary file with part of the bytes, or nothing
that is half done. -/
theorem Stands.partly (site : Site made path name)
    (stands : Stands made path name bytes (step :: steps) now) (part : step.Partly now next) :
    (step.holdsTemporary = true ∧
      ∃ count, made.Updated next (made.sibling path name) (some (.file (bytes.take count)))) ∨
      (step.holdsTemporary = false ∧ ∀ ending ≠ Ending.finished,
      Leaves made path name bytes ending next) := by
  have whole (updated : made.Updated now (made.sibling path name) (some (.file bytes))) :
      ∃ count, made.Updated now (made.sibling path name) (some (.file (bytes.take count))) :=
    ⟨bytes.length, by rwa [List.take_length]⟩
  cases stands with
  | prepared =>
    cases part
    exact .inr ⟨rfl, fun _ unfinished => .nothing unfinished⟩
  | created updated =>
    cases part with
    | nothing => exact .inl ⟨rfl, 0, updated⟩
    | bytes appended => exact .inl ⟨rfl, _, site.append updated appended⟩
  | filled updated =>
    cases part
    exact .inl ⟨rfl, whole updated⟩
  | synced updated =>
    cases part
    exact .inl ⟨rfl, whole updated⟩
  | renamed updated lands =>
    cases part
    exact .inr ⟨rfl, fun _ _ => .replaced updated lands⟩

/-- With the temporary file all is as it was before. -/
theorem Site.removed (site : Site made path name) {content : Bytes}
    (updated : made.Updated now (made.sibling path name) (some (.file content))) :
    (now.removeFile (temporaryFile path name)).toOption.getD now = made := by
  have lands := site.lands.keep updated.keeps
  have erased := lands.erased updated.here
  rw [lands.removeFile updated.here]
  exact updated.undone (site.free ▸ erased)

/-- Wherever the steps end, there is nothing more than what one of them leaves behind. -/
theorem Stands.leaves (site : Site made path name) {ending : Ending}
    (stands : Stands made path name bytes steps now)
    (runs : Runs (temporaryFile path name) steps now ending next) :
    Leaves made path name bytes ending next := by
  induction runs with
  | finished =>
    cases stands with
    | ended updated lands => exact .replaced updated lands
  | unanswered =>
    cases stands with
    | ended updated lands => exact .replaced updated lands
  | stopped part =>
    rcases stands.partly site part with ⟨-, count, updated⟩ | ⟨-, leaves⟩
    · exact .temporary updated
    · exact leaves .stopped nofun
  | failed part cleaned =>
    subst cleaned
    unfold SaveStep.cleanUp
    rcases stands.partly site part with ⟨holds, count, updated⟩ | ⟨gone, leaves⟩
    · rw [if_pos holds, site.removed updated]
      exact .nothing nofun
    · rw [if_neg (by simp [gone])]
      exact leaves .failed nofun
  | next done rest ih => exact ih (stands.advance site done)

end

/-- What has become of a place that is not the one of the saved file. -/
inductive Beside (store : Store) (path : Path) (name : String) (ending : Ending) (disk disk' : Disk)
    (place : Place) : Prop
  | same (same : disk'.kind? place = disk.kind? place)
  | directory (absent : disk.kind? place = none)
      (onTheWay : place ∈ Disk.way (disk.start path.directory) path.directory.steps)
      (new : disk'.kind? place = some .directory)
  | temporary (count : Nat) (stopped : ending = .stopped) (here : place = disk.sibling path name)
      (absent : disk.kind? place = none) (new : disk'.kind? place =
        some (.file ((encode store).take count)))

/-- A save that has come to an end left the file as it was, or with the whole store in it. It
removed its temporary file if it had the time to, and if it is done the store can be loaded. -/
structure AllOrNothing (store : Store) (path : Path) (name : String) (ending : Ending)
    (disk disk' : Disk) : Prop where
  target : disk'.kind? (disk.aim path) = disk.kind? (disk.aim path) ∨
    disk'.kind? (disk.aim path) = some (.file (encode store))
  read : ∀ bytes, disk.read path = .ok bytes → disk'.read path = .ok bytes ∨
    disk'.read path = .ok (encode store)
  beside : ∀ place ≠ disk.aim path, Beside store path name ending disk disk' place
  finished : ending = .finished → disk'.read path = .ok (encode store) ∧
    (Measured store → (load path).run.run disk' = (.ok (some store), disk'))

section
variable {disk made disk' : Disk} {store : Store} {path : Path} {name : String} {ending : Ending}
  {places : List Place}

theorem read_of_target (rooted : disk.Rooted) (keeps : disk.Keeps disk')
    (target : disk'.kind? (disk.aim path) = disk.kind? (disk.aim path) ∨
      disk'.kind? (disk.aim path) = some (.file (encode store))) {bytes : Bytes}
    (held : disk.read path = .ok bytes) :
    disk'.read path = .ok bytes ∨ disk'.read path = .ok (encode store) := by
  obtain ⟨lands, file⟩ := Disk.lands_of_read rooted held
  have lands' := lands.keep keeps
  rcases target with same | replaced
  · exact .inl (lands'.read (same.trans file))
  · exact .inr (lands'.read replaced)

/-- The directories of a path are never made where the path itself leads to. -/
theorem target_of_extended (straight : disk.Straight path)
    (onTheWay : places ⊆ Disk.way (disk.start path.directory) path.directory.steps)
    (clear : disk.Clear places) (extended : disk.Extended made places) :
    made.kind? (disk.aim path) = disk.kind? (disk.aim path) := by
  rcases extended.cases clear (disk.aim path) with same | ⟨absent, member, -⟩
  · exact same
  · exact absurd (onTheWay member) (straight absent)

theorem beside_of_extended
    (onTheWay : places ⊆ Disk.way (disk.start path.directory) path.directory.steps)
    (clear : disk.Clear places) (extended : disk.Extended made places) {place : Place}
    (same : disk'.kind? place = made.kind? place) :
    Beside store path name ending disk disk' place := by
  rcases extended.cases clear place with same' | ⟨absent, member, new⟩
  · exact .same (same.trans same')
  · exact .directory absent (onTheWay member) (same.trans new)

/-- Where nothing but directories was made, the file is as it was. -/
theorem allOrNothing_of_extended (rooted : disk.Rooted) (straight : disk.Straight path)
    (onTheWay : places ⊆ Disk.way (disk.start path.directory) path.directory.steps)
    (clear : disk.Clear places) (extended : disk.Extended made places)
    (unfinished : ending ≠ .finished) :
    AllOrNothing store path name ending disk made where
  target := .inl (target_of_extended straight onTheWay clear extended)
  read _ := read_of_target rooted extended.keeps
    (.inl (target_of_extended straight onTheWay clear extended))
  beside _ _ := beside_of_extended onTheWay clear extended rfl
  finished done := absurd done unfinished

private theorem places_of_partly {directory : Path}
    (part : (SaveStep.makeDirectories directory).Partly disk disk') :
    ∃ places, places ⊆ Disk.way (disk.start directory) directory.steps ∧ disk.Clear places ∧
      disk.Extended disk' places := by
  cases part with
  | nothing => exact ⟨[], List.nil_subset _, nofun, .refl nofun⟩
  | directories some clear extended => exact ⟨_, some, clear, extended⟩

/-- All directories of the path are there once they are made, and nothing else is new. -/
theorem extended_of_makeDirectories (rooted : disk.Rooted)
    (makes : disk.makeDirectories path.directory = .ok made) :
    disk.Clear (Disk.way (disk.start path.directory) path.directory.steps) ∧
      disk.Extended made (Disk.way (disk.start path.directory) path.directory.steps) := by
  have tidy := tidy_directory path
  have clear := Disk.clear_of_makeDirectories rooted tidy makes
  obtain ⟨same, again, extended⟩ := Disk.makeDirectories_of_clear rooted tidy clear
  rw [makes] at again
  cases again
  exact ⟨clear, extended⟩

private theorem site_of_makeDirectories (rooted : disk.Rooted)
    (makes : disk.makeDirectories path.directory = .ok made) (named : IsName name)
    (free : made.kind? (made.sibling path name) = none) : Site made path name := by
  obtain ⟨-, extended⟩ := extended_of_makeDirectories rooted makes
  refine ⟨rooted.keep extended.keeps, named, ?_, free⟩
  rw [extended.start]
  exact extended.directory

private theorem allOrNothing_of_leaves (rooted : disk.Rooted) (straight : disk.Straight path)
    (apart : disk.sibling path name ≠ disk.aim path)
    (makes : disk.makeDirectories path.directory = .ok made)
    (free : made.kind? (made.sibling path name) = none)
    (leaves : Leaves made path name (encode store) ending disk') :
    AllOrNothing store path name ending disk disk' := by
  obtain ⟨clear, extended⟩ := extended_of_makeDirectories rooted makes
  have aim : made.aim path = disk.aim path := Disk.aim_keep extended.workPlace path
  have sibling : made.sibling path name = disk.sibling path name :=
    congrArg (· ++ [name]) (Disk.aim_keep extended.workPlace path.directory)
  rw [sibling] at free
  cases leaves with
  | nothing unfinished =>
    exact allOrNothing_of_extended rooted straight (List.Subset.refl _) clear extended unfinished
  | @temporary count _ updated =>
    rw [sibling] at updated
    have keeps := extended.keeps.trans updated.keeps
    have target : disk'.kind? (disk.aim path) = disk.kind? (disk.aim path) :=
      (updated.elsewhere apart.symm).trans
        (target_of_extended straight (List.Subset.refl _) clear extended)
    refine ⟨.inl target, fun _ => read_of_target rooted keeps (.inl target),
      fun place _ => ?_, nofun⟩
    by_cases here : place = disk.sibling path name
    · subst here
      -- What is free among the new directories was free before.
      have absent : disk.kind? (disk.sibling path name) = none := by
        rcases extended.cases clear (disk.sibling path name) with same | ⟨absent, -, -⟩
        · rw [← same, free]
        · exact absent
      exact .temporary count rfl rfl absent updated.here
    · exact beside_of_extended (List.Subset.refl _) clear extended (updated.elsewhere here)
  | replaced updated lands =>
    rw [aim] at updated lands
    have keeps := extended.keeps.trans updated.keeps
    have read := lands.read updated.here
    exact {
      target := .inr updated.here
      read := fun _ => read_of_target rooted keeps (.inr updated.here)
      beside := fun place other => beside_of_extended (List.Subset.refl _) clear extended
        (updated.elsewhere other)
      finished := fun _ => ⟨read, fun measured => load_of_read measured read⟩ }

/-- A name that is made up for a temporary file is free. -/
theorem site_of_freshName (rooted : made.Rooted)
    (directories : ∀ stop ∈ Disk.way (made.start path.directory) path.directory.steps,
      made.kind? stop = some .directory) :
    Site made path (made.freshName path.directory temporaryName) := by
  obtain ⟨resolved, directory⟩ :=
    Disk.resolve_of_directories rooted (spelling_directory_ne_empty path) directories
  exact ⟨rooted, Disk.isName_freshName temporaryName_naming made path.directory, directories,
    Disk.freshName_absent temporaryName_naming resolved directory⟩

private theorem run_perform_error {step : SaveStep} {steps : List SaveStep} {fault : Fault}
    (failed : step.run disk = .error fault) :
    ∃ failure, ((step :: steps).forM SaveStep.perform).run.run disk = (.error failure, disk) := by
  rw [List.forM, Steps.run_bind, SaveStep.perform, Action.run_change_error failed]
  exact ⟨_, rfl⟩

/-- A step that fails without the temporary file leaves nothing to remove. -/
theorem Stands.cleanUp {bytes : Bytes} {step : SaveStep} {steps : List SaveStep} {fault : Fault}
    (site : Site made path name) (stands : Stands made path name bytes (step :: steps) disk)
    (failed : step.run disk = .error fault) :
    step.cleanUp (temporaryFile path name) disk =
      (disk.removeFile (temporaryFile path name)).toOption.getD disk := by
  unfold SaveStep.cleanUp
  split
  · rfl
  · rename_i gone
    cases stands with
    | prepared =>
      obtain ⟨above, aims, -⟩ := site.lands.aims site.rooted
      have aim : disk.aim (temporaryFile path name) = disk.sibling path name := aims.steps.1
      exact (Disk.removeFile_of_absent (aim ▸ site.free)).symm
    | created => exact absurd rfl gone
    | filled => exact absurd rfl gone
    | synced => exact absurd rfl gone
    | renamed => cases failed

/-- The steps as they are run are one of the ways that they may go. -/
theorem Stands.runs {bytes : Bytes} {steps : List SaveStep} (site : Site made path name)
    (stands : Stands made path name bytes steps disk) :
    (∃ after, (steps.forM SaveStep.perform).run.run disk = (.ok (), after) ∧
        Runs (temporaryFile path name) steps disk .finished after) ∨
      ∃ failure after, (steps.forM SaveStep.perform).run.run disk = (.error failure, after) ∧
        Runs (temporaryFile path name) steps disk .failed
          ((after.removeFile (temporaryFile path name)).toOption.getD after) := by
  induction steps generalizing disk with
  | nil => exact .inl ⟨disk, rfl, .finished⟩
  | cons step steps ih =>
    cases done : step.run disk with
    | error fault =>
      obtain ⟨failure, run⟩ := run_perform_error done
      exact .inr ⟨failure, disk, run, .failed .nothing (stands.cleanUp site done)⟩
    | ok next =>
      rw [run_perform done]
      rcases ih (stands.advance site done) with ⟨after, run, runs⟩ | ⟨failure, after, run, runs⟩
      · exact .inl ⟨after, run, .next done runs⟩
      · exact .inr ⟨failure, after, run, .next done runs⟩

/-- A save as it is run is one of the ways that it may go. -/
theorem saves_of_run (rooted : disk.Rooted) (store : Store) (path : Path) :
    ∃ number, Saves store path (temporaryName number) disk (.of ((save store path).run.run disk).1)
      ((save store path).run.run disk).2 := by
  unfold save
  rw [Steps.run_bind]
  cases makes : disk.makeDirectories path.directory with
  | error fault =>
    have failed : (SaveStep.perform (.makeDirectories path.directory)).run.run disk = _ :=
      Action.run_change_error makes
    rw [failed]
    exact ⟨"", .early nofun .nothing⟩
  | ok made =>
    have prepared :
        (SaveStep.perform (.makeDirectories path.directory)).run.run disk = (.ok (), made) :=
      Action.run_change_ok makes
    obtain ⟨-, extended⟩ := extended_of_makeDirectories rooted makes
    have site := site_of_freshName (rooted.keep extended.keeps)
      (extended.start path.directory ▸ extended.directory)
    obtain ⟨number, chosen, -⟩ := Disk.freshName_eq temporaryName_naming made path.directory
    rw [chosen] at site
    rw [prepared]
    simp only
    rw [Steps.run_bind, Steps.run_get]
    simp only [chosen]
    rw [Steps.run_tryCatch]
    refine ⟨_, .prepared makes site.named site.free ?_⟩
    have stands : Stands made path (temporaryName (Decimal.padded 6 number))
        (encode store) _ made := .prepared
    rw [← temporaryFile]
    rcases stands.runs site with ⟨after, run, runs⟩ | ⟨failure, after, run, runs⟩
    · rw [run]
      exact runs
    · rw [run]
      simp only [Steps.run_bind, Steps.run_modify, Steps.run_throw, Ending.of]
      exact runs

end

/-- A save goes one of the ways that it may go, and is atomic on all of them: whatever step it stops
or fails at, its file is as it was or holds the whole store. This takes a path that does not lead
through its own place, and a temporary file that is not given the name of the file itself. -/
theorem save_all_or_nothing {disk : Disk} (rooted : disk.Rooted) (store : Store) {path : Path}
    (straight : disk.Straight path) :
    (∃ number, Saves store path (temporaryName number) disk (.of ((save store path).run.run disk).1)
      ((save store path).run.run disk).2) ∧
    ∀ name ending disk', disk.sibling path name ≠ disk.aim path →
      Saves store path name disk ending disk' →
      AllOrNothing store path name ending disk disk' := by
  refine ⟨saves_of_run rooted store path, ?_⟩
  intro name ending disk' apart saves
  cases saves with
  | early unfinished part =>
    obtain ⟨places, onTheWay, clear, extended⟩ := places_of_partly part
    exact allOrNothing_of_extended rooted straight onTheWay clear extended unfinished
  | prepared makes named free runs =>
    have site := site_of_makeDirectories rooted makes named free
    exact allOrNothing_of_leaves rooted straight apart makes free (Stands.prepared.leaves site runs)

private def occupied : Disk where
  root := .file "coverage.dat" [1] .empty
  ordered := Listing.ordered_add (show Node.Ordered (.file [1]) from trivial)
    (by simp [Listing.names]) trivial
  workPlace := []

/-- A save that is stopped in the middle of its bytes leaves them in the temporary file, and the old
file as it was. -/
private def savedStore : Store :=
  ⟨[{ name := "A", lines := [{ line := 1, hits := 1 }] }], List.pairwise_singleton _ _⟩

theorem save_all_or_nothing_of_half :
    ∃ disk', Saves savedStore ⟨"coverage.dat"⟩ ".tmp000000" occupied .stopped disk' ∧
      disk'.kind? [".tmp000000"] = some (.file ((encode savedStore).take 9)) ∧
      disk'.kind? ["coverage.dat"] = some (.file [1]) ∧
      AllOrNothing savedStore ⟨"coverage.dat"⟩ ".tmp000000" .stopped occupied disk' := by
  have rooted : occupied.Rooted := ⟨rfl, nofun⟩
  have straight : occupied.Straight ⟨"coverage.dat"⟩ :=
    fun absent => absurd absent (by decide +kernel)
  let created := occupied.putFile [] [".tmp000000"]
  let half := created.putFile ((encode savedStore).take 9) [".tmp000000"]
  have here : (⟨"coverage.dat"⟩ : Path).directory = ⟨"."⟩ := by decide +kernel
  have makes : occupied.makeDirectories (⟨"coverage.dat"⟩ : Path).directory = .ok occupied :=
    here ▸ rfl
  have temporary : temporaryFile ⟨"coverage.dat"⟩ ".tmp000000" = ⟨"./.tmp000000"⟩ := by
    decide +kernel
  have creates : occupied.write (temporaryFile ⟨"coverage.dat"⟩ ".tmp000000") [] = .ok created :=
    temporary ▸ rfl
  have appends : (SaveStep.append (temporaryFile ⟨"coverage.dat"⟩ ".tmp000000")
      ((encode savedStore).take 9)).run created =
      .ok half := temporary ▸ rfl
  have saves : Saves savedStore ⟨"coverage.dat"⟩ ".tmp000000" occupied .stopped half :=
    .prepared makes (by decide) (by decide +kernel) (.next creates (.stopped (.bytes appends)))
  exact ⟨half, saves, rfl, rfl,
    (save_all_or_nothing rooted savedStore straight).2 _ _ _ (by decide +kernel) saves⟩

private def blank : Disk := ⟨.empty, trivial, []⟩

/-- Without the two conditions a save is not atomic. A path that leads through its own place finds a
directory there once it has failed, and a stop leaves part of the bytes under a path that is also
the name of the temporary file. -/
theorem save_leaves_neither :
    (∃ disk' failure, (save .empty ⟨"x/../x"⟩).run.run blank = (.error failure, disk') ∧
      ¬ (disk'.kind? (blank.aim ⟨"x/../x"⟩) = blank.kind? (blank.aim ⟨"x/../x"⟩) ∨
        disk'.kind? (blank.aim ⟨"x/../x"⟩) = some (.file (encode .empty)))) ∧
    ∃ disk', blank.freshName (⟨".tmp000000"⟩ : Path).directory temporaryName = ".tmp000000" ∧
      Saves .empty ⟨".tmp000000"⟩ ".tmp000000" blank .stopped disk' ∧
      ¬ (disk'.kind? (blank.aim ⟨".tmp000000"⟩) = blank.kind? (blank.aim ⟨".tmp000000"⟩) ∨
        disk'.kind? (blank.aim ⟨".tmp000000"⟩) = some (.file (encode .empty))) := by
  constructor
  · have failed : ((save .empty ⟨"x/../x"⟩).run.run blank).1 =
        .error (.io "replace metadata file" (some ⟨"x/../x"⟩) (some .isDirectory)) := by
        decide +kernel
    exact ⟨_, _, Prod.ext failed rfl, by decide +kernel⟩
  · let created := blank.putFile [] [".tmp000000"]
    have here : (⟨".tmp000000"⟩ : Path).directory = ⟨"."⟩ := by decide +kernel
    have makes : blank.makeDirectories (⟨".tmp000000"⟩ : Path).directory = .ok blank := here ▸ rfl
    have temporary : temporaryFile ⟨".tmp000000"⟩ ".tmp000000" = ⟨"./.tmp000000"⟩ := by
      decide +kernel
    have creates : blank.write (temporaryFile ⟨".tmp000000"⟩ ".tmp000000") [] = .ok created :=
      temporary ▸ rfl
    exact ⟨created, by decide +kernel,
      .prepared makes (by decide) (by decide +kernel) (.next creates (.stopped .nothing)),
      by decide +kernel⟩

end Metadata
end ClassCoverage
