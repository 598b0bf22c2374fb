import ClassCoverage.Proofs.NewDirectories
import ClassCoverage.Proofs.UpheldCourses
import Mathlib.Logic.Function.Basic

/-! Disks that are shared. Those who share a disk write at different places, and so each of them
could have a disk of its own, where nobody else writes. The shared disk is put together from
these. -/
namespace ClassCoverage
variable {ι : Type}

/-- Who may do what where, on a disk that was like this at the start: write files, remove files
again, and make directories. -/
structure Realm (ι : Type) where
  origin : Disk
  area : ι → Place → Prop
  loose : ι → Place → Prop
  ways : ι → Place → Prop

namespace Realm

/-- No two may write at the same place. Directories are not made where files of others can come and
go, and where files of others stay only if that is blocked. -/
structure Fair (realm : Realm ι) (blocked : Prop) : Prop where
  apart {one other : ι} {place : Place} (different : one ≠ other) (own : realm.area one place) :
    ¬ realm.area other place
  firm {one other : ι} {place : Place} (different : one ≠ other) (own : realm.loose one place)
    (way : realm.ways other place) : realm.origin.kind? place = some .directory
  clash {one other : ι} {place : Place} (different : one ≠ other) (own : realm.area one place)
    (way : realm.ways other place) : realm.origin.kind? place = some .directory ∨ blocked

/-- What the own disk of someone is like. -/
structure Own (realm : Realm ι) (who : ι) (disk : Disk) : Prop where
  keeps : realm.origin.Keeps disk
  made : ∀ place, disk.kind? place = some .directory →
    realm.origin.kind? place = some .directory ∨ realm.ways who place
  outside : ∀ place, ¬ realm.area who place → ∀ content,
    disk.kind? place = some (.file content) ↔ realm.origin.kind? place = some (.file content)
  stays : ∀ place content, realm.origin.kind? place = some (.file content) →
    ¬ realm.loose who place →
    ∃ content', disk.kind? place = some (.file content')

/-- A disk that is put together from those of all. -/
structure Shared (realm : Realm ι) (parts : ι → Disk) (disk : Disk) : Prop where
  each : ∀ who, realm.Own who (parts who)
  workPlace : disk.workPlace = realm.origin.workPlace
  inside : ∀ who place, realm.area who place → ∀ content,
    disk.kind? place = some (.file content) ↔ (parts who).kind? place = some (.file content)
  outside : ∀ place, (∀ who, ¬ realm.area who place) → ∀ content,
    disk.kind? place = some (.file content) ↔ realm.origin.kind? place = some (.file content)
  directory : ∀ place, disk.kind? place = some .directory ↔
    ∃ who, (parts who).kind? place = some .directory

/-- What the own disk of someone is to the shared one, which still has all directories it once
had. -/
def pact [DecidableEq ι] (realm : Realm ι) (who : ι) : Pact Disk ((ι → Disk) × Disk) :=
  fun own others disk => realm.Shared (Function.update others.1 who own) disk ∧ others.2.Keeps disk

/-- Nobody else may write at a place. -/
def Visible (realm : Realm ι) (who : ι) (place : Place) : Prop :=
  ∀ other, other ≠ who → ¬ realm.area other place

variable {realm : Realm ι} {blocked : Prop} {parts : ι → Disk} {disk disk' own' : Disk} {who : ι}
  {place : Place} {above : List Place}

theorem Own.start (realm : Realm ι) (who : ι) : realm.Own who realm.origin :=
  ⟨.refl _, fun _ => .inl, fun _ _ _ => Iff.rfl, fun _ content file _ => ⟨content, file⟩⟩

theorem Shared.start [Nonempty ι] (realm : Realm ι) :
    realm.Shared (fun _ => realm.origin) realm.origin where
  each := Own.start realm
  workPlace := rfl
  inside _ _ _ _ := Iff.rfl
  outside _ _ _ := Iff.rfl
  directory _ := (exists_const ι).symm

theorem Fair.visible (fair : realm.Fair blocked) (own : realm.area who place) :
    realm.Visible who place :=
  fun _ different => fair.apart (Ne.symm different) own

namespace Shared
variable (shared : realm.Shared parts disk)
include shared

theorem keeps (who : ι) : (parts who).Keeps disk where
  workPlace := shared.workPlace.trans (shared.each who).keeps.workPlace.symm
  directory place found := (shared.directory place).mpr ⟨who, found⟩

/-- At a place where nobody else writes, the own disk has the same file. -/
theorem file_iff (visible : realm.Visible who place) (content : Bytes) :
    disk.kind? place = some (.file content) ↔ (parts who).kind? place = some (.file content) := by
  by_cases mine : realm.area who place
  · exact shared.inside who place mine content
  · have nobody : ∀ other, ¬ realm.area other place := by
      intro other
      by_cases same : other = who
      · rw [same]
        exact mine
      · exact visible other same
    rw [shared.outside place nobody, (shared.each who).outside place mine]

/-- A directory at the place of a file that comes and goes is on the own disk too. -/
theorem directory_of_loose (fair : realm.Fair blocked) (loose : realm.loose who place) :
    disk.kind? place = some .directory ↔ (parts who).kind? place = some .directory := by
  refine ⟨fun found => ?_, (shared.keeps who).directory place⟩
  obtain ⟨other, found⟩ := (shared.directory place).mp found
  by_cases same : other = who
  · rwa [same] at found
  · rcases (shared.each other).made place found with before | way
    · exact (shared.each who).keeps.directory place before
    · exact (shared.each who).keeps.directory place (fair.firm (Ne.symm same) loose way)

/-- What lies at a place where files come and go is the same on the own disk. -/
theorem kind?_of_loose (fair : realm.Fair blocked) (own : realm.area who place)
    (loose : realm.loose who place) : disk.kind? place = (parts who).kind? place := by
  apply Option.ext
  intro kind
  cases kind with
  | file content => exact shared.file_iff (fair.visible own) content
  | directory => exact shared.directory_of_loose fair loose

/-- A directory of someone else's is in the way only where that is blocked. -/
theorem directory_cases (fair : realm.Fair blocked) (own : realm.area who place)
    (found : disk.kind? place = some .directory) :
    blocked ∨ (parts who).kind? place = some .directory := by
  obtain ⟨other, found⟩ := (shared.directory place).mp found
  by_cases same : other = who
  · rw [same] at found
    exact .inr found
  · have before : realm.origin.kind? place = some .directory ∨ blocked := by
      rcases (shared.each other).made place found with before | way
      · exact .inl before
      · exact fair.clash (Ne.symm same) own way
    exact before.symm.imp_right ((shared.each who).keeps.directory place)

/-- Files are in the way of directories on both disks, or only on the shared one if that is
blocked. -/
theorem clear_cases (fair : realm.Fair blocked)
    (ways : ∀ way ∈ above, realm.ways who way ∨ realm.origin.kind? way = some .directory) :
    disk.Clear above ∧ (parts who).Clear above ∨
      ¬ disk.Clear above ∧ (blocked ∨ ¬ (parts who).Clear above) := by
  -- A file on the own disk is on the shared one.
  have forth {way : Place} {content : Bytes} (member : way ∈ above)
      (file : (parts who).kind? way = some (.file content)) :
      ∃ content', disk.kind? way = some (.file content') := by
    by_cases visible : realm.Visible who way
    · exact ⟨content, (shared.file_iff visible content).mpr file⟩
    · unfold Visible at visible
      push Not at visible
      obtain ⟨other, different, theirs⟩ := visible
      have before := ((shared.each who).outside way (fair.apart different theirs) content).mp file
      have solid : ¬ realm.loose other way := by
        intro loose
        rcases ways way member with way' | directory
        · rw [fair.firm different loose way'] at before
          cases before
        · rw [directory] at before
          cases before
      obtain ⟨content', still⟩ := (shared.each other).stays way content before solid
      exact ⟨content', (shared.inside other way theirs content').mpr still⟩
  by_cases clear : disk.Clear above
  · refine .inl ⟨clear, fun way member content file => ?_⟩
    obtain ⟨content', also⟩ := forth member file
    exact clear way member content' also
  · refine .inr ⟨clear, ?_⟩
    unfold Disk.Clear at clear
    push Not at clear
    obtain ⟨way, member, content, file⟩ := clear
    by_cases visible : realm.Visible who way
    · exact .inr fun clear => clear way member content ((shared.file_iff visible content).mp file)
    · unfold Visible at visible
      push Not at visible
      obtain ⟨other, different, theirs⟩ := visible
      have before : realm.origin.kind? way = some .directory ∨ blocked :=
        (ways way member).elim (fair.clash different theirs) .inl
      refine before.elim (fun directory => ?_) .inl
      have still :=
        (shared.keeps who).directory way ((shared.each who).keeps.directory way directory)
      rw [file] at still
      cases still

variable [DecidableEq ι]

/-- A file that is written or removed at an own place. -/
theorem update (fair : realm.Fair blocked) (own : realm.area who place) {kind : Option Kind}
    (updated : (parts who).Updated own' place kind) (updated' : disk.Updated disk' place kind)
    (kept : kind ≠ none ∨ realm.loose who place) :
    realm.Shared (Function.update parts who own') disk' where
  each other := by
    by_cases same : other = who
    · subst same
      rw [Function.update_self]
      have before := shared.each other
      refine ⟨before.keeps.trans updated.keeps, fun place' found => ?_,
        fun place' outside content => ?_, ?_⟩
      · rw [updated.kinds] at found
        split at found
        · exact absurd found updated.leaf
        · exact before.made place' found
      · have apart : place' ≠ place := by
          rintro rfl
          exact outside own
        rw [updated.elsewhere apart]
        exact before.outside place' outside content
      · intro place' content file solid
        obtain ⟨content', still⟩ := before.stays place' content file solid
        by_cases here : place' = place
        · subst here
          have written : kind ≠ none := kept.resolve_right solid
          obtain ⟨kind', rfl⟩ := Option.ne_none_iff_exists'.mp written
          cases kind' with
          | file content'' => exact ⟨content'', updated.here⟩
          | directory => exact absurd rfl updated.leaf
        · exact ⟨content', (updated.elsewhere here).trans still⟩
    · rw [Function.update_of_ne same]
      exact shared.each other
  workPlace := updated'.workPlace.trans shared.workPlace
  inside other place' theirs content := by
    by_cases here : place' = place
    · subst here
      have same : other = who := by
        by_contra different
        exact fair.apart different theirs own
      subst same
      rw [Function.update_self, updated.here, updated'.here]
    · rw [updated'.elsewhere here, shared.inside other place' theirs]
      by_cases same : other = who
      · subst same
        rw [Function.update_self, updated.elsewhere here]
      · rw [Function.update_of_ne same]
  outside place' nobody content := by
    have apart : place' ≠ place := by
      rintro rfl
      exact nobody who own
    rw [updated'.elsewhere apart]
    exact shared.outside place' nobody content
  directory place' := by
    by_cases here : place' = place
    · subst here
      rw [updated'.here]
      refine ⟨fun directory => absurd directory updated'.leaf, ?_⟩
      rintro ⟨other, found⟩
      by_cases same : other = who
      · subst same
        rw [Function.update_self, updated.here] at found
        exact found
      · rw [Function.update_of_ne same] at found
        exact absurd ((shared.directory place').mpr ⟨other, found⟩) updated'.free
    · rw [updated'.elsewhere here, shared.directory]
      apply exists_congr
      intro other
      by_cases same : other = who
      · subst same
        rw [Function.update_self, updated.elsewhere here]
      · rw [Function.update_of_ne same]

/-- Directories that are made on both disks. -/
theorem extend (extended : (parts who).Extended own' above) (extended' : disk.Extended disk' above)
    (clear : (parts who).Clear above) (clear' : disk.Clear above)
    (ways : ∀ way ∈ above, realm.ways who way ∨ realm.origin.kind? way = some .directory) :
    realm.Shared (Function.update parts who own') disk' := by
  have files {a b : Disk} (more : a.Extended b above) (open_ : a.Clear above) (place' : Place)
      (content : Bytes) : b.kind? place' = some (.file content) ↔
      a.kind? place' = some (.file content) := by
    rw [more.kinds]
    split
    · rename_i member
      exact iff_of_false nofun (open_ place' member content)
    · rfl
  constructor
  case each =>
    intro other
    by_cases same : other = who
    · subst same
      rw [Function.update_self]
      have before := shared.each other
      refine ⟨before.keeps.trans extended.keeps, fun place' found => ?_,
        fun place' outside content => ?_, ?_⟩
      · rw [extended.kinds] at found
        split at found
        · rename_i member
          exact (ways place' member).symm
        · exact before.made place' found
      · rw [files extended clear]
        exact before.outside place' outside content
      · intro place' content file solid
        obtain ⟨content', still⟩ := before.stays place' content file solid
        exact ⟨content', (files extended clear place' content').mpr still⟩
    · rw [Function.update_of_ne same]
      exact shared.each other
  case workPlace => exact extended'.workPlace.trans shared.workPlace
  case inside =>
    intro other place' theirs content
    rw [files extended' clear', shared.inside other place' theirs]
    by_cases same : other = who
    · subst same
      rw [Function.update_self, files extended clear]
    · rw [Function.update_of_ne same]
  case outside =>
    intro place' nobody content
    rw [files extended' clear']
    exact shared.outside place' nobody content
  case directory =>
    intro place'
    rw [extended'.kinds]
    constructor
    · intro found
      split at found
      · rename_i member
        refine ⟨who, ?_⟩
        rw [Function.update_self]
        exact extended.directory place' member
      · obtain ⟨other, theirs⟩ := (shared.directory place').mp found
        refine ⟨other, ?_⟩
        by_cases same : other = who
        · subst same
          rw [Function.update_self]
          exact extended.keeps.directory place' theirs
        · rwa [Function.update_of_ne same]
    · rintro ⟨other, found⟩
      split
      · rfl
      · rename_i absent
        refine (shared.directory place').mpr ⟨other, ?_⟩
        by_cases same : other = who
        · subst same
          rwa [Function.update_self, extended.kinds, if_neg absent] at found
        · rwa [Function.update_of_ne same] at found

end Shared

/-! What the pact says of the own disk. -/

section
variable [DecidableEq ι] {own : Disk}

theorem Own.of_allows (allowed : (realm.pact who).Allows own) : realm.Own who own := by
  obtain ⟨others, disk, shared, -⟩ := allowed
  have each := shared.each who
  rwa [Function.update_self] at each

variable {others : (ι → Disk) × Disk}

theorem shared_of_pact (holds : realm.pact who own others disk) :
    realm.Own who own ∧ own.Keeps disk ∧
      (∀ place, realm.Visible who place → ∀ content,
        disk.kind? place = some (.file content) ↔ own.kind? place = some (.file content)) := by
  have same : Function.update others.1 who own who = own := Function.update_self ..
  refine ⟨same ▸ holds.1.each who, same ▸ holds.1.keeps who, fun place visible content => ?_⟩
  rw [holds.1.file_iff visible content, same]

theorem pact_update (fair : realm.Fair blocked) (mine : realm.area who place)
    (holds : realm.pact who own others disk) {kind : Option Kind}
    (updated : own.Updated own' place kind) (updated' : disk.Updated disk' place kind)
    (kept : kind ≠ none ∨ realm.loose who place) :
    realm.pact who own' others disk' := by
  have here : (Function.update others.1 who own who).Updated own' place kind := by
    rwa [Function.update_self]
  have shared := holds.1.update fair mine here updated' kept
  rw [Function.update_idem] at shared
  exact ⟨shared, holds.2.trans updated'.keeps⟩

theorem pact_extend (holds : realm.pact who own others disk) (extended : own.Extended own' above)
    (extended' : disk.Extended disk' above) (clear : own.Clear above) (clear' : disk.Clear above)
    (ways : ∀ way ∈ above, realm.ways who way ∨ realm.origin.kind? way = some .directory) :
    realm.pact who own' others disk' := by
  have here : (Function.update others.1 who own who).Extended own' above := by
    rwa [Function.update_self]
  have shared := holds.1.extend here extended' (by rwa [Function.update_self]) clear' ways
  rw [Function.update_idem] at shared
  exact ⟨shared, holds.2.trans extended'.keeps⟩

end
end Realm
end ClassCoverage
