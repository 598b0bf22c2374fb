import ClassCoverage.Proofs.CourseRuns
import ClassCoverage.Proofs.PrivateRuns
import ClassCoverage.Proofs.SharedDisks

/-! Single steps on shared disks. Where nobody else writes, a file is looked at, written and removed
as on an own disk. -/
namespace ClassCoverage
variable {ι σ α β : Type} [DecidableEq ι] {realm : Realm ι} {blocked : Prop} {who : ι}
  {rewriter : Rewriter σ}
  {fallback : σ} {own : Disk} {store : Store} {path : Path} {place : Place} {operation : String}

theorem Disk.Lands.write_of_directory {disk : Disk} (rooted : disk.Rooted)
    (lands : disk.Lands path place) (directory : disk.kind? place = some .directory)
    (content : Bytes) :
    ∃ fault, disk.write path content = .error fault := by
  cases wrote : disk.write path content with
  | error fault => exact ⟨fault, rfl⟩
  | ok disk' =>
    obtain ⟨other, lands', free, -⟩ := Disk.lands_of_write wrote
    obtain ⟨above, aims, -⟩ := lands.aims rooted
    obtain ⟨above', aims', -⟩ := lands'.aims rooted
    obtain ⟨rfl, -⟩ := aims.unique aims'
    exact absurd directory free

namespace Realm
open Course

/-! Steps that are mirrored. -/

/-- A file is emptied, or created, where nobody else writes. -/
theorem mirrors_empty_bind (fair : realm.Fair blocked) (rooted : realm.origin.Rooted)
    (mine : realm.area who place) (known : realm.Own who own) (lands : own.Lands path place)
    {next : Unit → Course α}
    (later : ∀ emptied, own.Updated emptied place (some (.file [])) → realm.Own who emptied →
      (next ()).Mirrors rewriter fallback (realm.pact who) blocked emptied store) :
    (Course.change operation path (·.write path []) >>= next).Mirrors rewriter
      fallback (realm.pact who)
      blocked own store := by
  have rooted' := rooted.keep known.keeps
  apply Mirrors.change_bind
  · intro others shared holds
    obtain ⟨-, keeps, -⟩ := shared_of_pact holds
    have landsShared := lands.keep keeps
    have rootedShared := rooted'.keep keeps
    by_cases directory : shared.kind? place = some .directory
    · obtain ⟨fault, refused⟩ := landsShared.write_of_directory rootedShared directory []
      have cases := Shared.directory_cases holds.1 fair mine directory
      rw [Function.update_self] at cases
      exact .inr ⟨fault, refused, cases.imp_right fun here =>
        lands.write_of_directory rooted' here []⟩
    · have free : own.kind? place ≠ some .directory :=
        fun here => directory (keeps.directory place here)
      refine .inl ⟨_, _, lands.write free [], landsShared.write directory [], ?_⟩
      exact pact_update fair mine holds (lands.written rooted' free [])
        (landsShared.written rootedShared directory []) (.inl nofun)
  · intro emptied wrote allowed
    have free : own.kind? place ≠ some .directory := by
      intro directory
      obtain ⟨fault, refused⟩ := lands.write_of_directory rooted' directory []
      rw [refused] at wrote
      cases wrote
    rw [lands.write free []] at wrote
    cases wrote
    exact later _ (lands.written rooted' free []) (Own.of_allows allowed)

/-- What is done to a file that is there, where nobody else writes. -/
theorem both_of_updated (fair : realm.Fair blocked) (mine : realm.area who place)
    {kind : Option Kind} (kept : kind ≠ none ∨ realm.loose who place)
    {step : Disk → Except Fault Disk}
    (steps : ∀ disk, own.Keeps disk →
      (∀ place, realm.Visible who place → ∀ content, disk.kind? place = some (.file content) ↔
      own.kind? place = some (.file content)) → ∃ disk', step disk = .ok disk' ∧
      disk.Updated disk' place kind) {others : (ι → Disk) × Disk} {shared : Disk}
    (holds : realm.pact who own others shared) :
    ∃ own' shared', step own = .ok own' ∧ step shared = .ok shared' ∧
      realm.pact who own' others shared' := by
  obtain ⟨-, keeps, same⟩ := shared_of_pact holds
  obtain ⟨own', stepped, updated⟩ := steps own (.refl own) fun _ _ _ => Iff.rfl
  obtain ⟨shared', stepped', updated'⟩ := steps shared keeps same
  exact ⟨own', shared', stepped, stepped', pact_update fair mine holds updated updated' kept⟩

omit [DecidableEq ι] in
/-- An empty file is filled. -/
theorem fill_emptied (rooted : own.Rooted) (mine : realm.Visible who place)
    (lands : own.Lands path place) (empty : own.kind? place = some (.file [])) (content : Bytes)
    (disk : Disk) (keeps : own.Keeps disk)
    (same : ∀ place, realm.Visible who place → ∀ content, disk.kind? place = some (.file content) ↔
      own.kind? place = some (.file content)) :
    ∃ disk', disk.fill path content = .ok disk' ∧
      disk.Updated disk' place (some (.file content)) := by
  have lands' := lands.keep keeps
  have here := (same place mine []).mpr empty
  have filled := lands'.fill here content
  rw [List.drop_nil, List.append_nil] at filled
  exact ⟨_, filled, lands'.written (rooted.keep keeps) (by simp [here]) content⟩

/-- A file that was there at the start, and that only its owner can have changed, is looked at. -/
theorem mirrors_see_bind (seen : Bytes → β) (lands : realm.origin.Lands path place)
    {content : Bytes} (file : realm.origin.kind? place = some (.file content))
    (solid : ¬ realm.loose who place) (visible : realm.Visible who place) {said : Path}
    {view : Disk → Except Fault β}
    (views : ∀ disk bytes, disk.Lands path place → disk.kind? place = some (.file bytes) →
      view disk = .ok (seen bytes)) {next : β → Course α}
    (later : ∀ bytes, realm.Own who own → own.kind? place = some (.file bytes) →
      (next (seen bytes)).Mirrors rewriter fallback (realm.pact who) blocked own store) :
    (Course.see operation said view >>= next).Mirrors rewriter fallback
      (realm.pact who) blocked own store := by
  apply Mirrors.see_bind
  · intro others shared holds
    obtain ⟨known, keeps, same⟩ := shared_of_pact holds
    obtain ⟨bytes, held⟩ := known.stays place content file solid
    have landsOwn := lands.keep known.keeps
    rw [views own bytes landsOwn held]
    exact views shared bytes (landsOwn.keep keeps) ((same place visible bytes).mpr held)
  · intro value looked allowed
    have known := Own.of_allows allowed
    obtain ⟨bytes, held⟩ := known.stays place content file solid
    rw [views own bytes (lands.keep known.keeps) held] at looked
    cases looked
    exact later bytes known held

end Realm

end ClassCoverage
