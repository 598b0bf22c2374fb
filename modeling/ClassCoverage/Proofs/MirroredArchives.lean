import ClassCoverage.Proofs.MirroredSteps
import ClassCoverage.Proofs.RewriteOutcome
import ClassCoverage.Proofs.TreePaths

/-! Archives on shared disks. While an archive is rewritten it lies under the name of its copy, and
for a moment it does not lie anywhere else. If nobody else has to do with these places, it is
rewritten as if nobody else were there. -/
namespace ClassCoverage.Archive
open Course
variable {ι σ α : Type} [DecidableEq ι] {realm : Realm ι} {blocked : Prop} {who : ι}
  {rewriter : Rewriter σ}
  {fallback : σ} {own : Disk} {store : Store} {path : Path}

/-- What lets an archive be rewritten on a shared disk: nobody else writes at its place or at that
of a copy, or makes a directory there. -/
structure Hosted (realm : Realm ι) (who : ι) (path : Path) : Prop where
  rooted : realm.origin.Rooted
  file : realm.origin.isFile path = true
  mine : realm.area who (realm.origin.aim path)
  loose : realm.loose who (realm.origin.aim path)
  spare : ∀ place, IsSpare (realm.origin.aim path) place → realm.area who place
  spareLoose : ∀ place, IsSpare (realm.origin.aim path) place → realm.loose who place

variable {place copyPlace : Place} {content : Bytes} {others : (ι → Disk) × Disk} {shared : Disk}

theorem isSpare_padded {disk : Disk} (lands : disk.Lands path place) (number : Nat) :
    IsSpare place (place.dropLast ++
      [safetyName (path.fileName?.getD "") (Decimal.padded 6 number)]) := by
  obtain ⟨front, name, directory, split, named, -, rfl⟩ := lands
  rw [Path.fileName?_of_segments split named]
  refine ⟨name, Decimal.padded 6 number, by simp, fun member => ?_, rfl⟩
  exact absurd (Decimal.isDigit_of_mem_padded member) (by decide)

theorem naming_of_lands {disk : Disk} (lands : disk.Lands path place) :
    Disk.Naming (safetyName (path.fileName?.getD "")) := by
  obtain ⟨front, name, directory, split, named, -, rfl⟩ := lands
  rw [Path.fileName?_of_segments split named]
  exact safetyName_naming named

/-- The copy of an archive goes next to it, where one of its copies may go. -/
theorem isSpare_safetyPath {disk : Disk} (rooted : disk.Rooted) (lands : disk.Lands path place) :
    ∃ copyPlace, disk.Lands (safetyPath path disk) copyPlace ∧ disk.kind? copyPlace = none ∧
      IsSpare place copyPlace := by
  have naming := naming_of_lands lands
  obtain ⟨number, shape, absent, -⟩ :=
    Disk.freshName_least naming lands.directory (lands.parent rooted)
  have own := Disk.isName_freshName naming disk path.directory
  refine ⟨_, lands_absolute rooted (lands.sibling own), absent, ?_⟩
  rw [shape]
  exact isSpare_padded lands number

namespace Hosted
variable (hosted : Hosted realm who path)
include hosted

omit [DecidableEq ι] in
theorem lands : ∃ content, realm.origin.Lands path (realm.origin.aim path) ∧
    realm.origin.kind? (realm.origin.aim path) = some (.file content) := by
  obtain ⟨place, content, lands, held⟩ := Disk.lands_of_isFile hosted.rooted hosted.file
  rw [Disk.aim_of_resolve (lands.resolve held)]
  exact ⟨content, lands, held⟩

/-- What lies where a copy may go is the same on the shared disk. -/
theorem kind?_spare (fair : realm.Fair blocked) (holds : realm.pact who own others shared)
    (spare : IsSpare (realm.origin.aim path) copyPlace) :
    shared.kind? copyPlace = own.kind? copyPlace := by
  have same :=
    holds.1.kind?_of_loose fair (hosted.spare copyPlace spare) (hosted.spareLoose copyPlace spare)
  rwa [Function.update_self] at same

/-- The copy gets the same path, whatever others do. -/
theorem safetyPath_eq (fair : realm.Fair blocked)
    (holds : realm.pact who realm.origin others shared) :
    safetyPath path shared = safetyPath path realm.origin := by
  obtain ⟨content, lands, held⟩ := hosted.lands
  have keeps := (Realm.shared_of_pact holds).2.1
  have landsShared := lands.keep keeps
  have fresh :=
    Disk.freshName_congr (naming_of_lands lands) lands.directory (lands.parent hosted.rooted)
    landsShared.directory (landsShared.parent (hosted.rooted.keep keeps))
    fun number => hosted.kind?_spare fair holds (isSpare_padded lands number)
  unfold safetyPath absolute
  rw [fresh, keeps.workPlace]

end Hosted

private theorem mirrors_createSafetyFile (fair : realm.Fair blocked)
    (hosted : Hosted realm who path) :
    (createSafetyFile path).Mirrors rewriter fallback (realm.pact who) blocked
      realm.origin store := by
  obtain ⟨content, lands, held⟩ := hosted.lands
  obtain ⟨copyPlace, copyLands, absent, spare⟩ := isSpare_safetyPath hosted.rooted lands
  have free : realm.origin.kind? copyPlace ≠ some .directory := by simp [absent]
  refine Mirrors.act (fun disk' made _ => Mirrors.pure (safetyPath path realm.origin))
    fun others shared holds => ?_
  cases room : hasRoom path with
  | false =>
    obtain ⟨fault, refused⟩ := makeSafetyFile_of_noRoom room realm.origin
    obtain ⟨fault', refused'⟩ := makeSafetyFile_of_noRoom room shared
    exact .inr ⟨fault', refused', Lost.throw _, .inr ⟨fault, refused, Lost.throw _⟩⟩
  | true =>
    have keeps := (Realm.shared_of_pact holds).2.1
    have same := hosted.safetyPath_eq fair holds
    have freeShared : shared.kind? copyPlace ≠ some .directory := by
      rw [hosted.kind?_spare fair holds spare]
      exact free
    have landsShared := copyLands.keep keeps
    have written := landsShared.write freeShared []
    rw [← same] at written
    refine .inl ⟨_, _, makeSafetyFile_of_hasRoom room (copyLands.write free []),
      makeSafetyFile_of_hasRoom room written, ?_, ?_⟩
    · exact Realm.pact_update fair (hosted.spare copyPlace spare) holds
        (copyLands.written hosted.rooted free [])
        (landsShared.written (hosted.rooted.keep keeps) freeShared []) (.inl nofun)
    · simp only [Except.map, same]

/-- An operation that fails is followed by the failure of the whole. -/
private theorem lost_of_cleanup (cleanup : Course Unit) (failure : Failure) :
    (do cleanup; throw failure : Course α).Lost :=
  Lost.of_next cleanup fun _ => Lost.throw failure

private theorem mirrors_moveTo (fair : realm.Fair blocked) (hosted : Hosted realm who path)
    (known : realm.Own who own) {copy : Path} (copyLands : own.Lands copy copyPlace)
    (spare : IsSpare (realm.origin.aim path) copyPlace)
    (empty : own.kind? copyPlace = some (.file []))
    (held : own.kind? (realm.origin.aim path) = some (.file content)) :
    (moveTo path copy).Mirrors rewriter fallback (realm.pact who) blocked own store := by
  obtain ⟨-, landsOrigin, -⟩ := hosted.lands
  have lands := landsOrigin.keep known.keeps
  have rooted := hosted.rooted.keep known.keeps
  have visible := fair.visible hosted.mine
  have visibleCopy := fair.visible (hosted.spare copyPlace spare)
  have read {disk : Disk} (keeps : own.Keeps disk)
      (file : disk.kind? (realm.origin.aim path) = some (.file content)) :
      disk.read path = .ok content :=
    (lands.keep keeps).read file
  unfold moveTo
  apply Mirrors.see_bind
  · intro others shared holds
    obtain ⟨-, keeps, same⟩ := Realm.shared_of_pact holds
    rw [read keeps ((same _ visible content).mpr held), read (.refl own) held]
  · intro value looked _
    rw [read (.refl own) held] at looked
    cases looked
    have fills := Realm.fill_emptied rooted visibleCopy copyLands empty content
    apply Mirrors.change_bind
    · intro others shared holds
      exact .inl (Realm.both_of_updated fair (hosted.spare copyPlace spare)
        (.inl (by simp)) fills holds)
    · intro filled done _
      obtain ⟨filled', done', updated⟩ := fills own (.refl own) fun _ _ _ => Iff.rfl
      rw [done'] at done
      cases done
      have heldFilled : ∃ content', filled.kind? (realm.origin.aim path) =
          some (.file content') := by
        by_cases here : realm.origin.aim path = copyPlace
        · exact ⟨content, by rw [here, updated.here]⟩
        · exact ⟨content, (updated.elsewhere here).trans held⟩
      obtain ⟨content', heldFilled⟩ := heldFilled
      have landsFilled := lands.keep updated.keeps
      have rootedFilled := rooted.keep updated.keeps
      have removes (disk : Disk) (keeps : filled.Keeps disk)
          (same : ∀ place, realm.Visible who place → ∀ content,
            disk.kind? place = some (.file content) ↔ filled.kind? place = some (.file content)) :
          ∃ disk', disk.removeFile path = .ok disk' ∧
            disk.Updated disk' (realm.origin.aim path) none := by
        have there := (same _ visible content').mpr heldFilled
        exact ⟨_, (landsFilled.keep keeps).removeFile there, (landsFilled.keep keeps).erased there⟩
      apply Mirrors.change
      intro others shared holds
      exact .inl (Realm.both_of_updated fair hosted.mine (.inr hosted.loose) removes holds)

private theorem write_of_privately {disk disk' : Disk} {store' : Store} {copy : Path}
    (ran : (createSafetyFile path).Privately rewriter fallback disk store copy disk' store') :
    safetyPath path disk = copy ∧ disk.write copy [] = .ok disk' := by
  obtain ⟨memories, ran⟩ := ran
  rcases createSafetyFile_cases path (rewriter.varying fallback) {} disk
    ⟨store, memories ++ []⟩ with
    ⟨created, written, ran'⟩ | ⟨fault, ran', -⟩
  · have same := (ran []).symm.trans ran'
    have made : disk' = created := congrArg (fun ended => ended.2.disk) same
    have called := Except.ok.inj (congrArg Prod.fst same)
    exact ⟨called.symm, by rw [called, made]; exact written⟩
  · exact nomatch congrArg Prod.fst ((ran []).symm.trans ran')

private theorem mirrors_moveAside (fair : realm.Fair blocked) (hosted : Hosted realm who path)
    (allows : (realm.pact who).Allows realm.origin) :
    (moveAside path).Mirrors rewriter fallback (realm.pact who) blocked realm.origin store := by
  obtain ⟨content, lands, held⟩ := hosted.lands
  obtain ⟨copyPlace, copyLands, absent, spare⟩ := isSpare_safetyPath hosted.rooted lands
  have free : realm.origin.kind? copyPlace ≠ some .directory := by simp [absent]
  unfold moveAside
  apply (mirrors_createSafetyFile fair hosted).bind
  intro copy created store' ran allowed
  obtain ⟨rfl, wrote⟩ := write_of_privately ran
  have empty := copyLands.written hosted.rooted free []
  rw [← Except.ok.inj (wrote.symm.trans (copyLands.write free []))] at empty
  have heldCreated : created.kind? (realm.origin.aim path) = some (.file content) := by
    rw [empty.elsewhere, held]
    intro same
    rw [same, absent] at held
    cases held
  have moves : (moveTo path _).Mirrors rewriter fallback (realm.pact who) blocked created store' :=
    mirrors_moveTo fair hosted (.of_allows (allowed allows)) (copyLands.keep empty.keeps) spare
      empty.here heldCreated
  exact (moves.tryCatch fun failure => lost_of_cleanup _ failure).bind fun _ _ _ _ _ => .pure _

private theorem mirrors_rewriteFrom [Library] (fair : realm.Fair blocked)
    (hosted : Hosted realm who path) (known : realm.Own who own) {copy : Path}
    (copyLands : own.Lands copy copyPlace) (spare : IsSpare (realm.origin.aim path) copyPlace)
    (copied : own.kind? copyPlace = some (.file content)) (options : Options) :
    (rewriteFrom path copy options).Mirrors rewriter fallback
      (realm.pact who) blocked own store := by
  obtain ⟨-, landsOrigin, -⟩ := hosted.lands
  have lands := landsOrigin.keep known.keeps
  have visible := fair.visible (hosted.spare copyPlace spare)
  unfold rewriteFrom
  apply Mirrors.see_bind
  · intro others shared holds
    obtain ⟨-, keeps, same⟩ := Realm.shared_of_pact holds
    rw [(copyLands.keep keeps).read ((same _ visible content).mpr copied), copyLands.read copied]
  · intro value looked _
    rw [copyLands.read copied] at looked
    cases looked
    cases Library.read? content with
    | none => exact .throw _
    | some entries =>
      simp only
      apply Realm.mirrors_empty_bind fair hosted.rooted hosted.mine known lands
      intro emptied updated known
      have asks : (rebuild path options entries).Asks := OnlyAsks.forM path options entries {}
      apply (Mirrors.of_asks asks).bind
      intro (result, built) disk' store' ran _
      obtain rfl : disk' = emptied := by
        obtain ⟨memories, ran⟩ := ran
        have run := (asks.run (rewriter.varying fallback) {} ⟨emptied, ⟨store, memories ++ []⟩⟩).1
        rw [ran []] at run
        exact congrArg (fun ended => ended.2.disk) run
      cases result with
      | error failure => exact .of_lost (lost_of_cleanup _ failure)
      | ok _ =>
        simp only
        apply Mirrors.change_bind
        · intro others shared holds
          have fills :=
            Realm.fill_emptied (hosted.rooted.keep known.keeps) (fair.visible hosted.mine)
            (lands.keep updated.keeps) updated.here (Library.write built.entries)
          exact .inl (Realm.both_of_updated fair hosted.mine (.inl (by simp)) fills holds)
        · intro filled done _
          split
          · exact .pure _
          · exact .throw _

private theorem mirrors_replace [Library] (fair : realm.Fair blocked)
    (hosted : Hosted realm who path) (known : realm.Own who own) {copy : Path}
    (copyLands : own.Lands copy copyPlace) (spare : IsSpare (realm.origin.aim path) copyPlace)
    (copied : own.kind? copyPlace = some (.file content)) (options : Options) (before : Store) :
    (replace path copy options before).Mirrors rewriter fallback
      (realm.pact who) blocked own store := by
  unfold replace
  apply Mirrors.setStore_bind
  apply (mirrors_rewriteFrom fair hosted known copyLands spare copied options).bind
  intro summary disk' store' _ _
  apply Mirrors.store_bind
  cases before.merge store' with
  | error conflict => exact .throw _
  | ok sum => exact .setStore_bind (.pure summary)

private theorem movedAside_of_privately {disk moved : Disk} {store' : Store} {copy : Path}
    (rooted : disk.Rooted) (lands : disk.Lands path place)
    (held : disk.kind? place = some (.file content))
    (ran : (moveAside path).Privately rewriter fallback disk store copy moved store') :
    ∃ copyPlace, MovedAside disk moved path copy place copyPlace content ∧
      IsSpare place copyPlace := by
  obtain ⟨memories, ran⟩ := ran
  rcases moveAside_cases rooted lands held (rewriter.varying fallback) {}
    ⟨store, memories ++ []⟩ with
    ⟨copyPlace, moved', ran', aside⟩ | ⟨_, _, _, _, _, ran', -⟩
  · have same := (ran []).symm.trans ran'
    have called := Except.ok.inj (congrArg Prod.fst same)
    have disks : moved = moved' := congrArg (fun ended => ended.2.disk) same
    obtain ⟨copyPlace', copyLands, -, spare⟩ := isSpare_safetyPath rooted lands
    obtain ⟨above, aims, -⟩ := aside.copyLands.aims rooted
    obtain ⟨above', aims', -⟩ := copyLands.aims rooted
    rw [called, disks]
    exact ⟨copyPlace, aside, (aims.unique aims').1 ▸ spare⟩
  · exact nomatch congrArg Prod.fst ((ran []).symm.trans ran')

private theorem updated_of_privately [Library] {disk moved replaced : Disk} {store' : Store}
    {copy : Path} {options : Options} {summary : Summary} (rooted : moved.Rooted)
    (aside : MovedAside disk moved path copy place copyPlace content)
    (ran : (replace path copy options store).Privately rewriter fallback moved store
      summary replaced store') :
    ∃ new, moved.Updated replaced place (some (.file new)) := by
  obtain ⟨memories, ran⟩ := ran
  rcases replace_cases rooted (aside.lands.keep aside.keeps) aside.gone
    (aside.copyLands.keep aside.keeps)
      aside.copied (rewriter.varying fallback) options {} ⟨store, memories ++ []⟩ with
    ⟨_, after, _, _, _, ran', -, updated⟩ | ⟨_, _, _, _, ran', -⟩
  · have same := (ran []).symm.trans ran'
    have disks : replaced = after := congrArg (fun ended => ended.2.disk) same
    rw [disks]
    exact ⟨_, updated⟩
  · exact nomatch congrArg Prod.fst ((ran []).symm.trans ran')

/-- An archive is rewritten on a shared disk as it is on its own. -/
theorem mirrors_course [Library] (fair : realm.Fair blocked) (hosted : Hosted realm who path)
    (allows : (realm.pact who).Allows realm.origin) (options : Options) :
    (course path options).Mirrors rewriter fallback (realm.pact who) blocked
      realm.origin store := by
  obtain ⟨content, lands, held⟩ := hosted.lands
  unfold course
  apply Mirrors.disk_bind
  · intro others shared holds
    obtain ⟨-, keeps, same⟩ := Realm.shared_of_pact holds
    have there := (same _ (fair.visible hosted.mine) content).mpr held
    simp only [hosted.file, (lands.keep keeps).isFile there]
  · simp only [hosted.file, Bool.not_true, Bool.false_eq_true, ↓reduceIte]
    apply (mirrors_moveAside fair hosted allows).bind
    intro copy moved store' ran allowed
    obtain ⟨copyPlace, aside, spare⟩ := movedAside_of_privately hosted.rooted lands held ran
    have rooted := hosted.rooted.keep aside.keeps
    have known := Realm.Own.of_allows (allowed allows)
    have copyLands := aside.copyLands.keep aside.keeps
    apply Mirrors.store_bind
    have replaces : (replace path copy options store').Mirrors rewriter fallback
        (realm.pact who) blocked moved
        store' := mirrors_replace fair hosted known copyLands spare aside.copied options store'
    apply (replaces.tryCatch_bind fun failure => lost_of_cleanup _ _)
    intro summary replaced store'' ran' _
    obtain ⟨new, updated⟩ := updated_of_privately rooted aside ran'
    have copied : replaced.kind? copyPlace = some (.file content) :=
      (updated.elsewhere aside.apart).trans aside.copied
    have removes (disk : Disk) (keeps : replaced.Keeps disk)
        (same : ∀ place, realm.Visible who place →
        ∀ content, disk.kind? place = some (.file content) ↔
          replaced.kind? place = some (.file content)) :
        ∃ disk', disk.removeFile copy = .ok disk' ∧ disk.Updated disk' copyPlace none := by
      have there := (same _ (fair.visible (hosted.spare copyPlace spare)) content).mpr copied
      have landsDisk := (copyLands.keep updated.keeps).keep keeps
      exact ⟨_, landsDisk.removeFile there, landsDisk.erased there⟩
    apply Mirrors.change_bind
    · intro others shared holds
      exact .inl (Realm.both_of_updated fair (hosted.spare copyPlace spare)
        (.inr (hosted.spareLoose copyPlace spare)) removes holds)
    · exact fun _ _ _ => .pure _

end ClassCoverage.Archive
