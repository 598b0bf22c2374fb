import ClassCoverage.Proofs.RebuildRun
import ClassCoverage.Proofs.SafetyCopy
import ClassCoverage.Proofs.StoreMerge

/-! How the rewriting of an archive can end. It replaces the archive and nothing else, or it fails
with the archive preserved where it lay or next to that. Where operations are refused, the copy of
an archive that was replaced can be left. -/
namespace ClassCoverage.Archive
variable {σ : Type}

/-- A content that an archive can be built anew from. -/
def Buildable [Library] (path : Path) (rewriter : Rewriter σ) (options : Options) (bench : Bench σ)
    (content : Bytes) (entries : List Entry) (build : Rebuild σ) : Prop :=
  Library.read? content = some entries ∧
    rebuildBy path rewriter options entries bench = (.ok (), build) ∧
    Library.fits build.entries = true

/-- The content of an archive that is built anew without a failure, and whose records can be joined
to a store. -/
def Renewable [Library] (path : Path) (rewriter : Rewriter σ) (options : Options) (bench : Bench σ)
    (content : Bytes) : Prop :=
  ∃ entries build sum, Buildable path rewriter options ⟨.empty,
    bench.memory⟩ content entries build ∧
    bench.store.merge build.bench.store = .ok sum

/-- What a rewriter remembers of the building of an archive that can be read. -/
def Remembers [Library] (path : Path) (rewriter : Rewriter σ) (options : Options) (bench : Bench σ)
    (content : Bytes) (memory : σ) : Prop :=
  ∀ entries, Library.read? content = some entries →
    memory = (rebuildBy path rewriter options entries ⟨.empty, bench.memory⟩).2.bench.memory

/-- What a run has built anew from the content of an archive. -/
structure Rewrote [Library] (path : Path) (rewriter : Rewriter σ) (options : Options)
    (bench : Bench σ) (content : Bytes) (summary : Summary) (bench' : Bench σ)
    (entries : List Entry) (build : Rebuild σ) :
    Prop where
  readable : Library.read? content = some entries
  rebuilt : rebuildBy path rewriter options entries ⟨.empty, bench.memory⟩ = (.ok (), build)
  fits : Library.fits build.entries = true
  summary : summary = build.summary
  merged : bench.store.merge build.bench.store = .ok bench'.store
  memory : bench'.memory = build.bench.memory

/-- The archive that a run replaced, and what it was built from. -/
structure Replaced [Library] (path : Path) (rewriter : Rewriter σ) (options : Options)
    (shop : Workshop σ) (summary : Summary) (shop' : Workshop σ) (place : Place) (content : Bytes)
    (entries : List Entry) (build : Rebuild σ) : Prop extends
    Rewrote path rewriter options shop.bench content summary shop'.bench entries build where
  lands : shop.disk.Lands path place
  file : shop.disk.kind? place = some (.file content)
  updated : shop.disk.Updated shop'.disk place (some (.file (Library.write build.entries)))

/-- An archive that a run replaced without being able to let go of its copy. -/
structure CopyLeft [Library] (path : Path) (rewriter : Rewriter σ) (options : Options)
    (shop : Workshop σ) (summary : Summary) (shop' : Workshop σ) (copy : Path)
    (place copyPlace : Place) (content : Bytes) (entries : List Entry)
      (build : Rebuild σ) : Prop extends
    Rewrote path rewriter options shop.bench content summary shop'.bench entries build where
  lands : shop.disk.Lands path place
  file : shop.disk.kind? place = some (.file content)
  copyLands : shop.disk.Lands copy copyPlace
  beside : copyPlace.dropLast = place.dropLast
  fresh : shop.disk.kind? copyPlace = none
  workPlace : shop'.disk.workPlace = shop.disk.workPlace
  kinds : ∀ other, shop'.disk.kind? other =
    if other = place then some (.file (Library.write build.entries))
    else if other = copyPlace then some (.file content) else shop.disk.kind? other

/-- An archive that a run failed on after it was moved aside. -/
structure Preserved (path : Path) (shop : Workshop σ) (failure : Failure) (shop' : Workshop σ)
    (copy : Path) (place copyPlace : Place) (content : Bytes) : Prop where
  lands : shop.disk.Lands path place
  file : shop.disk.kind? place = some (.file content)
  copyLands : shop.disk.Lands copy copyPlace
  beside : copyPlace.dropLast = place.dropLast
  fresh : shop.disk.kind? copyPlace = none
  backup : ∃ inner : Failure, failure = inner.withBackup path copy
  store : shop'.bench.store = shop.bench.store
  workPlace : shop'.disk.workPlace = shop.disk.workPlace
  copied : shop'.disk.kind? copyPlace = some (.file content)
  noDirectory : shop'.disk.kind? place ≠ some .directory
  elsewhere : ∀ other, other ≠ place → other ≠ copyPlace →
    shop'.disk.kind? other = shop.disk.kind? other

/-- A path without a regular file is refused before anything is done. -/
theorem run_rewrite_of_not_isFile [Library] {path : Path} {shop : Workshop σ}
    (missing : shop.disk.isFile path = false) (rewriter : Rewriter σ) (options : Options)
    (system : System) :
    (rewrite path rewriter options system).run.run shop =
      (.error (.archive path none "archive does not exist or is not a regular file" none),
      shop) := by
  unfold rewrite course
  rw [Course.run_bind, Course.run_disk]
  simp only [missing, Bool.not_false, ↓reduceIte]
  rfl

/-- An archive whose copy cannot be named is refused as well. -/
theorem run_rewrite_of_noRoom [Library] {path : Path} {shop : Workshop σ}
    (file : shop.disk.isFile path = true) (full : hasRoom path = false) (rewriter : Rewriter σ)
    (options : Options) :
    ∃ fault, (rewrite path rewriter options).run.run shop =
      (.error (.io "create archive safety copy" (some path.directory) (some fault)), shop) := by
  obtain ⟨fault, leads⟩ := leads_moveAside_of_noRoom full shop.disk
  refine ⟨fault, ?_⟩
  unfold rewrite course
  rw [Course.run_bind, Course.run_disk]
  simp only [file, Bool.not_true, Bool.false_eq_true, ↓reduceIte]
  rw [Course.run_bind, leads.run_eq rewriter rfl]

/-- What is in the place of an archive that was moved aside, when the building from its copy
ends. -/
theorem rewriteFrom_cases [Library] {disk : Disk} {path copy : Path} {place copyPlace : Place}
    {content : Bytes} (rooted : disk.Rooted) (lands : disk.Lands path place)
    (gone : disk.kind? place = none) (copyLands : disk.Lands copy copyPlace)
    (copied : disk.kind? copyPlace = some (.file content)) (rewriter : Rewriter σ)
    (options : Options) (system : System) (bench : Bench σ) :
    (∃ entries build after,
    ((rewriteFrom path copy options).carryOut rewriter system).run.run ⟨disk, bench⟩ =
        (.ok build.summary, ⟨after, build.bench⟩) ∧
      Buildable path rewriter options bench content entries build ∧
      disk.Updated after place (some (.file (Library.write build.entries)))) ∨
    ∃ failure after bench' kind,
      ((rewriteFrom path copy options).carryOut rewriter system).run.run ⟨disk, bench⟩ =
        (.error failure, ⟨after, bench'⟩) ∧
      disk.Updated after place kind ∧
      (system.Refuses ∨
      (∀ entries build, ¬ Buildable path rewriter options bench content entries build) ∧
        ∀ entries, Library.read? content = some entries →
          bench'.memory = (rebuildBy path rewriter options entries bench).2.bench.memory) := by
  have free : disk.kind? place ≠ some .directory := by simp [gone]
  have stays : disk.Updated disk place none :=
    ⟨rfl, free, by simp, fun other => by split <;> simp_all⟩
  unfold rewriteFrom
  rw [Course.run_bind]
  rcases Course.see_cases "open archive copy" copy (·.read copy) rewriter system ⟨disk, bench⟩ with
    ⟨value, read, ran⟩ | ⟨fault, ran, why⟩
  case inr =>
    refine .inr ⟨_, disk, bench,
      none, by rw [ran], stays, .inl (why.resolve_right fun failed => ?_)⟩
    cases (copyLands.read copied).symm.trans failed
  cases (copyLands.read copied).symm.trans read
  simp only [ran]
  cases readable : Library.read? content with
  | none =>
    refine .inr ⟨_, disk, bench, none, rfl, stays, .inr ⟨?_, nofun⟩⟩
    rintro entries build ⟨read, -⟩
    cases readable.symm.trans read
  | some entries =>
    simp only
    rw [Course.run_bind]
    rcases Course.change_cases "create archive" path (·.write path []) rewriter
      system ⟨disk, bench⟩ with
      ⟨created, writes, ran⟩ | ⟨fault, ran, why⟩
    case inr =>
      refine .inr ⟨_, disk, bench,
        none, by rw [ran], stays, .inl (why.resolve_right fun failed => ?_)⟩
      cases (lands.write free []).symm.trans failed
    cases (lands.write free []).symm.trans writes
    simp only [ran]
    have empty := lands.written rooted free []
    rw [Course.run_bind, run_rebuild]
    cases rebuilt : rebuildBy path rewriter options entries bench with
    | mk result build =>
      simp only
      obtain ⟨filled, fills, full⟩ := empty.fill lands rooted (Library.write build.entries)
      have remembers (entries' : List Entry) (read : some entries = some entries') :
          build.bench.memory = (rebuildBy path rewriter options entries' bench).2.bench.memory := by
        cases read
        rw [rebuilt]
      cases result with
      | error failure =>
        simp only
        rw [Course.run_bind]
        obtain ⟨left, ran, leaves⟩ := Course.changeIfPossible_cases "leave archive" path
          (·.fill path (Library.write build.entries)) rewriter system
          ⟨disk.putFile [] place, build.bench⟩
        have never (entries' : List Entry) (build' : Rebuild σ) :
            ¬ Buildable path rewriter options bench content entries' build' := by
          rintro ⟨read, built, -⟩
          cases readable.symm.trans read
          cases rebuilt.symm.trans built
        rcases leaves with filled' | rfl
        · cases fills.symm.trans filled'
          exact .inr ⟨failure, filled, build.bench,
            _, by rw [ran]; rfl, full, .inr ⟨never, remembers⟩⟩
        · exact .inr ⟨failure, _, build.bench, _, by rw [ran]; rfl, empty, .inr ⟨never, remembers⟩⟩
      | ok _ =>
        simp only
        rw [Course.run_bind]
        rcases Course.change_cases "flush archive" path
          (·.fill path (Library.write build.entries)) rewriter
            system ⟨disk.putFile [] place, build.bench⟩ with ⟨filled', fills',
            ran⟩ | ⟨fault, ran, why⟩
        case inr =>
          refine .inr ⟨_, _, build.bench,
            _, by rw [ran], empty, .inl (why.resolve_right fun failed => ?_)⟩
          cases fills.symm.trans failed
        cases fills.symm.trans fills'
        simp only [ran]
        cases fitting : Library.fits build.entries with
        | true => exact .inl ⟨entries, build, filled, rfl, ⟨readable, rebuilt, fitting⟩, full⟩
        | false =>
          refine .inr ⟨_, filled, build.bench, _, rfl, full, .inr ⟨?_, remembers⟩⟩
          rintro entries' build' ⟨read, built, fits⟩
          cases readable.symm.trans read
          cases rebuilt.symm.trans built
          cases fitting.symm.trans fits

/-- What an archive that was moved aside is replaced by, or why it is not. -/
theorem replace_cases [Library] {disk : Disk} {path copy : Path} {place copyPlace : Place}
    {content : Bytes} (rooted : disk.Rooted) (lands : disk.Lands path place)
    (gone : disk.kind? place = none) (copyLands : disk.Lands copy copyPlace)
    (copied : disk.kind? copyPlace = some (.file content)) (rewriter : Rewriter σ)
    (options : Options) (system : System) (bench : Bench σ) :
    (∃ summary after bench' entries build,
      ((replace path copy options bench.store).carryOut rewriter system).run.run ⟨disk, bench⟩ =
        (.ok summary, ⟨after, bench'⟩) ∧
      Rewrote path rewriter options bench content summary bench' entries build ∧
      disk.Updated after place (some (.file (Library.write build.entries)))) ∨
    ∃ failure after bench' kind,
      ((replace path copy options bench.store).carryOut rewriter system).run.run ⟨disk, bench⟩ =
        (.error failure, ⟨after, bench'⟩) ∧
      disk.Updated after place kind ∧
      (system.Refuses ∨ ¬ Renewable path rewriter options bench content ∧
        Remembers path rewriter options bench content bench'.memory) := by
  unfold replace
  rw [Course.run_bind, Course.run_setStore]
  simp only
  rw [Course.run_bind]
  rcases rewriteFrom_cases rooted lands gone copyLands copied rewriter options system
      ⟨.empty, bench.memory⟩ with
    ⟨entries, build, after, ran, buildable, full⟩ | ⟨failure, after, bench',
      kind, ran, updated, why⟩
  case inr =>
    refine .inr ⟨failure, after, bench', kind, by rw [ran], updated, why.imp_right ?_⟩
    rintro ⟨never, remembers⟩
    refine ⟨?_, remembers⟩
    rintro ⟨entries, build, -, buildable, -⟩
    exact never entries build buildable
  obtain ⟨readable, rebuilt, fits⟩ := buildable
  simp only [ran]
  rw [Course.run_bind, Course.run_store]
  simp only
  cases merged : bench.store.merge build.bench.store with
  | ok sum => exact .inl ⟨_, after, _, entries, build, rfl,
    ⟨readable, rebuilt, fits, rfl, merged, rfl⟩, full⟩
  | error conflict =>
    refine .inr ⟨_, after, build.bench, _, rfl, full, .inr ⟨?_, fun entries' read => ?_⟩⟩
    · rintro ⟨entries', build', sum, ⟨read, built, -⟩, joined⟩
      cases readable.symm.trans read
      cases rebuilt.symm.trans built
      cases merged.symm.trans joined
    · cases readable.symm.trans read
      rw [rebuilt]

private theorem preserved_of_moved {disk : Disk} {bench : Bench σ} {path copy : Path}
    {place copyPlace : Place} {content : Bytes} {moved : Disk}
    (aside : MovedAside disk moved path copy place copyPlace content) (inner : Failure)
    {after : Disk} {kind : Option Kind} (updated : moved.Updated after place kind) (memory : σ) :
    Preserved path ⟨disk, bench⟩ (inner.withBackup path copy) ⟨after,
    ⟨bench.store, memory⟩⟩ copy place
      copyPlace content where
  lands := aside.lands
  file := aside.file
  copyLands := aside.copyLands
  beside := aside.beside
  fresh := aside.fresh
  backup := ⟨inner, rfl⟩
  store := rfl
  workPlace := updated.workPlace.trans aside.workPlace
  copied := by rw [updated.elsewhere aside.apart, aside.copied]
  noDirectory := by
    rw [updated.here]
    exact updated.leaf
  elsewhere other notPlace notCopy := by
    rw [updated.elsewhere notPlace, aside.kinds, if_neg notPlace, if_neg notCopy]

/-- When the copy is let go, all is as it was but for the new archive. -/
private theorem updated_of_replaced {disk moved written after : Disk} {path copy : Path}
    {place copyPlace : Place} {content new : Bytes}
    (aside : MovedAside disk moved path copy place copyPlace content)
    (put : moved.Updated written place (some (.file new)))
    (erased : written.Updated after copyPlace none) :
    disk.Updated after place (some (.file new)) where
  workPlace := erased.workPlace.trans (put.workPlace.trans aside.workPlace)
  free := by simp [aside.file]
  leaf := by simp
  kinds other := by
    -- The copy lay where nothing had been before.
    rw [erased.kinds, put.kinds, aside.kinds]
    by_cases here : other = place
    · simp [here, Ne.symm aside.apart]
    · by_cases there : other = copyPlace
      · simp [there, aside.fresh, aside.apart]
      · simp [here, there]

/-- How the rewriting of an archive can end. -/
inductive Ends [Library] (path : Path) (rewriter : Rewriter σ) (options : Options) (system : System)
    (shop : Workshop σ) : Except Failure Summary × Workshop σ → Prop where
  | replaced {summary shop' place content entries build}
      (replaced : Replaced path rewriter options shop summary shop' place content entries build) :
      Ends path rewriter options system shop (.ok summary, shop')
  | preserved {failure shop' copy place copyPlace content}
      (preserved : Preserved path shop failure shop' copy place copyPlace content)
      (why : system.Refuses ∨ ¬ Renewable path rewriter options shop.bench content ∧
        Remembers path rewriter options shop.bench content shop'.bench.memory) :
      Ends path rewriter options system shop (.error failure, shop')
  | unmoved {operation at_ fault disk' place copyPlace content}
      (unmoved : Unmoved shop.disk disk' path place copyPlace content)
      (why : system.Refuses ∨ hasRoom path = false) :
      Ends path rewriter options system shop
        (.error (.io operation (some at_) (some fault)), { shop with disk := disk' })
  | copyLeft {fault summary shop' copy place copyPlace content entries build}
      (left : CopyLeft path rewriter options shop summary shop' copy place copyPlace
        content entries build)
      (refused : system.Refuses) :
      Ends path rewriter options system shop
        (.error (.io "remove archive safety copy" (some path) (some fault)), shop')

theorem rewrite_ends [Library] {path : Path} {shop : Workshop σ} (rooted : shop.disk.Rooted)
    (file : shop.disk.isFile path = true) (rewriter : Rewriter σ) (options : Options)
    (system : System) :
    Ends path rewriter options system shop
      ((rewrite path rewriter options system).run.run shop) := by
  obtain ⟨disk, bench⟩ := shop
  obtain ⟨place, content, lands, held⟩ := Disk.lands_of_isFile rooted file
  unfold rewrite course
  rw [Course.run_bind, Course.run_disk]
  simp only [file, Bool.not_true, Bool.false_eq_true, ↓reduceIte]
  rw [Course.run_bind]
  rcases moveAside_cases rooted lands held rewriter system bench with
    ⟨copyPlace, moved, ran, aside⟩ | ⟨operation, at_, fault, disk', copyPlace, ran, unmoved, why⟩
  case inr =>
    rw [ran]
    exact .unmoved unmoved why
  generalize safetyPath path disk = copy at ran aside
  simp only [ran]
  rw [Course.run_bind, Course.run_store]
  simp only
  rw [Course.run_bind, Course.run_tryCatch]
  have copyMoved := aside.copyLands.keep aside.keeps
  rcases replace_cases (rooted.keep aside.keeps) (lands.keep aside.keeps) aside.gone
    copyMoved aside.copied
      rewriter options system bench with
    ⟨summary, after, bench', entries, build, ran, rewrote, full⟩ | ⟨failure, after, bench',
      kind, ran, updated, why⟩
  case inr =>
    rw [ran]
    exact .preserved (preserved_of_moved aside failure updated bench'.memory) why
  simp only [ran]
  rw [Course.run_bind]
  have copyLands := copyMoved.keep full.keeps
  have copied : after.kind? copyPlace = some (.file content) := by
    rw [full.elsewhere aside.apart, aside.copied]
  rcases Course.change_cases "remove archive safety copy" path (·.removeFile copy) rewriter system
      ⟨after, bench'⟩ with ⟨erased, removed, ran⟩ | ⟨fault, ran, why⟩
  · rw [ran]
    cases (copyLands.removeFile copied).symm.trans removed
    exact .replaced ⟨rewrote, lands, held, updated_of_replaced aside full (copyLands.erased copied)⟩
  · have refused : system.Refuses := why.resolve_right fun failed => by
      cases (copyLands.removeFile copied).symm.trans failed
    rw [ran]
    refine .copyLeft ⟨rewrote, lands, held, aside.copyLands, aside.beside, aside.fresh, ?_,
      fun other => ?_⟩ refused
    · exact full.workPlace.trans aside.workPlace
    · rw [full.kinds, aside.kinds]
      split <;> rfl

/-- A rewriting that succeeds has replaced the archive, and let go of its copy. -/
theorem replaced_of_success [Library] {path : Path} {rewriter : Rewriter σ} {options : Options}
    {system : System} {shop shop' : Workshop σ} {summary : Summary} (rooted : shop.disk.Rooted)
    (succeeded : (rewrite path rewriter options system).run.run shop = (.ok summary, shop')) :
    ∃ place content entries build,
      Replaced path rewriter options shop summary shop' place content entries build := by
  cases file : shop.disk.isFile path with
  | false =>
    rw [run_rewrite_of_not_isFile file] at succeeded
    cases (Prod.mk.inj succeeded).1
  | true =>
    have ends := rewrite_ends rooted file rewriter options system
    rw [succeeded] at ends
    cases ends with
    | replaced replaced => exact ⟨_, _, _, _, replaced⟩

theorem hasRoom_of_success [Library] {path : Path} {rewriter : Rewriter σ} {options : Options}
    {shop shop' : Workshop σ} {summary : Summary}
    (succeeded : (rewrite path rewriter options).run.run shop = (.ok summary, shop')) :
    hasRoom path = true := by
  cases file : shop.disk.isFile path with
  | false =>
    rw [run_rewrite_of_not_isFile file] at succeeded
    cases (Prod.mk.inj succeeded).1
  | true =>
    by_contra full
    obtain ⟨fault, failed⟩ :=
      run_rewrite_of_noRoom file (Bool.not_eq_true _ ▸ full) rewriter options
    rw [succeeded] at failed
    cases (Prod.mk.inj failed).1

/-- The rewriter remembers the building of the archive, unless there is no room for the name of a
copy. -/
theorem memory_of_rewrite [Library] {path : Path} {shop shop' : Workshop σ} {place : Place}
    {content : Bytes} {entries : List Entry} {rewriter : Rewriter σ} {options : Options}
    {result : Except Failure Summary} (rooted : shop.disk.Rooted)
    (lands : shop.disk.Lands path place) (held : shop.disk.kind? place = some (.file content))
    (readable : Library.read? content = some entries)
    (run : (rewrite path rewriter options).run.run shop = (result, shop')) :
    (shop'.bench.memory =
        (rebuildBy path rewriter options entries ⟨.empty, shop.bench.memory⟩).2.bench.memory ∧
      ∀ summary, result = .ok summary →
        (rebuildBy path rewriter options entries ⟨.empty, shop.bench.memory⟩).1 = .ok ()) ∨
    hasRoom path = false ∧ shop'.bench = shop.bench ∧ ∃ failure, result = .error failure := by
  have same {place' : Place} {content' : Bytes} (lands' : shop.disk.Lands path place')
      (held' : shop.disk.kind? place' = some (.file content')) : content' = content :=
    Except.ok.inj ((lands'.read held').symm.trans (lands.read held))
  have ends := rewrite_ends rooted (lands.isFile held) rewriter options {}
  rw [run] at ends
  cases ends with
  | replaced replaced =>
    cases same replaced.lands replaced.file
    cases readable.symm.trans replaced.readable
    rw [replaced.rebuilt]
    exact .inl ⟨replaced.memory, fun _ _ => rfl⟩
  | preserved preserved why =>
    cases same preserved.lands preserved.file
    obtain ⟨-, remembers⟩ := why.resolve_left System.not_refuses_of_default
    exact .inl ⟨remembers entries readable, nofun⟩
  | unmoved _ why => exact .inr ⟨why.resolve_left System.not_refuses_of_default, rfl, _, rfl⟩
  | copyLeft left refused => exact (System.not_refuses_of_default refused).elim

end ClassCoverage.Archive
