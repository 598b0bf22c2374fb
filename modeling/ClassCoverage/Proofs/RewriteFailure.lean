import ClassCoverage.Proofs.ArchiveRoundTrip
import ClassCoverage.Proofs.RewriteOutcome
import ClassCoverage.Proofs.StoreSums
import ClassCoverage.Rewriter.Marking

/-! Failed rewriting of archives. Whatever stops it, and whichever operations are refused, every
byte of the archive is found again: where it lay, or next to that. -/
namespace ClassCoverage.Archive
open ClassCoverage.Path
variable {σ : Type}

/-- A failure before the archive was moved aside. The archive is where it was, and nothing has
changed but that a file may have been left next to it. -/
structure InPlace (path : Path) (disk : Disk) (failure : Failure) (disk' : Disk)
    (place copyPlace : Place) (content : Bytes) : Prop where
  resolved : disk.resolve path = .ok place
  original : disk.read path = .ok content
  still : disk'.read path = .ok content
  kind : failure.kind = "IoError"
  named : failure.backup? = none
  beside : copyPlace.dropLast = place.dropLast
  fresh : disk.kind? copyPlace = none
  elsewhere : ∀ other, other ≠ copyPlace → disk'.kind? other = disk.kind? other

/-- A failure that leaves the archive in a copy next to its place, and says so. Nothing but the
archive itself was lost from its place, and the copy took no place of another file. -/
structure Kept (path : Path) (disk : Disk) (failure : Failure) (disk' : Disk) (copy : Path)
    (place copyPlace : Place) (content : Bytes) : Prop where
  resolved : disk.resolve path = .ok place
  original : disk.read path = .ok content
  kind : failure.kind = "ArchiveError"
  named : failure.backup? = some copy
  copyResolved : disk'.resolve copy = .ok copyPlace
  copied : disk'.read copy = .ok content
  beside : copyPlace.dropLast = place.dropLast
  fresh : disk.kind? copyPlace = none
  elsewhere : ∀ other, other ≠ place → other ≠ copyPlace → disk'.kind? other = disk.kind? other

/-- A failure to let go of the copy of an archive that was replaced. Both archives are there. -/
structure CopyKept [Library] (path : Path) (rewriter : Rewriter σ) (options : Options)
    (shop : Workshop σ) (failure : Failure) (shop' : Workshop σ) (copy : Path)
    (place copyPlace : Place) (content : Bytes) :
    Prop where
  rewrote : ∃ summary entries build,
    Rewrote path rewriter options shop.bench content summary shop'.bench entries build ∧
      shop'.disk.read path = .ok (Library.write build.entries)
  resolved : shop.disk.resolve path = .ok place
  original : shop.disk.read path = .ok content
  kind : failure.kind = "IoError"
  named : failure.backup? = none
  copyResolved : shop'.disk.resolve copy = .ok copyPlace
  copied : shop'.disk.read copy = .ok content
  beside : copyPlace.dropLast = place.dropLast
  fresh : shop.disk.kind? copyPlace = none
  elsewhere : ∀ other, other ≠ place → other ≠ copyPlace →
    shop'.disk.kind? other = shop.disk.kind? other

/-- What a failed rewriting has left behind. -/
inductive NothingLost [Library] (path : Path) (rewriter : Rewriter σ) (options : Options)
    (system : System) (shop : Workshop σ) (failure : Failure) (shop' : Workshop σ) : Prop where
  | missing (missing : shop.disk.isFile path = false) (same : shop' = shop)
  | inPlace {place copyPlace content} (bench : shop'.bench = shop.bench)
      (inPlace : InPlace path shop.disk failure shop'.disk place copyPlace content)
      (why : system.Refuses ∨ hasRoom path = false)
  | kept {copy place copyPlace content} (store : shop'.bench.store = shop.bench.store)
      (kept : Kept path shop.disk failure shop'.disk copy place copyPlace content)
  | copyKept {copy place copyPlace content}
      (kept : CopyKept path rewriter options shop failure shop' copy place copyPlace content)
      (refused : system.Refuses)

variable {path copy : Path} {place copyPlace : Place} {content : Bytes} {rewriter : Rewriter σ}
  {options : Options} {shop shop' : Workshop σ} {failure : Failure}

theorem Unmoved.inPlace {disk disk' : Disk}
    (unmoved : Unmoved disk disk' path place copyPlace content) (operation : String) (at_ : Path)
    (fault : Fault) :
    InPlace path disk (.io operation (some at_) (some fault)) disk' place copyPlace content where
  resolved := unmoved.lands.resolve unmoved.file
  original := unmoved.lands.read unmoved.file
  still := by
    have apart : place ≠ copyPlace := by
      rintro rfl
      cases unmoved.file.symm.trans unmoved.fresh
    have keeps : disk.Keeps disk' := by
      refine ⟨unmoved.workPlace, fun other found => ?_⟩
      rw [unmoved.elsewhere, found]
      rintro rfl
      cases found.symm.trans unmoved.fresh
    refine (unmoved.lands.keep keeps).read ?_
    rw [unmoved.elsewhere _ apart, unmoved.file]
  kind := rfl
  named := rfl
  beside := unmoved.beside
  fresh := unmoved.fresh
  elsewhere := unmoved.elsewhere

theorem Preserved.keeps
    (preserved : Preserved path shop failure shop' copy place copyPlace content) :
    shop.disk.Keeps shop'.disk where
  workPlace := preserved.workPlace
  directory other found := by
    rw [preserved.elsewhere, found]
    · rintro rfl
      cases found.symm.trans preserved.file
    · rintro rfl
      cases found.symm.trans preserved.fresh

theorem Preserved.kept
    (preserved : Preserved path shop failure shop' copy place copyPlace content) :
    Kept path shop.disk failure shop'.disk copy place copyPlace content := by
  obtain ⟨inner, same⟩ := preserved.backup
  have copyLands := preserved.copyLands.keep preserved.keeps
  exact {
    resolved := preserved.lands.resolve preserved.file
    original := preserved.lands.read preserved.file
    kind := by rw [same, Failure.kind_withBackup]
    named := by rw [same, Failure.backup?_withBackup]
    copyResolved := copyLands.resolve preserved.copied
    copied := copyLands.read preserved.copied
    beside := preserved.beside
    fresh := preserved.fresh
    elsewhere := preserved.elsewhere }

theorem CopyLeft.copyKept [Library] {summary : Summary} {entries : List Entry} {build : Rebuild σ}
    (left : CopyLeft path rewriter options shop summary shop' copy place copyPlace content entries
      build) (fault : Fault) :
    CopyKept path rewriter options shop
      (.io "remove archive safety copy" (some path) (some fault)) shop'
      copy place copyPlace content := by
  have apart : copyPlace ≠ place := by
    rintro rfl
    cases left.file.symm.trans left.fresh
  have keeps : shop.disk.Keeps shop'.disk := by
    refine ⟨left.workPlace, fun other found => ?_⟩
    rw [left.kinds, if_neg, if_neg, found]
    · rintro rfl
      cases found.symm.trans left.fresh
    · rintro rfl
      cases found.symm.trans left.file
  have copied : shop'.disk.kind? copyPlace = some (.file content) := by
    rw [left.kinds, if_neg apart, if_pos rfl]
  have new : shop'.disk.kind? place = some (.file (Library.write build.entries)) := by
    rw [left.kinds, if_pos rfl]
  have copyLands := left.copyLands.keep keeps
  exact {
    rewrote := ⟨summary, entries, build, left.toRewrote, (left.lands.keep keeps).read new⟩
    resolved := left.lands.resolve left.file
    original := left.lands.read left.file
    kind := rfl
    named := rfl
    copyResolved := copyLands.resolve copied
    copied := copyLands.read copied
    beside := left.beside
    fresh := left.fresh
    elsewhere := fun other notPlace notCopy => by rw [left.kinds, if_neg notPlace, if_neg notCopy] }

/-- A failed run loses nothing. Where no operation is refused and the name of the copy has room, the
store is left alone, and the failure names a copy that has every byte of the archive. -/
theorem rewrite_failure_loses_nothing [Library] {path : Path} {rewriter : Rewriter σ}
    {options : Options} {system : System} {shop shop' : Workshop σ} {failure : Failure}
    (rooted : shop.disk.Rooted)
    (failed : (rewrite path rewriter options system).run.run shop = (.error failure, shop')) :
    NothingLost path rewriter options system shop failure shop' := by
  cases file : shop.disk.isFile path with
  | false =>
    rw [run_rewrite_of_not_isFile file] at failed
    exact .missing file (Prod.mk.inj failed).2.symm
  | true =>
    have ends := rewrite_ends rooted file rewriter options system
    rw [failed] at ends
    cases ends with
    | preserved preserved => exact .kept preserved.store preserved.kept
    | unmoved unmoved why => exact .inPlace rfl (unmoved.inPlace _ _ _) why
    | copyLeft left refused => exact .copyKept (left.copyKept _) refused

/-! An archive of two classes, and a rewriter that fails on the second. -/

private def classNamed (name : String) : Entry := .withContent { name := name } [1]

private def shopWith (name : String) (classes : List String) : Workshop Nat where
  disk := {
    root := .file name (write (classes.map classNamed)) .empty
    ordered := ⟨by simp [Listing.names], trivial⟩
    workPlace := [] }
  bench := ⟨.single { name := "Z" }, 0⟩

private def failsOnB : Rewriter Nat := Marking.rewriter { failOn := some "B.class" }

private theorem storable_classNamed (name : String) : Storable (classNamed name) where
  method := ⟨0, rfl, by decide⟩
  stamp := nofun
  encrypted := rfl
  mode := ⟨0o100644, rfl, by decide, by decide⟩
  stored := rfl

attribute [local instance] plainLibrary

private theorem read_twoClasses : Library.read? (write (["A.class", "B.class"].map classNamed)) =
    some ((["A.class", "B.class"].map classNamed).map reread) := by
  refine read?_write (by decide +kernel) ?_ (by decide)
  intro entry member
  obtain ⟨name, -, rfl⟩ := List.mem_map.mp member
  exact storable_classNamed name

theorem rewrite_failure_of_second_class :
    ∃ failure shop', (rewrite ⟨"app.jar"⟩ failsOnB {}).run.run
      (shopWith "app.jar" ["A.class", "B.class"]) =
        (.error failure, shop') ∧
      shop'.bench = ⟨.single { name := "Z" }, 2⟩ ∧
      ∃ copy place copyPlace content,
        Kept ⟨"app.jar"⟩ (shopWith "app.jar" ["A.class", "B.class"]).disk failure
        shop'.disk copy place copyPlace content := by
  have rooted : (shopWith "app.jar" ["A.class", "B.class"]).disk.Rooted := ⟨rfl, by simp [shopWith]⟩
  have file : (shopWith "app.jar" ["A.class", "B.class"]).disk.isFile ⟨"app.jar"⟩ = true := rfl
  have rebuilt :
      (rebuildBy ⟨"app.jar"⟩ failsOnB {} ((["A.class", "B.class"].map classNamed).map reread)
      ⟨.empty, 0⟩).1 = .error (.rewriter "B.class" "unsupported class version") := by decide +kernel
  have remembered :
      (rebuildBy ⟨"app.jar"⟩ failsOnB {} ((["A.class", "B.class"].map classNamed).map reread)
      ⟨.empty, 0⟩).2.bench.memory = 2 := by decide +kernel
  obtain ⟨place, content, lands, held⟩ := Disk.lands_of_isFile rooted file
  cases Except.ok.inj ((lands.read held).symm.trans rfl)
  cases ran : (rewrite ⟨"app.jar"⟩ failsOnB {}).run.run
    (shopWith "app.jar" ["A.class", "B.class"]) with
  | mk result shop' =>
    have room : hasRoom ⟨"app.jar"⟩ = true := by decide +kernel
    obtain ⟨memory, completes⟩ :=
      (memory_of_rewrite rooted lands held read_twoClasses ran).resolve_right
      fun ⟨full, _⟩ => by cases room.symm.trans full
    cases result with
    | ok summary => cases rebuilt.symm.trans (completes summary rfl)
    | error failure =>
      cases rewrite_failure_loses_nothing rooted ran with
      | missing missing => cases file.symm.trans missing
      | inPlace _ _ why =>
        cases room.symm.trans (why.resolve_left System.not_refuses_of_default)
      | copyKept _ refused => exact (System.not_refuses_of_default refused).elim
      | kept store kept =>
        refine ⟨failure, shop', rfl, ?_, _, _, _, _, kept⟩
        obtain ⟨_, _, _⟩ := shop'
        cases store
        cases memory.trans remembered
        rfl

/-- The name of an archive whose copy cannot be named. -/
private def longName : String := String.ofList (.replicate 243 'a')

private theorem longName_named : IsName longName := by
  refine .of_length ?_ ?_
  · unfold longName
    rw [String.toList_ofList, List.length_replicate]
    decide
  · unfold longName
    rw [String.toList_ofList, List.mem_replicate]
    decide

/-- A system that keeps all safety copies. -/
private def keepsCopies : System where
  refuses operation _ _ := if operation = "remove archive safety copy" then some .notPermitted
    else none

/-- A failure can name no copy, and can leave the records of the classes in the store. -/
theorem rewrite_failure_without_backup :
    (∃ failure, (rewrite ⟨longName⟩ (Marking.rewriter {}) {}).run.run (shopWith longName []) =
        (.error failure, shopWith longName []) ∧
      (shopWith longName []).disk.isFile ⟨longName⟩ = true ∧ failure.kind = "IoError" ∧
      failure.backup? = none) ∧
    ∃ failure shop', (rewrite ⟨"app.jar"⟩ (Marking.rewriter {}) {} keepsCopies).run.run
        (shopWith "app.jar" ["A.class"]) = (.error failure, shop') ∧
      failure.kind = "IoError" ∧ shop'.bench.store ≠
        (shopWith "app.jar" ["A.class"]).bench.store := by
  constructor
  · have split : (⟨longName⟩ : Path).segments = [] ++ [longName] :=
      segmentsOf_of_plain longName_named.plain
    have start : (shopWith longName []).disk.start ⟨longName⟩ = [] := by
      unfold Disk.start
      split <;> rfl
    have lands : (shopWith longName []).disk.Lands ⟨longName⟩ [longName] :=
      ⟨[], longName, [], split, longName_named, congrArg some start, rfl⟩
    have held : (shopWith longName []).disk.kind? [longName] = some (.file (write [])) :=
      Disk.at?_eq_file_iff.mp (by simp [Disk.at?, Listing.at?, Listing.find?, shopWith])
    have file : (shopWith longName []).disk.isFile ⟨longName⟩ = true := lands.isFile held
    have full : hasRoom ⟨longName⟩ = false := by
      have long : longName.utf8ByteSize = 243 := by decide +kernel
      rw [← Bool.not_eq_true, hasRoom_iff split longName_named, long]
      decide
    obtain ⟨fault, ran⟩ := run_rewrite_of_noRoom file full (Marking.rewriter {}) {}
    exact ⟨_, ran, file, rfl, rfl⟩
  · cases ran : (rewrite ⟨"app.jar"⟩ (Marking.rewriter {}) {} keepsCopies).run.run
        (shopWith "app.jar" ["A.class"]) with
    | mk result shop' =>
      have failed : ((rewrite ⟨"app.jar"⟩ (Marking.rewriter {}) {} keepsCopies).run.run
          (shopWith "app.jar" ["A.class"])).1 =
          .error (.io "remove archive safety copy" (some ⟨"app.jar"⟩) (some .notPermitted)) := by
        decide +kernel
      have stored : ((rewrite ⟨"app.jar"⟩ (Marking.rewriter {}) {} keepsCopies).run.run
          (shopWith "app.jar" ["A.class"])).2.bench.store ≠
            (shopWith "app.jar" ["A.class"]).bench.store := by
        decide +kernel
      rw [ran] at failed stored
      exact ⟨_, shop', Prod.ext failed rfl, rfl, stored⟩

end ClassCoverage.Archive
