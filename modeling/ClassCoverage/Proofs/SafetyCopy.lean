import ClassCoverage.Archive.Rewrite
import ClassCoverage.Proofs.CourseRuns
import ClassCoverage.Proofs.FreshNames

/-! Safety copies of archives. An archive that is moved aside is found again, byte for byte, at a
new place next to the old one. -/
namespace ClassCoverage.Archive
open ClassCoverage.Path

theorem safetyName_naming {name : String} (named : IsName name) :
    Disk.Naming (safetyName name) where
  injective one other same := by
    unfold safetyName at same
    have texts := congrArg String.toList same
    simp only [String.toList_append, List.append_cancel_right_eq,
      List.append_cancel_left_eq] at texts
    exact String.toList_inj.mp texts
  named number plain := by
    have size : 2 < (safetyName name number).toList.length := by
      simp [safetyName]
      omega
    exact .of_length size (by simp [safetyName, named.plain, plain])

theorem lands_absolute {disk : Disk} (rooted : disk.Rooted) {path : Path} {place : Place}
    (lands : disk.Lands path place) : disk.Lands (absolute disk path) place := by
  cases own : path.isAbsolute with
  | true =>
    rw [absolute, join_of_isAbsolute _ own]
    exact lands
  | false =>
    obtain ⟨front, name, directory, split, named, walked, rfl⟩ := lands
    have nonempty : "/" ++ Text.join "/" disk.workPlace ≠ "" := by
      intro empty
      have shown := congrArg String.toList empty
      simp at shown
    obtain ⟨before, segments, steps, fromRoot⟩ :=
      @join_of_relative ⟨"/" ++ Text.join "/" disk.workPlace⟩ path own nonempty
    rw [steps_rooted rooted.named] at steps
    refine ⟨before ++ front, name, directory, ?_, named, ?_, rfl⟩
    · rw [absolute, segments, split, List.append_assoc]
    · have start : disk.start (absolute disk path) = [] := by
        unfold Disk.start absolute
        rw [fromRoot, (isAbsolute_iff _).mpr ⟨(Text.join "/" disk.workPlace).toList, by
          simp [chars]⟩]
        rfl
      have home : Disk.walk disk.root [] disk.workPlace = some disk.workPlace :=
        Disk.walk_names rooted.named rooted.directory
      have relative : disk.start path = disk.workPlace := by
        unfold Disk.start
        simp [own]
      rw [start, List.filter_append, steps, Disk.walk_append home, ← relative, walked]

/-- A place next to a file that the safety copy of the file may get. -/
def IsSpare (place other : Place) : Prop :=
  ∃ name number, place.getLast? = some name ∧ '.' ∉ number.toList ∧
    other = place.dropLast ++ [safetyName name number]

private theorem eq_of_last_mark {α : Type} {mark : α} {front front' back back' : List α}
    (same : front ++ mark :: back = front' ++ mark :: back') (none : mark ∉ back)
    (none' : mark ∉ back') :
    front = front' := by
  rcases List.append_eq_append_iff.mp same with ⟨more, rfl, rest⟩ | ⟨more, rfl, rest⟩
  · cases more with
    | nil => exact (List.append_nil front).symm
    | cons first more =>
      obtain ⟨-, rfl⟩ := List.cons_eq_cons.mp rest
      exact absurd (List.mem_append_right more (List.mem_cons_self ..)) none
  · cases more with
    | nil => exact List.append_nil front'
    | cons first more =>
      obtain ⟨-, rfl⟩ := List.cons_eq_cons.mp rest
      exact absurd (List.mem_append_right more (List.mem_cons_self ..)) none'

/-- The name of a copy tells which file it is one of. -/
theorem IsSpare.unique {place place' other : Place} (spare : IsSpare place other)
    (spare' : IsSpare place' other) :
    place = place' := by
  obtain ⟨name, number, last, plain, rfl⟩ := spare
  obtain ⟨name', number', last', plain', same⟩ := spare'
  obtain ⟨front, rfl⟩ := List.getLast?_eq_some_iff.mp last
  obtain ⟨front', rfl⟩ := List.getLast?_eq_some_iff.mp last'
  rw [List.dropLast_concat, List.dropLast_concat] at same
  obtain ⟨directory, called⟩ := List.append_inj' same rfl
  have chars := congrArg String.toList (List.cons_eq_cons.mp called).1
  unfold safetyName at chars
  simp only [String.toList_append, List.append_assoc, List.append_cancel_left_eq] at chars
  have marked : name.toList ++ '.' :: number.toList = name'.toList ++ '.' :: number'.toList := by
    have whole : (name.toList ++ '.' :: number.toList) ++ ".orig".toList =
        (name'.toList ++ '.' :: number'.toList) ++ ".orig".toList := by simpa using chars
    exact List.append_cancel_right whole
  rw [directory, String.toList_inj.mp (eq_of_last_mark marked plain plain')]

/-- An archive that was moved aside: where it lay, what it held, and where its copy lies now. -/
structure MovedAside (disk disk' : Disk) (path copy : Path) (place copyPlace : Place)
    (content : Bytes) : Prop where
  lands : disk.Lands path place
  file : disk.kind? place = some (.file content)
  copyLands : disk.Lands copy copyPlace
  beside : copyPlace.dropLast = place.dropLast
  fresh : disk.kind? copyPlace = none
  workPlace : disk'.workPlace = disk.workPlace
  kinds : ∀ other, disk'.kind? other =
    if other = place then none
    else if other = copyPlace then some (.file content) else disk.kind? other

namespace MovedAside
variable {disk disk' : Disk} {path copy : Path} {place copyPlace : Place} {content : Bytes}

theorem apart (moved : MovedAside disk disk' path copy place copyPlace content) :
    copyPlace ≠ place := by
  intro same
  have file := moved.file
  rw [← same, moved.fresh] at file
  cases file

theorem copied (moved : MovedAside disk disk' path copy place copyPlace content) :
    disk'.kind? copyPlace = some (.file content) := by
  rw [moved.kinds, if_neg moved.apart, if_pos rfl]

theorem gone (moved : MovedAside disk disk' path copy place copyPlace content) :
    disk'.kind? place = none := by
  rw [moved.kinds, if_pos rfl]

theorem keeps (moved : MovedAside disk disk' path copy place copyPlace content) :
    disk.Keeps disk' where
  workPlace := moved.workPlace
  directory other found := by
    rw [moved.kinds, if_neg, if_neg, found]
    · rintro rfl
      simp [moved.fresh] at found
    · rintro rfl
      simp [moved.file] at found

end MovedAside

/-- An archive that was not moved aside. It lies where it lay, and nothing has changed but that a
new file may lie next to it. -/
structure Unmoved (disk disk' : Disk) (path : Path) (place copyPlace : Place) (content : Bytes) :
    Prop where
  lands : disk.Lands path place
  file : disk.kind? place = some (.file content)
  beside : copyPlace.dropLast = place.dropLast
  fresh : disk.kind? copyPlace = none
  workPlace : disk'.workPlace = disk.workPlace
  elsewhere : ∀ other, other ≠ copyPlace → disk'.kind? other = disk.kind? other

/-! The file for the copy is created under a path where nothing lies. -/

/-- The path that the copy of a file gets, and the place it leads to. -/
theorem lands_safetyPath {disk : Disk} (rooted : disk.Rooted) {path : Path} {place : Place}
    (lands : disk.Lands path place) :
    ∃ copyPlace, disk.Lands (safetyPath path disk) copyPlace ∧ copyPlace.dropLast = place.dropLast ∧
      disk.kind? copyPlace = none := by
  obtain ⟨front, name, directory, split, named, walked, same⟩ := lands
  have lands : disk.Lands path place := ⟨front, name, directory, split, named, walked, same⟩
  have called : path.fileName?.getD "" = name := by rw [fileName?_of_segments split named]; rfl
  obtain ⟨fresh, absent⟩ := lands.fresh rooted (safetyName_naming named)
  rw [← called] at fresh absent
  exact ⟨_, lands_absolute rooted (lands.sibling fresh), List.dropLast_concat, absent⟩

section
variable {σ : Type} {disk : Disk} {path : Path} {place copyPlace : Place} {content : Bytes}

/-- A name can have as many bytes as are left beside the rest of the name of a copy. -/
theorem hasRoom_iff {front : List String} {name : String} (split : path.segments = front ++ [name])
    (named : IsName name) : hasRoom path = true ↔ name.utf8ByteSize ≤ 242 := by
  unfold hasRoom safetyName
  rw [fileName?_of_segments split named, Option.getD_some, decide_eq_true_iff]
  simp only [String.utf8ByteSize_append]
  have dot : ".".utf8ByteSize = 1 := rfl
  have number : "XXXXXX".utf8ByteSize = 6 := rfl
  have ending : ".orig".utf8ByteSize = 5 := rfl
  unfold Disk.nameLimit
  omega

/-- It does not matter under which path an archive is reached. -/
theorem hasRoom_of_lands {disk' : Disk} {path' : Path} (lands : disk.Lands path place)
    (lands' : disk'.Lands path' place) : hasRoom path = hasRoom path' := by
  obtain ⟨front, name, directory, split, named, -, same⟩ := lands
  obtain ⟨front', name', directory', split', named', -, same'⟩ := lands'
  obtain ⟨-, own⟩ := List.append_inj' (same.symm.trans same') rfl
  cases own
  rw [Bool.eq_iff_iff, hasRoom_iff split named, hasRoom_iff split' named']

theorem makeSafetyFile_of_hasRoom (room : hasRoom path = true) {disk' : Disk}
    (written : disk.write (safetyPath path disk) [] = .ok disk') :
    makeSafetyFile path disk = .ok disk' := by
  unfold makeSafetyFile
  simp only [room, ↓reduceIte, written]
  rfl

theorem write_of_makeSafetyFile {disk' : Disk} (made : makeSafetyFile path disk = .ok disk') :
    disk.write (safetyPath path disk) [] = .ok disk' := by
  unfold makeSafetyFile at made
  cases room : hasRoom path with
  | false =>
    simp only [room, Bool.false_eq_true, ↓reduceIte] at made
    cases made
  | true =>
    simp only [room, ↓reduceIte] at made
    cases written : disk.write (safetyPath path disk) [] with
    | error fault =>
      rw [written] at made
      cases made
    | ok disk'' =>
      rw [written] at made
      exact made

theorem makeSafetyFile_of_noRoom (full : hasRoom path = false) (disk : Disk) :
    ∃ fault, makeSafetyFile path disk = .error fault := by
  unfold makeSafetyFile
  simp only [full, Bool.false_eq_true, ↓reduceIte]
  exact ⟨_, rfl⟩

theorem createSafetyFile_cases (path : Path) (rewriter : Rewriter σ) (system : System) (disk : Disk)
    (bench : Bench σ) :
    (∃ disk', disk.write (safetyPath path disk) [] = .ok disk' ∧
      ((createSafetyFile path).carryOut rewriter system).run.run ⟨disk, bench⟩ =
        (.ok (safetyPath path disk), ⟨disk', bench⟩)) ∨
    ∃ fault, ((createSafetyFile path).carryOut rewriter system).run.run ⟨disk, bench⟩ =
        (.error (.io "create archive safety copy" (some path.directory)
          (some fault)), ⟨disk, bench⟩) ∧
      (system.Refuses ∨ makeSafetyFile path disk = .error fault) := by
  unfold createSafetyFile
  rw [Course.run_act]
  cases attempted : system.attempt "create archive safety copy" path.directory (makeSafetyFile path)
      disk with
  | error fault => exact .inr ⟨fault, rfl, System.of_attempt_error attempted⟩
  | ok disk' =>
    exact .inl ⟨disk', write_of_makeSafetyFile (System.of_attempt_ok attempted), rfl⟩

/-- A file that is there is moved to the new file, unless an operation is refused. -/
theorem moveTo_cases {copy : Path} {created : Disk} (rooted : disk.Rooted)
    (lands : disk.Lands path place) (file : disk.kind? place = some (.file content))
    (copyLands : disk.Lands copy copyPlace) (beside : copyPlace.dropLast = place.dropLast)
    (fresh : disk.kind? copyPlace = none) (empty : disk.Updated created copyPlace (some (.file [])))
    (rewriter : Rewriter σ) (system : System) (bench : Bench σ) :
    (∃ disk', ((moveTo path copy).carryOut rewriter system).run.run ⟨created, bench⟩ =
        (.ok (), ⟨disk', bench⟩) ∧ MovedAside disk disk' path copy place copyPlace content) ∨
    ∃ operation fault disk' held,
      ((moveTo path copy).carryOut rewriter system).run.run ⟨created, bench⟩ =
        (.error (.io operation (some path) (some fault)), ⟨disk', bench⟩) ∧
      disk.Updated disk' copyPlace (some (.file held)) ∧ system.Refuses := by
  have apart : place ≠ copyPlace := by
    rintro rfl
    simp [file] at fresh
  have found := lands.keep empty.keeps
  have still : created.kind? place = some (.file content) := by rw [empty.elsewhere apart, file]
  unfold moveTo
  rw [Course.run_bind]
  rcases Course.see_cases "copy archive" path (·.read path) rewriter system ⟨created, bench⟩ with
    ⟨value, read, ran⟩ | ⟨fault, ran, why⟩
  case inr =>
    refine .inr ⟨_, fault, created, [], by rw [ran], empty, why.resolve_right fun failed => ?_⟩
    cases (found.read still).symm.trans failed
  cases (found.read still).symm.trans read
  simp only [ran]
  rw [Course.run_bind]
  obtain ⟨filled, fills, full⟩ := empty.fill copyLands rooted content
  rcases Course.change_cases "copy archive" path (·.fill copy content) rewriter system
    ⟨created, bench⟩ with
    ⟨disk', filled', ran⟩ | ⟨fault, ran, why⟩
  case inr =>
    refine .inr ⟨_, fault, created, [], by rw [ran], empty, why.resolve_right fun failed => ?_⟩
    cases fills.symm.trans failed
  cases fills.symm.trans filled'
  simp only [ran]
  have found := lands.keep full.keeps
  have still : filled.kind? place = some (.file content) := by rw [full.elsewhere apart, file]
  rcases Course.change_cases "remove original archive" path (·.removeFile path) rewriter system
      ⟨filled, bench⟩ with ⟨disk', removed, ran⟩ | ⟨fault, ran, why⟩
  case inr =>
    refine .inr ⟨_, fault, filled, content, ran, full, why.resolve_right fun failed => ?_⟩
    cases (found.removeFile still).symm.trans failed
  cases (found.removeFile still).symm.trans removed
  have erased := found.erased still
  refine .inl ⟨_, ran, lands, file, copyLands, beside, fresh, ?_, fun other => ?_⟩
  · rw [erased.workPlace, full.workPlace]
  · rw [erased.kinds, full.kinds]

/-- A file that is there is moved aside, unless an operation is refused. -/
theorem moveAside_cases (rooted : disk.Rooted) (lands : disk.Lands path place)
    (file : disk.kind? place = some (.file content)) (rewriter : Rewriter σ) (system : System)
    (bench : Bench σ) :
    (∃ copyPlace disk', ((moveAside path).carryOut rewriter system).run.run ⟨disk, bench⟩ =
        (.ok (safetyPath path disk), ⟨disk', bench⟩) ∧
      MovedAside disk disk' path (safetyPath path disk) place copyPlace content) ∨
    ∃ operation at_ fault disk' copyPlace,
      ((moveAside path).carryOut rewriter system).run.run ⟨disk, bench⟩ =
        (.error (.io operation (some at_) (some fault)), ⟨disk', bench⟩) ∧
      Unmoved disk disk' path place copyPlace content ∧
      (system.Refuses ∨ hasRoom path = false) := by
  obtain ⟨copyPlace, copyLands, beside, fresh⟩ := lands_safetyPath rooted lands
  have free : disk.kind? copyPlace ≠ some .directory := by simp [fresh]
  unfold moveAside
  rw [Course.run_bind]
  rcases createSafetyFile_cases path rewriter system disk bench with
    ⟨created, written, ran⟩ | ⟨fault, ran, why⟩
  case inr =>
    refine .inr ⟨_, _, fault, disk, copyPlace, by rw [ran],
      ⟨lands, file, beside, fresh, rfl, fun _ _ => rfl⟩, why.imp_right fun failed => ?_⟩
    by_contra room
    rw [Bool.not_eq_false] at room
    rw [makeSafetyFile_of_hasRoom room (copyLands.write free [])] at failed
    cases failed
  cases (copyLands.write free []).symm.trans written
  have empty := copyLands.written rooted free []
  simp only [ran]
  rw [Course.run_bind, Course.run_tryCatch]
  rcases moveTo_cases rooted lands file copyLands beside fresh empty rewriter system bench with
    ⟨disk', ran, moved⟩ | ⟨operation, fault, disk', held, ran, updated, refused⟩
  · exact .inl ⟨copyPlace, disk', by rw [ran]; rfl, moved⟩
  · simp only [ran]
    rw [Course.run_bind]
    obtain ⟨dropped, ran, drop⟩ := Course.changeIfPossible_cases "drop archive safety copy"
      (safetyPath path disk) (·.removeFile (safetyPath path disk)) rewriter system ⟨disk', bench⟩
    have found := copyLands.keep updated.keeps
    have same : dropped.workPlace = disk.workPlace ∧
        ∀ other, other ≠ copyPlace → dropped.kind? other = disk.kind? other := by
      rcases drop with removed | rfl
      · cases (found.removeFile updated.here).symm.trans removed
        have erased := found.erased updated.here
        exact ⟨erased.workPlace.trans updated.workPlace, fun other apart =>
          (erased.elsewhere apart).trans (updated.elsewhere apart)⟩
      · exact ⟨updated.workPlace, fun other apart => updated.elsewhere apart⟩
    exact .inr ⟨operation, path, fault, dropped, copyPlace, by rw [ran]; rfl,
      ⟨lands, file, beside, fresh, same.1, same.2⟩, .inl refused⟩

/-- Without room for the name of the copy, nothing is done. -/
theorem leads_moveAside_of_noRoom {path : Path} (full : hasRoom path = false) (disk : Disk) :
    ∃ fault, Course.Leads (moveAside path) disk
      (.error (.io "create archive safety copy" (some path.directory) (some fault))) disk := by
  obtain ⟨fault, refused⟩ := makeSafetyFile_of_noRoom full disk
  refine ⟨fault, .stop ⟨fun rewriter bench => ?_⟩⟩
  unfold createSafetyFile
  rw [Course.run_act, System.attempt_of_default, refused]
  rfl

end
end ClassCoverage.Archive
