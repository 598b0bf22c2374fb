import ClassCoverage.Proofs.DiskFiles

/-! Operations that succeeded. New directories leave every old one in its place, and a file that was
written or renamed lies where its path lands. -/
namespace ClassCoverage.Disk
open ClassCoverage.Path

/-- Without its last segment a path leads to a directory. -/
theorem walk_of_resolveLast {disk : Disk} {path : Path} {segments : List String} {place : Place}
    {name : String} (resolved : disk.resolveLast path segments = .ok (place, name)) :
    ∃ front, segments = front ++ [name] ∧
      walk disk.root (disk.start path) (front.filter isStep) = some place := by
  unfold resolveLast at resolved
  cases last : segments.getLast? with
  | none =>
    rw [last] at resolved
    cases resolved
  | some other =>
    rw [last] at resolved
    simp only [bind, Except.bind, pure, Except.pure] at resolved
    split at resolved
    · cases resolved
    · cases followed : follow disk.root (disk.start path) (segments.dropLast ++ ["."]) with
      | error fault => simp [followed] at resolved
      | ok directory =>
        simp only [followed, Except.ok.injEq, Prod.mk.injEq] at resolved
        obtain ⟨rfl, rfl⟩ := resolved
        obtain ⟨front, split⟩ := List.getLast?_eq_some_iff.mp last
        rw [split, List.dropLast_concat] at followed
        exact ⟨front, split, walk_of_follow followed⟩

theorem lands_of_resolveLast {disk : Disk} {path : Path} {place : Place} {name : String}
    (resolved : disk.resolveLast path path.segments = .ok (place, name)) (some : name ≠ "")
    (notHere : name ≠ ".") (notUp : name ≠ "..") : Lands disk path (place ++ [name]) := by
  obtain ⟨front, split, walked⟩ := walk_of_resolveLast resolved
  have plain := plain_of_mem_segments (show name ∈ path.segments by simp [split])
  exact ⟨front, name, place, split, ⟨some, notHere, notUp, plain⟩, walked, rfl⟩

/-- What a write that succeeded has done. -/
theorem lands_of_write {disk disk' : Disk} {path : Path} {content : Bytes}
    (done : disk.write path content = .ok disk') :
    ∃ place, Lands disk path place ∧ disk.kind? place ≠ some .directory ∧
      disk' = disk.putFile content place := by
  unfold Disk.write at done
  cases resolved : disk.resolveLast path path.segments with
  | error fault =>
    rw [resolved] at done
    cases done
  | ok found =>
    obtain ⟨place, name⟩ := found
    simp only [resolved, bind, Except.bind] at done
    split at done
    · cases done
    · rename_i ordinary
      simp only [Bool.or_eq_true, decide_eq_true_eq, not_or] at ordinary
      refine ⟨place ++ [name],
        lands_of_resolveLast resolved ordinary.1.1 ordinary.1.2 ordinary.2, ?_⟩
      split at done
      · cases done
      · rename_i free
        refine ⟨fun directory => ?_, (Except.ok.inj done).symm⟩
        obtain ⟨listing, found⟩ := at?_eq_directory_iff.mpr directory
        exact free listing found

theorem keeps_of_write {disk disk' : Disk} (rooted : Rooted disk) {path : Path} {content : Bytes}
    (done : disk.write path content = .ok disk') : Keeps disk disk' := by
  obtain ⟨place, lands, free, rfl⟩ := lands_of_write done
  exact (lands.written rooted free content).keeps

/-- What a file is filled with, it was filled with in its place. -/
theorem fill_cases {disk disk' : Disk} (rooted : Rooted disk) {path : Path} {content : Bytes}
    (done : disk.fill path content = .ok disk') :
    disk' = disk ∨ ∃ place old, Lands disk path place ∧ disk.kind? place = some (.file old) ∧
      disk' = disk.putFile (content ++ old.drop content.length) place := by
  unfold fill at done
  split at done
  · exact .inl (Except.ok.inj done).symm
  · rename_i place resolved
    split at done
    · rename_i old found
      have held := at?_eq_file_iff.mp found
      exact .inr ⟨place, old, lands_of_resolve rooted resolved held, held,
        (Except.ok.inj done).symm⟩
    · exact .inl (Except.ok.inj done).symm

theorem keeps_of_fill {disk disk' : Disk} (rooted : Rooted disk) {path : Path} {content : Bytes}
    (done : disk.fill path content = .ok disk') : Keeps disk disk' := by
  rcases fill_cases rooted done with rfl | ⟨place, old, lands, held, rfl⟩
  · exact .refl disk'
  · exact (lands.written rooted (by simp [held]) _).keeps

theorem read_of_write {disk disk' : Disk} (rooted : Rooted disk) {path : Path} {content : Bytes}
    (done : disk.write path content = .ok disk') : disk'.read path = .ok content := by
  obtain ⟨place, lands, free, rfl⟩ := lands_of_write done
  have written := lands.written rooted free content
  exact (lands.keep written.keeps).read written.here

/-- Everything that lies on one disk lies on the other. -/
structure Adds (disk disk' : Disk) : Prop where
  workPlace : disk'.workPlace = disk.workPlace
  kinds : ∀ place kind, disk.kind? place = some kind → disk'.kind? place = some kind

theorem Adds.keeps {disk disk' : Disk} (adds : Adds disk disk') : Keeps disk disk' :=
  ⟨adds.workPlace, fun place => adds.kinds place .directory⟩

/-- Nothing is new on the second disk but directories. -/
structure AddsDirectories (disk disk' : Disk) : Prop where
  workPlace : disk'.workPlace = disk.workPlace
  kinds : ∀ place, disk'.kind? place = disk.kind? place ∨
    disk.kind? place = none ∧ disk'.kind? place = some .directory

namespace AddsDirectories
variable {a b c : Disk}

private theorem refl (disk : Disk) : AddsDirectories disk disk := ⟨rfl, fun _ => .inl rfl⟩

theorem adds (more : AddsDirectories a b) : Adds a b where
  workPlace := more.workPlace
  kinds place kind found := by
    rcases more.kinds place with same | ⟨absent, -⟩
    · rw [same, found]
    · rw [absent] at found
      cases found

private theorem trans (first : AddsDirectories a b) (second : AddsDirectories b c) :
    AddsDirectories a c where
  workPlace := second.workPlace.trans first.workPlace
  kinds place := by
    rcases second.kinds place with same | ⟨absent, new⟩
    · rw [same]
      exact first.kinds place
    · rcases first.kinds place with same' | ⟨-, made⟩
      · exact .inr ⟨same' ▸ absent, new⟩
      · rw [made] at absent
        cases absent

theorem file_iff (more : AddsDirectories a b) (place : Place) (content : Bytes) :
    b.kind? place = some (.file content) ↔ a.kind? place = some (.file content) := by
  rcases more.kinds place with same | ⟨absent, new⟩
  · rw [same]
  · rw [absent, new]
    simp

end AddsDirectories

private theorem addsDirectories_of_makeDirectory {disk disk' : Disk} (rooted : Rooted disk)
    {path : Path} (done : disk.makeDirectory path = .ok disk') : AddsDirectories disk disk' := by
  unfold makeDirectory at done
  simp only [bind, Except.bind] at done
  split at done
  · cases done
  · cases resolved : disk.resolveLast path (path.segments.reverse.dropWhile (· = "")).reverse with
    | error fault => simp [resolved] at done
    | ok found =>
      obtain ⟨place, name⟩ := found
      simp only [resolved] at done
      split at done
      · cases done
      · cases free : disk.at? (place ++ [name]) with
        | some node => simp [free] at done
        | none =>
          simp only [free] at done
          cases done
          obtain ⟨front, -, walked⟩ := walk_of_resolveLast resolved
          have parent := kind?_of_walk (Lands.kind?_start rooted path) walked
          have absent : disk.kind? (place ++ [name]) = none := by
            unfold kind? Listing.kind?
            unfold at? at free
            rw [free]
            rfl
          have kinds := @Listing.kind?_setAt disk.root (place ++ [name]) (.directory .empty) rfl
            (by simp) (by rw [List.dropLast_concat]; exact parent) (by
              change disk.kind? (place ++ [name]) ≠ some .directory
              simp [absent])
          refine ⟨rfl, fun other => ?_⟩
          by_cases same : other = place ++ [name]
          · subst same
            exact .inr ⟨absent, (kinds _).trans (if_pos rfl)⟩
          · exact .inl ((kinds other).trans (if_neg same))

theorem addsDirectories_of_makeDirectoriesWithin {depth : Nat} {disk disk' : Disk}
    (rooted : Rooted disk) {path : Path}
      (done : makeDirectoriesWithin depth disk path = .ok disk') :
    AddsDirectories disk disk' := by
  induction depth generalizing disk disk' path with
  | zero =>
    cases done
    exact .refl disk
  | succ depth ih =>
    rw [makeDirectoriesWithin] at done
    split at done
    · cases done
      exact .refl disk
    · split at done
      · rename_i made first
        cases done
        exact addsDirectories_of_makeDirectory rooted first
      · split at done
        · cases done
        · rename_i parent _
          cases above : makeDirectoriesWithin depth disk parent with
          | error fault => simp [above, bind, Except.bind] at done
          | ok disk₁ =>
            have first := ih rooted above
            simp only [above, bind, Except.bind] at done
            split at done
            · rename_i made second
              cases done
              exact first.trans
                (addsDirectories_of_makeDirectory (rooted.keep first.adds.keeps) second)
            · split at done
              · cases done
                exact first
              · cases done
      · split at done
        · cases done
          exact .refl disk
        · cases done

theorem addsDirectories_of_makeDirectories {disk disk' : Disk} (rooted : Rooted disk) {path : Path}
    (done : disk.makeDirectories path = .ok disk') : AddsDirectories disk disk' :=
  addsDirectories_of_makeDirectoriesWithin rooted done

theorem keeps_of_makeDirectories {disk disk' : Disk} (rooted : Rooted disk) {path : Path}
    (done : disk.makeDirectories path = .ok disk') : Keeps disk disk' :=
  (addsDirectories_of_makeDirectories rooted done).adds.keeps

theorem resolve_of_read {disk : Disk} {path : Path} {content : Bytes}
    (held : disk.read path = .ok content) :
    ∃ place, disk.resolve path = .ok place ∧ disk.kind? place = some (.file content) := by
  unfold Disk.read at held
  cases resolved : disk.resolve path with
  | error fault => simp [resolved, bind, Except.bind] at held
  | ok place =>
    simp only [resolved, bind, Except.bind] at held
    refine ⟨place, rfl, at?_eq_file_iff.mp ?_⟩
    cases found : disk.at? place with
    | none => simp [found] at held
    | some node => cases node with
      | directory listing => simp [found] at held
      | file bytes =>
        simp only [found, pure, Except.pure, Except.ok.injEq] at held
        rw [held]

/-- Only an empty name is dropped from the end of a path. -/
theorem last_ne_empty {segments front : List String} {name : String}
    (kept : (segments.reverse.dropWhile (· = "")).reverse = segments)
    (split : segments = front ++ [name]) : name ≠ "" := by
  rintro rfl
  rw [split, List.reverse_append] at kept
  have length := congrArg List.length kept
  have shorter := (List.dropWhile_sublist (l := front.reverse) (fun text : String =>
    decide (text = ""))).length_le
  simp at length shorter
  omega

/-- Nothing is dropped behind a segment that leads on. -/
theorem trimmed {front : List String} {last : String} (leads : IsLead last) :
    (((front ++ [last]).reverse.dropWhile (· = "")).reverse) = front ++ [last] := by
  rw [List.reverse_append, List.reverse_singleton, List.singleton_append,
    List.dropWhile_cons_of_neg]
  · simp
  · simpa using leads.nonempty

theorem Lands.rename {disk : Disk} {old new : Path} {place target : Place} {content : Bytes}
    (lands : disk.Lands old place) (file : disk.kind? place = some (.file content))
    (lands' : disk.Lands new target) (free : disk.kind? target ≠ some .directory) :
    disk.rename old new = .ok ((disk.eraseAt place).putFile content target) := by
  obtain ⟨directory, name, resolved, named, rfl⟩ := lands'.resolveLast
  obtain ⟨front, last, -, split, named', -, -⟩ := lands'
  have whole : (new.segments.reverse.dropWhile (· = "")).reverse = new.segments := by
    rw [split]
    exact trimmed named'.isLead
  have absent : ∀ listing, disk.at? (directory ++ [name]) ≠ some (.directory listing) :=
    fun listing found => free (at?_eq_directory_iff.mp ⟨listing, found⟩)
  unfold Disk.rename
  simp only [lands.resolve file, bind, Except.bind, at?_eq_file_iff.mpr file, whole, resolved,
    named.notHere, named.notUp, decide_false, Bool.or_self, Bool.false_eq_true, ↓reduceIte, ne_eq,
    not_true_eq_false]
  cases found : disk.at? (directory ++ [name]) with
  | none => rfl
  | some node => cases node with
    | file content => rfl
    | directory listing => exact absurd found (absent listing)

/-- A file is only renamed to where no directory is. -/
theorem lands_of_rename {disk disk' : Disk} {old new : Path} {place : Place} {content : Bytes}
    (found : disk.resolve old = .ok place) (file : disk.kind? place = some (.file content))
    (done : disk.rename old new = .ok disk') :
    ∃ target, disk.Lands new target ∧ disk.kind? target ≠ some .directory ∧
      disk' = (disk.eraseAt place).putFile content target := by
  unfold rename at done
  simp only [found, bind, Except.bind, at?_eq_file_iff.mpr file] at done
  cases resolved : disk.resolveLast new (new.segments.reverse.dropWhile (· = "")).reverse with
  | error fault => simp [resolved] at done
  | ok target =>
    obtain ⟨target, name⟩ := target
    simp only [resolved] at done
    split at done
    · cases done
    · rename_i ordinary
      simp only [Bool.or_eq_true, decide_eq_true_eq, not_or] at ordinary
      split at done
      · cases done
      · rename_i whole
        rw [not_not] at whole
        rw [whole] at resolved
        obtain ⟨front, split, -⟩ := walk_of_resolveLast resolved
        have lands :=
          lands_of_resolveLast resolved (last_ne_empty whole split) ordinary.1 ordinary.2
        split at done
        · cases done
        · rename_i free
          cases done
          refine ⟨target ++ [name], lands, ?_, rfl⟩
          intro directory
          obtain ⟨listing, there⟩ := at?_eq_directory_iff.mpr directory
          exact free listing there

/-- A file that was renamed is read under its new path. -/
theorem read_of_rename {disk disk' : Disk} (rooted : Rooted disk) {old new : Path} {content : Bytes}
    (held : disk.read old = .ok content) (done : disk.rename old new = .ok disk') :
    disk'.read new = .ok content := by
  obtain ⟨place, found, file⟩ := resolve_of_read held
  have erased := (lands_of_resolve rooted found file).erased file
  obtain ⟨target, lands, free, rfl⟩ := lands_of_rename found file done
  have landsAfter := lands.keep erased.keeps
  have open' : (disk.eraseAt place).kind? target ≠ some .directory := by
    rw [erased.kinds]
    split
    · simp
    · exact free
  have written := landsAfter.written (rooted.keep erased.keeps) open' content
  exact (landsAfter.keep written.keeps).read written.here

end ClassCoverage.Disk
