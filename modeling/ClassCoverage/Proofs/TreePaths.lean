import ClassCoverage.ClassTree
import ClassCoverage.Proofs.ScannedFiles

/-! Paths of the files of a tree. A file below a source has the same names below the destination,
and the two directories are told apart by where their paths lead. -/
namespace ClassCoverage
open ClassCoverage.Path

namespace Path

/-- The parts of segments, without what stands for the start of a path. -/
def named (path : Path) : List Part := path.segments.filterMap segmentPart?

theorem parts_eq (path : Path) :
    path.parts = (if path.isAbsolute then [.root] else if path.segments.head? =
      some "." then [.here] else []) ++
      path.named := by
  unfold parts
  simp only
  split
  · rfl
  · split <;> rfl

theorem segmentPart?_of_isName {name : String} (own : IsName name) :
    segmentPart? name = some (.name name) := by
  unfold segmentPart?
  split
  · exact absurd rfl own.nonempty
  · exact absurd rfl own.notHere
  · exact absurd rfl own.notUp
  · rfl

/-- What is joined adds its own parts. -/
theorem parts_join_of_relative {root relative : Path} (nonempty : root.spelling ≠ "")
    (apart : relative.isAbsolute = false) :
    (root.join relative).parts = root.parts ++ relative.named := by
  obtain ⟨front, segments, same, absolute⟩ := segments_join apart nonempty
  have some : front ≠ [] := by
    rintro rfl
    have alone : root.segments = [""] := by
      rcases same with none | single
      · exact absurd none (by simpa [Path.segments] using Text.split_ne_nil (· == '/') root.chars)
      · exact single
    have split : root.segments = [] ++ [""] := alone
    rcases chars_of_segments split with ⟨empty, -⟩ | ⟨before, -, impossible⟩
    · exact nonempty (String.toList_inj.mp empty)
    · exact absurd impossible.symm (by simpa [segmentsOf] using Text.split_ne_nil (· == '/') before)
  have first : (root.join relative).segments.head? = root.segments.head? := by
    obtain ⟨head, tail, rfl⟩ := List.exists_cons_of_ne_nil some
    rw [segments]
    rcases same with same | same <;> rw [same] <;> rfl
  have later : (root.join relative).named = root.named ++ relative.named := by
    unfold named
    rw [segments, List.filterMap_append]
    congr 1
    rcases same with same | same
    · rw [same]
    · rw [same, List.filterMap_append]
      simp [segmentPart?]
  rw [parts_eq, parts_eq, absolute, first, later, List.append_assoc]

private theorem parts_join {root : Path} (nonempty : root.spelling ≠ "") {name : String}
    (own : IsName name) :
    (root.join ⟨name⟩).parts = root.parts ++ [.name name] := by
  have added : (⟨name⟩ : Path).named = [.name name] := by
    rw [named, Scan.segments_of_isName own, List.filterMap_cons,
      segmentPart?_of_isName own, List.filterMap_nil]
  rw [parts_join_of_relative nonempty (Scan.relative_of_isName own), added]

theorem empty_join (relative : Path) : (⟨""⟩ : Path).join relative = relative := by
  unfold join
  split
  · rfl
  · simp

/-- Segments that lead on are parts, and keep their text. -/
theorem part_of_segment (segment : String) :
    (isStep segment = false ∧ segmentPart? segment = none) ∨
      (isStep segment = true ∧ ∃ part, segmentPart? segment = some part ∧ part.text = segment ∧
        part ≠ .root ∧ part ≠ .here) := by
  unfold segmentPart?
  split
  · exact .inl ⟨rfl, rfl⟩
  · exact .inl ⟨rfl, rfl⟩
  · exact .inr ⟨rfl, .up, rfl, rfl, by decide, by decide⟩
  · rename_i some notHere _
    exact .inr ⟨by simpa [isStep] using ⟨some, notHere⟩, .name segment, rfl, rfl, by simp, by simp⟩

theorem steps_eq_named (path : Path) : path.steps = path.named.map Part.text := by
  unfold steps stepsOf named
  rw [segments_eq]
  induction segmentsOf path.chars with
  | nil => rfl
  | cons segment rest ih =>
    rcases part_of_segment segment with ⟨idle, none⟩ | ⟨leads, part, found, text, -, -⟩
    · rw [List.filter_cons_of_neg (by simp [idle]), List.filterMap_cons_none none, ih]
    · rw [List.filter_cons_of_pos leads, List.filterMap_cons_some found, ih, List.map_cons, text]

theorem plain_of_mem_named {path : Path} {part : Part} (member : part ∈ path.named) :
    part ≠ .root ∧ part ≠ .here := by
  obtain ⟨segment, -, found⟩ := List.mem_filterMap.mp member
  rcases part_of_segment segment with ⟨-, none⟩ | ⟨-, other, found', -, plain⟩
  · rw [none] at found
    cases found
  · rw [found'] at found
    cases found
    exact plain

theorem head?_parts_iff (path : Path) : path.parts.head? = some .root ↔ path.isAbsolute = true := by
  rw [parts_eq]
  split
  · simp [*]
  · rename_i relative
    split
    · simp [relative]
    · simp only [List.nil_append, relative, Bool.false_eq_true, iff_false]
      intro root
      exact (plain_of_mem_named (List.mem_of_mem_head? root)).1 rfl

theorem named_eq_filter (path : Path) :
    path.named = path.parts.filter fun part => part ≠ .root ∧ part ≠ .here := by
  have kept : (path.named.filter fun part => part ≠ .root ∧ part ≠ .here) = path.named := by
    rw [List.filter_eq_self]
    intro part member
    simpa using plain_of_mem_named member
  rw [parts_eq, List.filter_append, kept]
  split
  · rfl
  · split <;> rfl

/-- Paths with the same parts have the same steps, from the same start. -/
theorem eq_of_parts {one other : Path} (same : one.parts = other.parts) :
    one.isAbsolute = other.isAbsolute ∧ one.steps = other.steps := by
  constructor
  · rw [Bool.eq_iff_iff, ← head?_parts_iff, ← head?_parts_iff, same]
  · rw [steps_eq_named, steps_eq_named, named_eq_filter, named_eq_filter, same]

/-- Names behind the parts of a path are steps behind its own. -/
theorem steps_of_parts {path directory : Path} {names : List String}
    (parts : path.parts = directory.parts ++ names.map .name) :
    path.isAbsolute = directory.isAbsolute ∧ path.steps = directory.steps ++ names := by
  have kept : (names.map Part.name).filter (fun part => part ≠ .root ∧ part ≠ .here) =
      names.map .name := by
    rw [List.filter_eq_self]
    intro part member
    obtain ⟨name, -, rfl⟩ := List.mem_map.mp member
    simp
  have texts : (names.map Part.name).map Part.text = names := by
    rw [List.map_map]
    exact List.map_id names
  constructor
  · rw [Bool.eq_iff_iff, ← head?_parts_iff, ← head?_parts_iff, parts]
    cases directory.parts with
    | nil => cases names <;> simp
    | cons part rest => rfl
  · rw [steps_eq_named, steps_eq_named, named_eq_filter, named_eq_filter, parts,
      List.filter_append, kept,
      List.map_append, texts]

theorem parts_pathTo {root : Path} (nonempty : root.spelling ≠ "") {place : Place}
    (own : ∀ name ∈ place, IsName name) :
    (Scan.pathTo root place).parts = root.parts ++ place.map .name := by
  induction place using List.reverseRecOn with
  | nil => exact (List.append_nil _).symm
  | append_singleton front name ih =>
    have earlier : ∀ part ∈ front, IsName part := fun part member =>
      own part (List.mem_append_left _ member)
    rw [Scan.pathTo_concat, parts_join (Scan.spells_pathTo nonempty earlier).nonempty
      (own name (by simp)),
      ih earlier, List.map_append, List.append_assoc]
    rfl

/-- Below its root a file is known by the names that lead to it. -/
theorem relativeTo_pathTo {root : Path} (nonempty : root.spelling ≠ "") {place : Place}
    (own : ∀ name ∈ place, IsName name) :
    (Scan.pathTo root place).relativeTo root = Text.join "/" place := by
  have inside : root.parts.isPrefixOf (root.parts ++ place.map Part.name) = true :=
    List.isPrefixOf_iff_prefix.mpr (List.prefix_append _ _)
  have texts : (place.map Part.name).map Part.text = place := by
    rw [List.map_map]
    exact List.map_id place
  unfold relativeTo
  rw [parts_pathTo nonempty own, if_pos inside, List.drop_left]
  simp only [texts]

end Path

namespace Disk

/-- Where a path leads to, whether anything is there or not. -/
def aim (disk : Disk) (path : Path) : Place := lead (disk.start path) path.steps

/-- The directories on the way to a file below the directory of a path. -/
def wayTo (disk : Disk) (path : Path) (below : Place) : List Place :=
  way (disk.start path) (path.steps ++ below.dropLast)

theorem aim_keep {disk disk' : Disk} (home : disk'.workPlace = disk.workPlace) (path : Path) :
    disk'.aim path = disk.aim path := by
  unfold aim start
  rw [home]

theorem wayTo_keep {disk disk' : Disk} (home : disk'.workPlace = disk.workPlace) (path : Path)
    (below : Place) :
    disk'.wayTo path below = disk.wayTo path below := by
  unfold wayTo start
  rw [home]

theorem aim_of_resolve {disk : Disk} {path : Path} {place : Place}
    (resolved : disk.resolve path = .ok place) :
    disk.aim path = place := by
  unfold resolve at resolved
  split at resolved
  · cases resolved
  · exact lead_of_follow resolved

theorem aim_of_parts {one other : Path} (same : one.parts = other.parts) (disk : Disk) :
    disk.aim one = disk.aim other := by
  obtain ⟨absolute, steps⟩ := eq_of_parts same
  unfold aim start
  rw [absolute, steps]

/-- A path with the parts of a directory leads to it, whatever its spelling. -/
theorem resolve_of_parts {disk : Disk} {path : Path} {place : Place}
    (own : ∀ name ∈ place, IsName name) (parts : path.parts = .root :: place.map .name)
    (directory : disk.kind? place = some .directory) :
    disk.resolve path = .ok place := by
  have whole : (⟨"/"⟩ : Path).parts = [.root] ∧ (⟨"/"⟩ : Path).isAbsolute = true ∧
      (⟨"/"⟩ : Path).steps = [] := by
    decide
  have rooted : path.parts = (⟨"/"⟩ : Path).parts ++ place.map .name := by
    rw [parts, whole.1]
    rfl
  obtain ⟨absolute, steps⟩ := steps_of_parts rooted
  rw [whole.2.1] at absolute
  rw [whole.2.2, List.nil_append] at steps
  have spelled : path.spelling ≠ "" := by
    intro empty
    simp [isAbsolute, chars, empty] at absolute
  have walked : walk disk.root [] place = some place := walk_names own directory
  unfold resolve
  rw [if_neg (by simpa using spelled)]
  apply follow_of_walk
  rw [start, if_pos absolute]
  exact steps.symm ▸ walked

/-- A file below a directory goes where the names lead to from there. -/
theorem aims_join (disk : Disk) (directory : Path) {below : Place} (some : below ≠ [])
    (own : ∀ name ∈ below, IsName name) :
    Aims disk (directory.join ⟨Text.join "/" below⟩) (disk.aim directory ++ below)
      (disk.wayTo directory below) := by
  obtain ⟨front, name, rfl⟩ := (List.eq_nil_or_concat' below).resolve_left some
  have segments : (⟨Text.join "/" (front ++ [name])⟩ : Path).segments = front ++ [name] :=
    segmentsOf_joined some own
  have ownFront : ∀ part ∈ front, IsName part := fun part member =>
    own part (List.mem_append_left _ member)
  have filtered : front.filter isStep = front :=
    List.filter_eq_self.mpr fun part member => (ownFront part member).isStep
  have relative : (⟨Text.join "/" (front ++ [name])⟩ : Path).isAbsolute = false := by
    refine not_isAbsolute fun body absolute => ?_
    have rooted : (⟨Text.join "/" (front ++ [name])⟩ : Path).segments = "" :: segmentsOf body := by
      rw [segments_eq, absolute]
      exact segmentsOf_append [] body
    rw [segments] at rooted
    exact (own "" (by simp [rooted])).nonempty rfl
  obtain ⟨before, joined, steps, absolute⟩ : ∃ before,
      (directory.join ⟨Text.join "/" (front ++ [name])⟩).segments = before ++ (front ++ [name]) ∧
        before.filter isStep = directory.steps ∧
        (directory.join ⟨Text.join "/" (front ++ [name])⟩).isAbsolute = directory.isAbsolute := by
    by_cases empty : directory.spelling = ""
    · obtain ⟨_⟩ := directory
      cases empty
      rw [empty_join, segments, relative]
      exact ⟨[], rfl, by decide, by decide⟩
    · obtain ⟨before, joined, rest⟩ := join_of_relative relative empty
      rw [segments] at joined
      exact ⟨before, joined, rest⟩
  have start : disk.start (directory.join ⟨Text.join "/" (front ++ [name])⟩) =
      disk.start directory := by
    unfold Disk.start
    rw [absolute]
  refine ⟨before ++ front, name, by rw [joined, List.append_assoc], own name (by simp), ?_, ?_⟩
  · rw [start, List.filter_append, steps, filtered, wayTo, List.dropLast_concat]
  · rw [start, List.filter_append, steps, filtered, lead_append,
      lead_names ownFront, List.append_assoc]
    rfl

end Disk

namespace ClassTree

/-- Whether a destination is the source depends on where it leads to, and on whether it is found
there. -/
theorem sameDirectory_congr {disk disk' : Disk} {source destination : Path} {top : Place}
    (home : disk'.workPlace = disk.workPlace) (resolved : disk.resolve source = .ok top)
    (resolved' : disk'.resolve source = .ok top)
    (found : disk'.resolve destination = .ok top ↔ disk.resolve destination = .ok top) :
    sameDirectory disk' source destination = sameDirectory disk source destination := by
  have parts (place : Place) (apart : place ≠ top) (aim : disk.aim destination = place) :
      source.parts ≠ destination.parts := by
    intro same
    rw [← Disk.aim_of_parts same, Disk.aim_of_resolve resolved] at aim
    exact apart aim.symm
  unfold sameDirectory samePlace Disk.canonical?
  rw [resolved, resolved']
  cases before : disk.resolve destination with
  | ok place =>
    have aim := Disk.aim_of_resolve before
    cases after : disk'.resolve destination with
    | ok place' =>
      have aim' := Disk.aim_of_resolve after
      rw [Disk.aim_keep home, aim] at aim'
      rw [aim']
    | error fault =>
      have apart : place ≠ top := by
        rintro rfl
        rw [found.mpr before] at after
        cases after
      simp [Except.toOption, apart.symm, parts place apart aim]
  | error fault =>
    cases after : disk'.resolve destination with
    | error fault' => rfl
    | ok place =>
      have aim := Disk.aim_of_resolve after
      rw [Disk.aim_keep home] at aim
      have apart : place ≠ top := by
        rintro rfl
        rw [found.mp after] at before
        cases before
      simp [Except.toOption, apart.symm, parts place apart aim]

end ClassTree
end ClassCoverage
