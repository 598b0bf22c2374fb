import ClassCoverage.Proofs.DiskFiles

/-! Names made from numbers. Different numbers make different names, so a directory always has room
for one more file, which lands next to the others. -/
namespace ClassCoverage

namespace Decimal

/-- The digits of a number, with the zeros in front of them. -/
theorem toList_padded (width number : Nat) :
    (padded width number).toList =
      List.replicate (width - (toString number).length) '0' ++ Nat.toDigits 10 number := by
  simp [padded]

private theorem padded_injective {width one other : Nat}
    (same : padded width one = padded width other) :
    one = other := by
  have value (number : Nat) : Nat.ofDigitChars 10 (padded width number).toList 0 = number := by
    rw [toList_padded, Nat.ofDigitChars_append, Nat.ofDigitChars_replicate_zero, Nat.mul_zero,
      Nat.ofDigitChars_ten_toDigits]
  rw [← value one, same, value other]

theorem isDigit_of_mem_padded {width number : Nat} {char : Char}
    (member : char ∈ (padded width number).toList) :
    char.isDigit = true := by
  rw [toList_padded, List.mem_append] at member
  rcases member with zero | digit
  · rw [List.eq_of_mem_replicate zero]
    rfl
  · exact Nat.isDigit_of_mem_toDigits (by decide) (by decide) digit

private theorem slash_not_mem_padded (width number : Nat) : '/' ∉ (padded width number).toList :=
  fun member => absurd (isDigit_of_mem_padded member) (by decide)

end Decimal

namespace Disk
open ClassCoverage.Path

/-- The names a directory may be given a file of, one for each number. -/
structure Naming (make : String → String) : Prop where
  injective : ∀ one other, make one = make other → one = other
  named : ∀ number, '/' ∉ number.toList → IsName (make number)

/-- Of more offers than names that are taken, the first free one is found. -/
private theorem exists_free {offer : Nat → String}
    (injective : ∀ one other, offer one = offer other → one = other) (taken : List String)
    (otherwise : String) :
    ∃ number, (((List.range (taken.length + 1)).map offer).find? fun name => name ∉ taken).getD
        otherwise = offer number ∧ offer number ∉ taken ∧ ∀ earlier < number,
        offer earlier ∈ taken := by
  have free : (((List.range (taken.length + 1)).map offer).find? fun name =>
      name ∉ taken).isSome := by
    rw [List.find?_isSome]
    by_contra none
    have within : (List.range (taken.length + 1)).map offer ⊆ taken := fun name member => by
      by_contra absent
      exact none ⟨name, member, by simpa using absent⟩
    have distinct : ((List.range (taken.length + 1)).map offer).Nodup := by
      refine List.pairwise_map.mpr (List.nodup_range.imp fun different same => ?_)
      exact different (injective _ _ same)
    have bound := distinct.length_le_of_subset within
    rw [List.length_map, List.length_range] at bound
    omega
  obtain ⟨name, found⟩ := Option.isSome_iff_exists.mp free
  rw [found, Option.getD_some]
  rw [List.find?_map] at found
  obtain ⟨number, first, rfl⟩ := Option.map_eq_some_iff.mp found
  obtain ⟨here, -, before⟩ := List.find?_range_eq_some.mp first
  refine ⟨number, rfl, by simpa using here, fun earlier less => ?_⟩
  simpa using before earlier less

theorem freshName_eq {make : String → String} (naming : Naming make) (disk : Disk)
    (directory : Path) :
    ∃ number, disk.freshName directory make = make (Decimal.padded 6 number) ∧
      ∀ listing, disk.node? directory = some (.directory listing) →
        disk.freshName directory make ∉ listing.names ∧
        ∀ earlier < number, make (Decimal.padded 6 earlier) ∈ listing.names := by
  have injective (one other : Nat)
      (same : make (Decimal.padded 6 one) = make (Decimal.padded 6 other)) :
      one = other := Decimal.padded_injective (naming.injective _ _ same)
  unfold Disk.freshName
  obtain ⟨number, shape, absent, before⟩ := exists_free injective _ (make (Decimal.padded 6 0))
  refine ⟨number, shape, fun listing node => ?_⟩
  rw [shape]
  simp only [node] at absent before
  exact ⟨absent, before⟩

theorem isName_freshName {make : String → String} (naming : Naming make) (disk : Disk)
    (directory : Path) :
    IsName (disk.freshName directory make) := by
  obtain ⟨number, shape, -⟩ := freshName_eq naming disk directory
  rw [shape]
  exact naming.named _ (Decimal.slash_not_mem_padded 6 number)

/-- A fresh name is the first one of which there is nothing in the directory. -/
theorem freshName_least {make : String → String} (naming : Naming make) {disk : Disk}
    {directory : Path} {place : Place} (resolved : disk.resolve directory = .ok place)
    (here : disk.kind? place = some .directory) :
    ∃ number, disk.freshName directory make = make (Decimal.padded 6 number) ∧
      disk.kind? (place ++ [disk.freshName directory make]) = none ∧
      ∀ earlier < number, disk.kind? (place ++ [make (Decimal.padded 6 earlier)]) ≠ none := by
  obtain ⟨number, shape, names⟩ := freshName_eq naming disk directory
  obtain ⟨listing, found⟩ := at?_eq_directory_iff.mpr here
  have node : disk.node? directory = some (.directory listing) := by
    unfold node?
    rw [resolved]
    exact found
  have missing_iff (name : String) : disk.kind? (place ++ [name]) = none ↔
      name ∉ listing.names := by
    rw [← Listing.find?_eq_none_iff]
    unfold kind? Listing.kind?
    unfold at? at found
    rw [Listing.at?_append found, Listing.at?]
    cases listing.find? name with
    | none => simp
    | some node => cases node <;> simp [Listing.at?]
  obtain ⟨absent, before⟩ := names listing node
  refine ⟨number, shape, (missing_iff _).mpr absent, fun earlier less missing => ?_⟩
  exact (missing_iff _).mp missing (before earlier less)

/-- A fresh name is not the name of anything in its directory. -/
theorem freshName_absent {make : String → String} (naming : Naming make) {disk : Disk}
    {directory : Path} {place : Place} (resolved : disk.resolve directory = .ok place)
    (here : disk.kind? place = some .directory) :
    disk.kind? (place ++ [disk.freshName directory make]) = none := by
  obtain ⟨-, -, absent, -⟩ := freshName_least naming resolved here
  exact absent

/-- Only what has one of the names in question counts. -/
theorem freshName_congr {make : String → String} (naming : Naming make) {disk disk' : Disk}
    {directory : Path} {place : Place} (resolved : disk.resolve directory = .ok place)
    (here : disk.kind? place = some .directory) (resolved' : disk'.resolve directory = .ok place)
    (here' : disk'.kind? place = some .directory)
    (same : ∀ number, disk'.kind? (place ++ [make (Decimal.padded 6 number)]) =
      disk.kind? (place ++ [make (Decimal.padded 6 number)])) :
    disk'.freshName directory make = disk.freshName directory make := by
  obtain ⟨number, shape, absent, before⟩ := freshName_least naming resolved here
  obtain ⟨number', shape', absent', before'⟩ := freshName_least naming resolved' here'
  rw [shape] at absent
  rw [shape', same] at absent'
  rcases Nat.lt_trichotomy number number' with less | rfl | greater
  · exact absurd ((same number).trans absent) (before' number less)
  · rw [shape, shape']
  · exact absurd absent' (before number' greater)

/-- The directory a file lies in can be found by its path. -/
theorem Lands.directory {disk : Disk} {path : Path} {place : Place}
    (lands : Lands disk path place) :
    disk.resolve path.directory = .ok place.dropLast := by
  obtain ⟨front, name, directory, split, named, walked, rfl⟩ := lands
  unfold Disk.resolve
  have spelled : path.directory.spelling.isEmpty = false := by
    rw [Bool.eq_false_iff, ne_eq, String.isEmpty_iff]
    exact spelling_directory_ne_empty path
  have start : disk.start path.directory = disk.start path := by
    unfold Disk.start
    rw [isAbsolute_directory split named.isLead]
  rw [spelled, start, List.dropLast_concat]
  apply follow_of_walk
  have steps : path.directory.segments.filter isStep = front.filter isStep :=
    steps_directory split named.isLead
  rw [steps, walked]

/-- A file next to another one lands next to it. -/
theorem Lands.sibling {disk : Disk} {path : Path} {place : Place} (lands : Lands disk path place)
    {sibling : String} (own : IsName sibling) :
    Lands disk (path.directory.join ⟨sibling⟩) (place.dropLast ++ [sibling]) := by
  obtain ⟨front, name, directory, split, named, walked, rfl⟩ := lands
  have relative : (⟨sibling⟩ : Path).isAbsolute = false := by
    refine not_isAbsolute fun body absolute => ?_
    exact own.plain (by rw [show sibling.toList = _ from absolute]; simp)
  obtain ⟨joined, segments, steps, absolute⟩ :=
    join_of_relative relative (spelling_directory_ne_empty path)
  refine ⟨joined, sibling, directory, ?_, own, ?_, by rw [List.dropLast_concat]⟩
  · rw [segments, segments_eq]
    exact congrArg (joined ++ ·) (segmentsOf_of_plain own.plain)
  · have start : disk.start (path.directory.join ⟨sibling⟩) = disk.start path := by
      unfold Disk.start
      rw [absolute, isAbsolute_directory split named.isLead]
    rw [start, steps, steps_directory split named.isLead, walked]

/-- A file of a fresh name goes next to another one, where nothing is. -/
theorem Lands.fresh {disk : Disk} (rooted : Rooted disk) {path : Path} {place : Place}
    (lands : Lands disk path place) {make : String → String} (naming : Naming make) :
    IsName (disk.freshName path.directory make) ∧
      disk.kind? (place.dropLast ++ [disk.freshName path.directory make]) = none :=
  ⟨isName_freshName naming disk path.directory,
    freshName_absent naming lands.directory (lands.parent rooted)⟩

end Disk
end ClassCoverage
