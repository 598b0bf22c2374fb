import ClassCoverage.Proofs.ArchiveFields

/-! Reading an archive that was written. The record at its end is the last one that makes sense, and
from there every entry is found again. What is read from any archive can be written in turn. -/
namespace ClassCoverage.Archive
attribute [local instance] plainLibrary

/-- What a written directory lists. -/
def listedFrom : (offset : Nat) → List Entry → List Listed
  | _, [] => []
  | offset, entry :: entries =>
    ⟨stamped entry.head, (entry.stored.getD []).length, offset⟩ ::
      listedFrom (offset + (writeEntry entry).length) entries

private theorem readDirectory_writeDirectory {entries : List Entry}
    (writable : ∀ entry ∈ entries, Writable entry.head) {offset : Nat}
    (small : offset + (writeEntries entries).length < 2 ^ (32 : Nat)) (rest : Bytes) :
    readDirectory entries.length (writeDirectory offset entries ++ rest) =
      some (listedFrom offset entries) := by
  induction entries generalizing offset with
  | nil => rfl
  | cons entry entries ih =>
    rw [writeEntries, List.flatMap_cons, List.length_append] at small
    have size := length_writeEntry entry
    have first := @readListed_writeListed entry (writable entry (List.mem_cons_self ..)) (by omega)
      offset (by omega) (writeDirectory (offset + (writeEntry entry).length) entries ++ rest)
    have later := @ih (fun other member => writable other (List.mem_cons_of_mem _ member))
      (offset + (writeEntry entry).length) (by rw [writeEntries]; omega)
    rw [List.length_cons, writeDirectory, List.append_assoc, readDirectory, first]
    simp only [bind, Option.bind, later, pure, listedFrom]

private theorem storedContents_written {entries : List Entry}
    (writable : ∀ entry ∈ entries, Writable entry.head)
    (stored : ∀ entry ∈ entries, entry.stored.isSome = true) (before after : Bytes) :
    (listedFrom before.length entries).map (fun listed =>
        { head := listed.head,
          stored := storedContent? (before ++ (writeEntries entries ++ after)) 0 listed : Entry }) =
      entries.map reread := by
  induction entries generalizing before with
  | nil => rfl
  | cons entry entries ih =>
    have own := storedContent?_written (writable entry (List.mem_cons_self ..)) before
      (writeEntries entries ++ after) (stamped entry.head)
    have later := ih (fun other member => writable other (List.mem_cons_of_mem _ member))
      (fun other member => stored other (List.mem_cons_of_mem _ member))
        (before ++ writeEntry entry)
    have held : some (entry.stored.getD []) = entry.stored := by
      obtain ⟨content, own⟩ := Option.isSome_iff_exists.mp (stored entry (List.mem_cons_self ..))
      rw [own, Option.getD_some]
    have joined : before ++ (writeEntries (entry :: entries) ++ after) =
        before ++ writeEntry entry ++ (writeEntries entries ++ after) := by
      simp [writeEntries]
    rw [joined, listedFrom, List.map_cons, List.map_cons]
    rw [List.length_append] at later
    rw [later, List.append_assoc, own, held, reread]

private theorem addListed_of_not_mem {entries : List Entry} {entry : Entry}
    (new : entry.name ∉ entries.map Entry.name) : addListed entries entry = entries ++ [entry] := by
  unfold addListed
  rw [if_neg]
  intro found
  obtain ⟨other, member, same⟩ := List.any_eq_true.mp found
  exact new (List.mem_map.mpr ⟨other, member, of_decide_eq_true same⟩)

private theorem foldl_addListed {entries kept : List Entry}
    (distinct : ((kept ++ entries).map Entry.name).Nodup) :
    entries.foldl addListed kept = kept ++ entries := by
  induction entries generalizing kept with
  | nil => simp
  | cons entry entries ih =>
    have new : entry.name ∉ kept.map Entry.name := by
      rw [List.map_append, List.nodup_append] at distinct
      intro member
      exact distinct.2.2 _ member _ (by simp) rfl
    rw [List.foldl_cons, addListed_of_not_mem new, ih (by simpa using distinct)]
    simp

private theorem le_of_mem_positions {signature : Bytes} {position found : Nat} {bytes : Bytes}
    (member : found ∈ positions signature position bytes) : position ≤ found := by
  induction bytes generalizing position with
  | nil => simp [positions] at member
  | cons byte rest ih =>
    simp only [positions] at member
    split at member
    · rcases List.mem_cons.mp member with rfl | later
      · exact Nat.le_refl _
      · exact Nat.le_of_succ_le (ih later)
    · exact Nat.le_of_succ_le (ih member)

/-- What stands behind has no part in whether a signature is found there. -/
theorem positions_append (signature : Bytes) (position : Nat) (front back : Bytes) :
    ∃ before, positions signature position (front ++ back) =
      before ++ positions signature (position + front.length) back := by
  induction front generalizing position with
  | nil => exact ⟨[], rfl⟩
  | cons byte front ih =>
    obtain ⟨before, found⟩ := ih (position + 1)
    rw [Nat.add_assoc, Nat.add_comm 1] at found
    rw [List.cons_append, positions, List.length_cons]
    split
    · exact ⟨position :: before, by rw [found]; rfl⟩
    · exact ⟨before, found⟩

/-- The record at the end of an archive with `count` entries. -/
def endBytes (count directorySize directoryOffset : Nat) : Bytes :=
  endSignature ++
    (Bytes.ofNat 2 0 ++ (Bytes.ofNat 2 0 ++ (Bytes.ofNat 2 count ++ (Bytes.ofNat 2 count ++
    (Bytes.ofNat 4 directorySize ++ (Bytes.ofNat 4 directoryOffset ++ Bytes.ofNat 2 0))))))

private theorem endRecord?_eq_none {archive : Bytes} {position : Nat}
    (short : archive.length < position + 22) :
    endRecord? archive position = none := by
  unfold endRecord?
  rw [if_pos]
  rw [List.length_drop]
  omega

theorem length_endBytes (count directorySize directoryOffset : Nat) :
    (endBytes count directorySize directoryOffset).length = 22 := by
  simp [endBytes, endSignature]

private theorem endRecord?_endBytes (front : Bytes) {count : Nat} (small : count < 2 ^ (16 : Nat))
    (directorySize : Nat) {directoryOffset : Nat} (near : directoryOffset < 2 ^ (32 : Nat)) :
    endRecord? (front ++ endBytes count directorySize directoryOffset) front.length =
      some ⟨front.length, 0, 0, count, directoryOffset⟩ := by
  have disk : field (endBytes count directorySize directoryOffset) 4 2 = 0 ∧
      field (endBytes count directorySize directoryOffset) 6 2 = 0 ∧
      field (endBytes count directorySize directoryOffset) 20 2 = 0 := by
    refine ⟨?_, ?_, ?_⟩ <;>
      simp (disch := decide) only [endBytes, field_behind_endSignature, field_behind_number,
        field_here, field_all, Nat.reduceSub, Nat.zero_mod]
  have counted : field (endBytes count directorySize directoryOffset) 8 2 = count := by
    simp (disch := decide) only [endBytes, field_behind_endSignature, field_behind_number,
      field_here, Nat.reduceSub]
    exact mod_of_pair small
  have placed : field (endBytes count directorySize directoryOffset) 16 4 = directoryOffset := by
    simp (disch := decide) only [endBytes, field_behind_endSignature, field_behind_number,
      field_here, Nat.reduceSub]
    exact mod_of_word near
  unfold endRecord?
  simp only [List.drop_left, length_endBytes, disk, counted, placed]
  rfl

/-- The last record that makes sense is the one at the end. -/
theorem read?_endBytes {front : Bytes} {count : Nat} (small : count < 2 ^ (16 : Nat))
    (directorySize : Nat) {directoryOffset : Nat} (near : directoryOffset < 2 ^ (32 : Nat))
    {entries : List Entry}
    (read : readWith? (front ++ endBytes count directorySize directoryOffset)
      ⟨front.length, 0, 0, count, directoryOffset⟩ = some entries) :
    read? (front ++ endBytes count directorySize directoryOffset) = some entries := by
  generalize written : front ++ endBytes count directorySize directoryOffset = archive at read
  have size : archive.length = front.length + 22 := by
    rw [← written, List.length_append, length_endBytes]
  obtain ⟨before, found⟩ := positions_append endSignature 0 front
    (endBytes count directorySize directoryOffset)
  obtain ⟨later, here, behind⟩ : ∃ later,
      positions endSignature (0 + front.length) (endBytes count directorySize directoryOffset) =
        front.length :: later ∧ ∀ position ∈ later, front.length < position := by
    refine ⟨positions endSignature (0 + front.length + 1)
      ((endBytes count directorySize directoryOffset).drop 1), ?_, fun position member => ?_⟩
    · rw [Nat.zero_add]
      rfl
    · have bound := le_of_mem_positions member
      omega
  have record := endRecord?_endBytes front small directorySize near
  rw [written] at found record
  -- Nothing behind the record has room for another one.
  have none : later.reverse.filterMap (endRecord? archive) = [] := by
    rw [List.filterMap_eq_nil_iff]
    intro position member
    have past := behind position (List.mem_reverse.mp member)
    exact endRecord?_eq_none (by omega)
  unfold read?
  rw [found, here, List.reverse_append, List.reverse_cons, List.append_assoc, List.filterMap_append,
    none, List.nil_append, List.filterMap_append, List.filterMap_cons, record]
  simp [read]

private theorem write_eq (entries : List Entry) :
    write entries = (writeEntries entries ++ writeDirectory 0 entries) ++
      endBytes entries.length (writeDirectory 0 entries).length (writeEntries entries).length := by
  simp [write, endBytes]

private theorem head?_positions_writeDirectory {entries : List Entry} (some : entries ≠ [])
    (offset : Nat) :
    (positions directorySignature 0 (writeDirectory offset entries)).head? = .some 0 := by
  cases entries with
  | nil => exact absurd rfl some
  | cons entry entries =>
    have marked : ∃ rest, writeDirectory offset (entry :: entries) = 0x50 :: rest ∧
        directorySignature.isPrefixOf (0x50 :: rest) = true :=
      ⟨_, rfl, rfl⟩
    obtain ⟨rest, split, marked⟩ := marked
    rw [split, positions, if_pos marked]
    rfl

private theorem readWith?_written {entries : List Entry}
    (near : (writeEntries entries).length < 2 ^ (32 : Nat))
    (writable : ∀ entry ∈ entries, Writable entry.head)
    (stored : ∀ entry ∈ entries, entry.stored.isSome = true)
    (distinct : (entries.map Entry.name).Nodup) (rest : Bytes) :
    readWith? ((writeEntries entries ++ writeDirectory 0 entries) ++ rest)
      ⟨(writeEntries entries ++ writeDirectory 0 entries).length, 0, 0, entries.length,
        (writeEntries entries).length⟩ = some (entries.map reread) := by
  have listed := readDirectory_writeDirectory writable (by rwa [Nat.zero_add]) rest
  have contents := storedContents_written writable stored [] (writeDirectory 0 entries ++ rest)
  have kept := @foldl_addListed (entries.map reread) [] (by rwa [List.nil_append, names_reread])
  -- Without entries there is no directory, and the record stands where it would be.
  have behind : ¬ (entries.length ≠ 0 ∧
      (writeEntries entries ++ writeDirectory 0 entries).length ≤
        (writeEntries entries).length) := by
    rintro ⟨some, short⟩
    cases entries with
    | nil => exact some rfl
    | cons entry entries =>
      simp only [List.length_append, writeDirectory, writeListed, directorySignature,
        List.length_cons] at short
      omega
  have start : archiveOffset? ((writeEntries entries ++ writeDirectory 0 entries) ++ rest)
      ⟨(writeEntries entries ++ writeDirectory 0 entries).length, 0, 0, entries.length,
        (writeEntries entries).length⟩ = some 0 := by
    unfold archiveOffset?
    split
    · rename_i empty
      cases List.length_eq_zero_iff.mp empty
      rfl
    · rename_i some
      simp only [List.take_left, List.drop_left]
      exact head?_positions_writeDirectory (fun empty => some (by rw [empty]; rfl)) 0
  unfold readWith?
  rw [if_neg (by simp), if_neg behind]
  simp only [bind, Option.bind, start]
  rw [List.nil_append, List.length_nil] at contents
  simp only [Nat.zero_add, List.append_assoc, List.drop_left, listed, contents, kept,
    List.nil_append, pure]

private theorem writable_of_fits {entries : List Entry} (fitting : fits entries = true)
    (storable : ∀ entry ∈ entries, Storable entry) : ∀ entry ∈ entries, Writable entry.head := by
  intro entry member
  unfold fits at fitting
  simp only [Bool.and_eq_true, decide_eq_true_eq, List.all_eq_true] at fitting
  obtain ⟨name, size⟩ := fitting.2 entry member
  obtain ⟨fields, encrypted, mode, -⟩ := storable entry member
  exact ⟨fields, name, encrypted, mode, size⟩

/-- Reading undoes writing, up to the time of entries that had none. -/
theorem read?_write {entries : List Entry} (fitting : fits entries = true)
    (storable : ∀ entry ∈ entries, Storable entry)
    (distinct : (entries.map Entry.name).Nodup) :
    read? (write entries) = some (entries.map reread) := by
  have writable := writable_of_fits fitting storable
  unfold fits at fitting
  simp only [Bool.and_eq_true, decide_eq_true_eq] at fitting
  obtain ⟨⟨count, size⟩, -⟩ := fitting
  rw [write_eq, List.length_append, List.length_append] at size
  have near : (writeEntries entries).length < 2 ^ (32 : Nat) := by omega
  rw [write_eq]
  exact read?_endBytes count _ near (readWith?_written near writable (fun entry member =>
    (storable entry member).stored) distinct _)

private theorem fromFields_of_readListed {bytes rest : Bytes} {listed : Listed}
    (read : readListed bytes = some (listed, rest)) : FromFields listed.head := by
  unfold readListed at read
  simp only at read
  split at read
  · cases read
  · obtain ⟨rfl, -⟩ := Prod.mk.inj (Option.some.inj read)
    refine ⟨⟨_, rfl, field_lt bytes 10 2⟩, fun stamp found => ?_⟩
    simp only [stampOf] at found
    split at found
    · rename_i valid
      cases found
      exact ⟨valid, field_lt bytes 14 2, field_lt bytes 12 2⟩
    · cases found

private theorem fromFields_of_readDirectory {count : Nat} {bytes : Bytes} {found : List Listed}
    (read : readDirectory count bytes = some found) : ∀ listed ∈ found, FromFields listed.head := by
  induction count generalizing bytes found with
  | zero =>
    cases read
    simp
  | succ count ih =>
    rw [readDirectory] at read
    obtain ⟨⟨listed, rest⟩, first, read⟩ := Option.bind_eq_some_iff.mp read
    obtain ⟨others, later, read⟩ := Option.bind_eq_some_iff.mp read
    cases read
    intro other member
    rcases List.mem_cons.mp member with rfl | member
    · exact fromFields_of_readListed first
    · exact ih later other member

private theorem mem_addListed {entries : List Entry} {entry other : Entry}
    (member : other ∈ addListed entries entry) : other ∈ entries ∨ other = entry := by
  unfold addListed at member
  split at member
  · obtain ⟨old, held, same⟩ := List.mem_map.mp member
    split at same
    · exact .inr same.symm
    · exact .inl (same ▸ held)
  · simpa using member

private theorem nodup_addListed {entries : List Entry} (distinct : (entries.map Entry.name).Nodup)
    (entry : Entry) : ((addListed entries entry).map Entry.name).Nodup := by
  unfold addListed
  split
  · have names : (entries.map fun other => if other.name = entry.name then entry else other).map
        Entry.name = entries.map Entry.name := by
      rw [List.map_map]
      apply List.map_congr_left
      intro other _
      simp only [Function.comp]
      split
      · rename_i same
        exact same.symm
      · rfl
    rw [names]
    exact distinct
  · rename_i new
    rw [List.map_append, List.nodup_append]
    refine ⟨distinct, by simp, ?_⟩
    rintro name member _ one rfl
    obtain ⟨other, held, same⟩ := List.mem_map.mp member
    apply new
    rw [List.any_eq_true]
    exact ⟨other, held, decide_eq_true (same.trans (List.mem_singleton.mp one))⟩

private theorem foldl_addListed_sound {listed kept : List Entry}
    (distinct : (kept.map Entry.name).Nodup) (sound : ∀ entry ∈ kept, FromFields entry.head)
    (all : ∀ entry ∈ listed, FromFields entry.head) :
    ((listed.foldl addListed kept).map Entry.name).Nodup ∧
      ∀ entry ∈ listed.foldl addListed kept, FromFields entry.head := by
  induction listed generalizing kept with
  | nil => exact ⟨distinct, sound⟩
  | cons entry listed ih =>
    refine ih (nodup_addListed distinct entry) (fun other member => ?_)
      (fun other member => all other (List.mem_cons_of_mem _ member))
    rcases mem_addListed member with old | rfl
    · exact sound other old
    · exact all other (List.mem_cons_self ..)

/-- The entries that are read have distinct names and heads that can be written. -/
theorem read?_sound {archive : Bytes} {entries : List Entry} (read : read? archive = some entries) :
    (entries.map Entry.name).Nodup ∧ ∀ entry ∈ entries, FromFields entry.head := by
  unfold read? at read
  obtain ⟨record, -, read⟩ := List.exists_of_findSome?_eq_some read
  unfold readWith? at read
  split at read
  · simp at read
  · split at read
    · simp at read
    · obtain ⟨start, -, read⟩ := Option.bind_eq_some_iff.mp read
      obtain ⟨listed, directory, read⟩ := Option.bind_eq_some_iff.mp read
      cases read
      have sound := fromFields_of_readDirectory directory
      refine foldl_addListed_sound (by simp) (by simp) fun entry member => ?_
      obtain ⟨own, held, rfl⟩ := List.mem_map.mp member
      exact sound own held

/-! An entry without a time is written with the earliest one. -/

private theorem writeDirectory_reread (entries : List Entry) (offset : Nat) :
    writeDirectory offset (entries.map reread) = writeDirectory offset entries := by
  induction entries generalizing offset with
  | nil => rfl
  | cons entry entries ih =>
    rw [List.map_cons, writeDirectory, writeDirectory, ih]
    rfl

theorem write_reread (entries : List Entry) : write (entries.map reread) = write entries := by
  have contents : writeEntries (entries.map reread) = writeEntries entries := by
    unfold writeEntries
    rw [List.flatMap_map]
    rfl
  unfold write
  simp only [contents, writeDirectory_reread, List.length_map]

private theorem fits_reread (entries : List Entry) : fits (entries.map reread) = fits entries := by
  unfold fits
  rw [write_reread, List.length_map, List.all_map]
  rfl

theorem plainLibrary_lawful : LawfulLibrary where
  distinct read := (read?_sound read).1
  fromFields read := (read?_sound read).2
  read_write := read?_write
  write_reread := write_reread
  fits_reread := fits_reread

end ClassCoverage.Archive
