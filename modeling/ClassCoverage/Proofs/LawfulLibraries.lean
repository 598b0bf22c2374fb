import ClassCoverage.Archive

/-! What a library for archives is relied on for. Whatever it reads it can write again, and what it
has written is read as it was. -/
namespace ClassCoverage.Archive

/-- A head with a method and a time that two bytes can say. -/
structure FromFields (head : EntryHead) : Prop where
  method : ∃ code, head.method = .ofCode code ∧ code < 2 ^ (16 : Nat)
  stamp : ∀ stamp, head.stamp = some stamp →
    stamp.isValid = true ∧ stamp.date < 2 ^ (16 : Nat) ∧ stamp.time < 2 ^ (16 : Nat)

/-- An entry that is put into a new archive. -/
structure Storable (entry : Entry) : Prop extends FromFields entry.head where
  encrypted : entry.head.encrypted = false
  mode : ∃ mode, entry.head.mode = some mode ∧ mode ≠ 0 ∧ mode < 2 ^ (16 : Nat)
  stored : entry.stored.isSome = true

section
variable [Library]

/-- A head as it is read back. One without a time has the usual one. -/
def stamped (head : EntryHead) : EntryHead :=
  { head with stamp := some (head.stamp.getD Library.usualStamp) }

/-- An entry as it is read back. -/
def reread (entry : Entry) : Entry := { entry with head := stamped entry.head }

/-- Entries that are read have distinct names, and fields that can be written. Reading undoes
writing, up to the time of entries that had none: they are written with the usual time. -/
class LawfulLibrary : Prop where
  distinct {archive : Bytes} {entries : List Entry} (read : Library.read? archive = some entries) :
    (entries.map Entry.name).Nodup
  fromFields {archive : Bytes} {entries : List Entry}
    (read : Library.read? archive = some entries) :
    ∀ entry ∈ entries, FromFields entry.head
  read_write {entries : List Entry} (fitting : Library.fits entries = true)
    (storable : ∀ entry ∈ entries, Storable entry) (distinct : (entries.map Entry.name).Nodup) :
    Library.read? (Library.write entries) = some (entries.map reread)
  write_reread (entries : List Entry) : Library.write (entries.map reread) = Library.write entries
  fits_reread (entries : List Entry) : Library.fits (entries.map reread) = Library.fits entries

@[simp] theorem name_reread (entry : Entry) : (reread entry).name = entry.name := rfl

theorem names_reread (entries : List Entry) :
    (entries.map reread).map Entry.name = entries.map Entry.name :=
  List.map_map

end
end ClassCoverage.Archive
