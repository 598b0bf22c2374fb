import ClassCoverage.Archive.Format
import ClassCoverage.Proofs.LawfulLibraries

/-! The fields of archive records. A number is read back from its field, and a name from its bytes,
so every record that is written is read as what it was written for. -/
namespace ClassCoverage

theorem Method.code_ofCode (code : Nat) : (Method.ofCode code).code = code := by
  unfold Method.ofCode
  split
  · rename_i zero
    exact zero.symm
  · split
    · rename_i eight
      exact eight.symm
    · rfl

namespace Archive
attribute [local instance] plainLibrary

theorem field_here (width number : Nat) (rest : Bytes) :
    field (Bytes.ofNat width number ++ rest) 0 width = number % 256 ^ width := by
  unfold field
  rw [List.drop_zero, List.take_left' (Bytes.length_ofNat width number), Bytes.toNat_ofNat]

theorem field_all (width number : Nat) :
    field (Bytes.ofNat width number) 0 width = number % 256 ^ width := by
  rw [← List.append_nil (Bytes.ofNat width number), field_here]

theorem field_behind {front : Bytes} {offset : Nat} (behind : front.length ≤ offset) (rest : Bytes)
    (width : Nat) :
    field (front ++ rest) offset width = field rest (offset - front.length) width := by
  unfold field
  rw [List.drop_append, List.drop_eq_nil_of_le behind, List.nil_append]

theorem field_behind_number {width offset : Nat} (behind : width ≤ offset) (number : Nat)
    (rest : Bytes) (width' : Nat) :
    field (Bytes.ofNat width number ++ rest) offset width' =
      field rest (offset - width) width' := by
  have length := Bytes.length_ofNat width number
  rw [field_behind (by omega), length]

private theorem field_behind_directorySignature {offset : Nat} (behind : 4 ≤ offset) (rest : Bytes)
    (width : Nat) :
    field (directorySignature ++ rest) offset width = field rest (offset - 4) width :=
  field_behind behind rest width

private theorem field_behind_localSignature {offset : Nat} (behind : 4 ≤ offset) (rest : Bytes)
    (width : Nat) : field (localSignature ++ rest) offset width = field rest (offset - 4) width :=
  field_behind behind rest width

theorem field_behind_endSignature {offset : Nat} (behind : 4 ≤ offset) (rest : Bytes)
    (width : Nat) : field (endSignature ++ rest) offset width = field rest (offset - 4) width :=
  field_behind behind rest width

theorem mod_of_pair {number : Nat} (small : number < 2 ^ (16 : Nat)) :
    number % 256 ^ (2 : Nat) = number :=
  Nat.mod_eq_of_lt small

theorem mod_of_word {number : Nat} (small : number < 2 ^ (32 : Nat)) :
    number % 256 ^ (4 : Nat) = number :=
  Nat.mod_eq_of_lt small

theorem field_lt (bytes : Bytes) (offset width : Nat) : field bytes offset width < 256 ^ width := by
  have bound := Bytes.toNat_lt ((bytes.drop offset).take width)
  have short : ((bytes.drop offset).take width).length ≤ width := by
    rw [List.length_take]
    omega
  exact Nat.lt_of_lt_of_le bound (Nat.pow_le_pow_right (by omega) short)

private theorem oldChar_of_plain {char : Char} (plain : char.val < 128) :
    (String.utf8EncodeChar char).map oldChar = [char] := by
  have small : char.val.toNat < 128 := plain
  have byte : (UInt8.ofNat char.val.toNat).toNat = char.val.toNat := by
    rw [UInt8.toNat_ofNat']
    omega
  have single : String.utf8EncodeChar char = [UInt8.ofNat char.val.toNat] := by
    unfold String.utf8EncodeChar
    exact if_pos (by omega)
  have low : UInt8.ofNat char.val.toNat < 128 := by
    rw [UInt8.lt_iff_toNat_lt, byte]
    exact small
  rw [single, List.map_singleton, oldChar, if_pos low, byte]
  exact congrArg (fun read => [read]) (Char.ofNat_toNat char)

private theorem oldChars_of_plain {text : List Char} (plain : ∀ char ∈ text, char.val < 128) :
    (Utf8.encode text).map oldChar = text := by
  induction text with
  | nil => rfl
  | cons char rest ih =>
    have first := oldChar_of_plain (plain char (List.mem_cons_self ..))
    have later := ih fun other member => plain other (List.mem_cons_of_mem _ member)
    unfold Utf8.encode at later ⊢
    rw [List.flatMap_cons, List.map_append, first, later]
    rfl

private theorem decodeName_encodeName (name : String) :
    decodeName ((nameFlags name).testBit 11) (encodeName name) = name := by
  unfold decodeName encodeName
  cases plain : isPlain name with
  | false =>
    have marked : (nameFlags name).testBit 11 = true := by
      rw [nameFlags, plain]
      decide
    rw [if_pos marked, Utf8.decodeLossy_encode, String.ofList_toList]
  | true =>
    have unmarked : (nameFlags name).testBit 11 = false := by
      rw [nameFlags, plain]
      decide
    have small : ∀ char ∈ name.toList, char.val < 128 := by
      unfold isPlain at plain
      simpa using plain
    rw [unmarked, if_neg (by decide), oldChars_of_plain small, String.ofList_toList]

/-- A head that a record of the directory can hold as it is. -/
structure Writable (head : EntryHead) : Prop extends FromFields head where
  name : (encodeName head.name).length < 2 ^ (16 : Nat)
  encrypted : head.encrypted = false
  mode : ∃ mode, head.mode = some mode ∧ mode ≠ 0 ∧ mode < 2 ^ (16 : Nat)
  size : head.size < 2 ^ (32 : Nat)

private theorem stampOf_written {head : EntryHead} (writable : Writable head) :
    stampOf ((head.stamp.getD .earliest).date % 256 ^ (2 : Nat))
      ((head.stamp.getD .earliest).time % 256 ^ (2 : Nat)) =
      some (head.stamp.getD .earliest) := by
  have sound : (head.stamp.getD .earliest).isValid = true ∧
      (head.stamp.getD .earliest).date < 2 ^ (16 : Nat) ∧
      (head.stamp.getD .earliest).time < 2 ^ (16 : Nat) := by
    cases own : head.stamp with
    | none => decide
    | some stamp => exact writable.stamp stamp own
  obtain ⟨valid, date, time⟩ := sound
  rw [mod_of_pair date, mod_of_pair time]
  exact if_pos valid

private theorem modeOf_written {head : EntryHead} (writable : Writable head) :
    modeOf .unix (attributesOf head.mode % 256 ^ (4 : Nat)) = head.mode := by
  obtain ⟨mode, own, positive, small⟩ := writable.mode
  have fits : 65536 * mode % 256 ^ (4 : Nat) = 65536 * mode := mod_of_word (by omega)
  have high : 65536 * mode / 65536 = mode := by omega
  rw [own, attributesOf, Option.getD_some, fits, modeOf, high, if_neg (by omega), if_pos positive]

private theorem methodOf_written {head : EntryHead} (writable : Writable head) :
    Method.ofCode (head.method.code % 256 ^ (2 : Nat)) = head.method := by
  obtain ⟨code, own, small⟩ := writable.method
  rw [own, Method.code_ofCode, mod_of_pair small]

private theorem flags_written (name : String) :
    nameFlags name % 256 ^ (2 : Nat) = nameFlags name ∧ (nameFlags name).testBit 0 = false := by
  unfold nameFlags
  split <;> decide

/-- What stands in the fields of a written record. -/
theorem field_writeListed (entry : Entry) (offset : Nat) (rest : Bytes) :
    field (writeListed entry offset ++ rest) 5 1 = 3 % 256 ^ (1 : Nat) ∧
    field (writeListed entry offset ++ rest) 8 2 = nameFlags entry.head.name % 256 ^ (2 : Nat) ∧
    field (writeListed entry offset ++ rest) 10 2 = entry.head.method.code % 256 ^ (2 : Nat) ∧
    field (writeListed entry offset ++ rest) 12 2 =
      (entry.head.stamp.getD .earliest).time % 256 ^ (2 : Nat) ∧
    field (writeListed entry offset ++ rest) 14 2 =
      (entry.head.stamp.getD .earliest).date % 256 ^ (2 : Nat) ∧
    field (writeListed entry offset ++ rest) 16 4 = entry.head.checksum.toNat % 256 ^ (4 : Nat) ∧
    field (writeListed entry offset ++ rest) 20 4 =
      (entry.stored.getD []).length % 256 ^ (4 : Nat) ∧
    field (writeListed entry offset ++ rest) 24 4 = entry.head.size % 256 ^ (4 : Nat) ∧
    field (writeListed entry offset ++ rest) 28 2 =
      (encodeName entry.head.name).length % 256 ^ (2 : Nat) ∧
    field (writeListed entry offset ++ rest) 30 2 = 0 % 256 ^ (2 : Nat) ∧
    field (writeListed entry offset ++ rest) 32 2 = 0 % 256 ^ (2 : Nat) ∧
    field (writeListed entry offset ++ rest) 38 4 = attributesOf entry.head.mode % 256 ^ (4 : Nat) ∧
    field (writeListed entry offset ++ rest) 42 4 = offset % 256 ^ (4 : Nat) := by
  refine ⟨?_, ?_, ?_, ?_, ?_, ?_, ?_, ?_, ?_, ?_, ?_, ?_, ?_⟩ <;>
    simp (disch := decide) only [writeListed, sharedFields, List.append_assoc,
      field_behind_directorySignature, field_behind_number, field_here, Nat.reduceSub]

/-- A record of the directory is read as what it was written for. -/
theorem readListed_writeListed {entry : Entry} (writable : Writable entry.head)
    (size : (entry.stored.getD []).length < 2 ^ (32 : Nat)) {offset : Nat}
    (small : offset < 2 ^ (32 : Nat)) (rest : Bytes) :
    readListed (writeListed entry offset ++ rest) =
      some (⟨stamped entry.head, (entry.stored.getD []).length, offset⟩, rest) := by
  obtain ⟨origin, flags, method, time, date, checksum, storedSize, wholeSize,
    nameSize, extra, comment,
    attributes, start⟩ := field_writeListed entry offset rest
  obtain ⟨flags', open'⟩ := flags_written entry.head.name
  have checksum' : entry.head.checksum.toNat % 256 ^ (4 : Nat) = entry.head.checksum.toNat :=
    mod_of_word entry.head.checksum.toNat_lt
  rw [flags'] at flags
  rw [mod_of_pair writable.name] at nameSize
  obtain ⟨front, split, length⟩ : ∃ front,
      writeListed entry offset = front ++ encodeName entry.head.name ∧ front.length = 46 :=
    ⟨_, rfl, by simp [sharedFields, directorySignature]⟩
  have marked : directorySignature.isPrefixOf (writeListed entry offset ++ rest) = true := by
    simp [writeListed, List.isPrefixOf_iff_prefix]
  have behind : (writeListed entry offset ++ rest).drop (46 + (encodeName entry.head.name).length) =
      rest := by
    rw [split, List.drop_left' (by rw [List.length_append, length])]
  have name : ((writeListed entry offset ++ rest).drop 46).take
      (encodeName entry.head.name).length = encodeName entry.head.name := by
    rw [split, List.append_assoc, List.drop_left' length, List.take_left' rfl]
  have enough : ¬ (writeListed entry offset ++ rest).length <
      46 + (encodeName entry.head.name).length := by
    rw [split, List.length_append, List.length_append, length]
    omega
  simp only [readListed, origin, flags, method, time, date, checksum,
    storedSize, wholeSize, nameSize,
    extra, comment, attributes, start, marked, name, Nat.zero_mod, Nat.add_zero, enough, behind,
    decide_false, Bool.not_true, Bool.or_false, Bool.false_eq_true, ↓reduceIte]
  rw [stampOf_written writable, methodOf_written writable, decodeName_encodeName, open',
    show Origin.ofCode (3 % 256 ^ (1 : Nat)) = .unix from rfl, modeOf_written writable, checksum',
    mod_of_word writable.size, mod_of_word size, mod_of_word small,
    UInt32.ofNat_toNat, ← writable.encrypted]
  rfl

theorem length_writeEntry (entry : Entry) :
    (writeEntry entry).length =
      30 + (encodeName entry.head.name).length + (entry.stored.getD []).length := by
  simp [writeEntry, sharedFields, localSignature, Entry.name]
  omega

/-- The content of an entry is found behind the header that was written for it. -/
theorem storedContent?_written {entry : Entry} (writable : Writable entry.head)
    (before after : Bytes) (head : EntryHead) :
    storedContent? (before ++ (writeEntry entry ++ after)) 0
      ⟨head, (entry.stored.getD []).length, before.length⟩ = some (entry.stored.getD []) := by
  have nameSize : field (writeEntry entry ++ after) 26 2 = (encodeName entry.head.name).length := by
    simp (disch := decide) only [writeEntry, sharedFields, List.append_assoc,
      field_behind_localSignature, field_behind_number, field_here, Nat.reduceSub]
    exact mod_of_pair writable.name
  have extra : field (writeEntry entry ++ after) 28 2 = 0 := by
    simp (disch := decide) only [writeEntry, sharedFields, List.append_assoc,
      field_behind_localSignature, field_behind_number, field_here, Nat.reduceSub, Nat.zero_mod]
  have marked : localSignature.isPrefixOf (writeEntry entry ++ after) = true := by
    simp [writeEntry, List.isPrefixOf_iff_prefix]
  obtain ⟨front, split, length⟩ : ∃ front, writeEntry entry = front ++ entry.stored.getD [] ∧
      front.length = 30 + (encodeName entry.head.name).length :=
    ⟨_, rfl, by simp [sharedFields, localSignature, Entry.name]; omega⟩
  have enough : ¬ (writeEntry entry ++ after).length < 30 := by
    rw [List.length_append, length_writeEntry]
    omega
  have behind : (writeEntry entry ++ after).drop (30 + (encodeName entry.head.name).length) =
      entry.stored.getD [] ++ after := by
    rw [split, List.append_assoc, List.drop_left' length]
  simp only [storedContent?, Nat.zero_add, List.drop_left, marked, enough, nameSize, extra,
    Nat.add_zero, behind, List.take_left, decide_false, Bool.not_true, Bool.or_false,
    Bool.false_eq_true, ↓reduceIte]

end Archive
end ClassCoverage
