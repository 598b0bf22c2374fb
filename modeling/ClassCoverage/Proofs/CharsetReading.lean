import ClassCoverage.Proofs.ReportRuns
import ClassCoverage.Proofs.ShownCounts
import Mathlib.Data.List.Basic

/-! Reading what was written in a character set. Characters the set holds are read again; in the
place of every other one stands its decimal reference. -/
namespace ClassCoverage.Charset

/-! Each table has one character for each byte above ASCII, so that no two characters share a
byte. -/

/-- A text with these pieces behind it. -/
def glue (text : String) (pieces : List (List Char)) : String :=
  pieces.foldl (fun text piece => text ++ String.ofList piece) text

private theorem length_glue (text : String) (pieces : List (List Char)) :
    (glue text pieces).length = text.length + (pieces.map List.length).sum := by
  induction pieces generalizing text with
  | nil => rfl
  | cons piece pieces ih =>
    have later := ih (text ++ String.ofList piece)
    rw [String.length_append, String.length_ofList, Nat.add_assoc] at later
    rw [List.map_cons, List.sum_cons]
    exact later

/-- Long tables are written in pieces, whose lengths are known one by one. -/
theorem length_of_pieces {table : String} (first : List Char) (pieces : List (List Char))
    (glued : table = glue (String.ofList first) pieces)
    (counted : first.length + (pieces.map List.length).sum = 128) : table.length = 128 := by
  rw [glued, length_glue, String.length_ofList, counted]

/-- The upper halves of all single-byte sets. -/
def tables : List String :=
  all.filterMap fun charset => match charset.coding with
    | .singleByte upper => some upper
    | _ => none

section
open SingleByte
set_option maxRecDepth 2000

private theorem tables_eq : tables =
    [ibm866, iso8859_2, iso8859_3, iso8859_4, iso8859_5, iso8859_6, iso8859_7, iso8859_8,
    iso8859_8, iso8859_10,
      iso8859_13, iso8859_14, iso8859_15, iso8859_16, koi8r, koi8u, macintosh, windows874,
      windows1250, windows1251,
      windows1252, windows1253, windows1254, windows1255, windows1256, windows1257,
      windows1258, macCyrillic,
      userDefined] := rfl

private theorem length_userDefined : userDefined.length = 128 := by simp [userDefined]

private theorem length_table {table : String} (member : table ∈ tables) : table.length = 128 := by
  revert table
  rw [tables_eq]
  simp only [List.forall_mem_cons, List.not_mem_nil, false_implies, implies_true, and_true]
  exact ⟨length_of_pieces _ [_] rfl rfl, length_of_pieces _ [_, _, _] rfl rfl,
    length_of_pieces _ [_, _, _] rfl rfl,
    length_of_pieces _ [_, _, _] rfl rfl, length_of_pieces _ [_, _, _] rfl rfl,
    length_of_pieces _ [_, _, _, _, _, _, _] rfl rfl, length_of_pieces _ [_, _, _] rfl rfl,
    length_of_pieces _ [_, _, _, _, _, _] rfl rfl, length_of_pieces _ [_, _, _, _, _, _] rfl rfl,
    length_of_pieces _ [_, _, _] rfl rfl, length_of_pieces _ [_, _, _] rfl rfl,
    length_of_pieces _ [_, _, _] rfl rfl, length_of_pieces _ [_, _, _] rfl rfl,
    length_of_pieces _ [_, _, _] rfl rfl, length_of_pieces _ [_] rfl rfl,
    length_of_pieces _ [_] rfl rfl,
    length_of_pieces _ [_] rfl rfl, length_of_pieces _ [_, _, _, _, _] rfl rfl,
    length_of_pieces _ [_] rfl rfl,
    length_of_pieces _ [_] rfl rfl, length_of_pieces _ [_] rfl rfl,
    length_of_pieces _ [_, _, _] rfl rfl,
    length_of_pieces _ [_, _] rfl rfl, length_of_pieces _ [_, _, _, _, _] rfl rfl,
    length_of_pieces _ [_, _, _, _, _] rfl rfl, length_of_pieces _ [_, _] rfl rfl,
    length_of_pieces _ [_, _] rfl rfl,
    length_of_pieces _ [_] rfl rfl, length_userDefined⟩
end

theorem length_of_singleByte {charset : Charset} {upper : String} (known : charset ∈ all)
    (coded : charset.coding = .singleByte upper) : upper.length = 128 :=
  length_table (List.mem_filterMap.mpr ⟨charset, known, by rw [coded]⟩)

theorem mem_all_of_ofReportLabel {label : String} {charset : Charset}
    (accepted : ofReportLabel label = .ok charset) :
    charset ∈ all := by
  have found := (ofReportLabel_eq_ok_iff.mp accepted).1
  unfold ofLabel? at found
  exact List.mem_of_find?_eq_some found

/-- The character of a byte. -/
def byteChar (upper : String) (byte : UInt8) : Char :=
  if byte.toNat < 128 then Char.ofNat byte.toNat
    else (upper.toList[byte.toNat - 128]?).getD '\uFFFD'

/-- Reads a text in UTF-8 or in a single-byte set. -/
def decode? (charset : Charset) (bytes : Bytes) : Option (List Char) :=
  match charset.coding with
  | .utf8 => some (Utf8.decodeLossy bytes)
  | .singleByte upper => some (bytes.map (byteChar upper))
  | .multiByte => none
  | .unfit => none

/-- What stands for a character in a text that is written and read again. -/
def shown (charset : Charset) (char : Char) : List Char :=
  if (charset.encodeChar? char).isSome then [char] else reference char

variable {charset : Charset}

theorem encodeChar?_ascii {char : Char} (ascii : char.toNat < 128) :
    charset.encodeChar? char = some [UInt8.ofNat char.toNat] := if_pos ascii

theorem flatMap_shown {text : List Char} (ascii : ∀ char ∈ text, char.toNat < 128) :
    text.flatMap charset.shown = text := by
  have own : ∀ char ∈ text, charset.shown char = [char] := fun char member => by
    rw [shown, encodeChar?_ascii (ascii char member)]
    rfl
  rw [List.flatMap_congr own, List.flatMap_singleton']

theorem utf8EncodeChar_ascii {char : Char} (ascii : char.toNat < 128) :
    String.utf8EncodeChar char = [UInt8.ofNat char.toNat] := by
  unfold String.utf8EncodeChar
  exact if_pos (Nat.le_of_lt_succ ascii)

private theorem encodeChar?_utf8 (coded : charset.coding = .utf8) (char : Char) :
    charset.encodeChar? char = some (String.utf8EncodeChar char) := by
  unfold encodeChar?
  split
  · rename_i ascii
    rw [utf8EncodeChar_ascii ascii]
  · rw [coded]

theorem byteChar_ascii (upper : String) {char : Char} (ascii : char.toNat < 128) :
    byteChar upper (UInt8.ofNat char.toNat) = char := by
  have same : (UInt8.ofNat char.toNat).toNat = char.toNat := by
    rw [UInt8.toNat_ofNat']
    omega
  unfold byteChar
  rw [same, if_pos ascii, Char.ofNat_toNat]

theorem map_byteChar_encode (upper : String) {text : List Char}
    (ascii : ∀ char ∈ text, char.toNat < 128) :
    (Utf8.encode text).map (byteChar upper) = text := by
  induction text with
  | nil => rfl
  | cons char text ih =>
    rw [List.forall_mem_cons] at ascii
    have whole : Utf8.encode (char :: text) = String.utf8EncodeChar char ++ Utf8.encode text := rfl
    rw [whole, List.map_append, ih ascii.2, utf8EncodeChar_ascii ascii.1, List.map_singleton,
      byteChar_ascii upper ascii.1, List.singleton_append]

theorem ascii_reference (char : Char) : ∀ other ∈ reference char, other.toNat < 128 := by
  intro other member
  unfold reference at member
  simp only [List.mem_append, List.mem_singleton] at member
  rcases member with (mark | digit) | rfl
  · revert other
    decide
  · have decimal := Report.isDigit_of_mem_toString digit
    simp only [Char.isDigit, Bool.and_eq_true, decide_eq_true_eq] at decimal
    have small := UInt32.le_iff_toNat_le.mp decimal.2
    exact Nat.lt_of_le_of_lt small (by decide)
  · decide

private theorem map_byteChar_encodeChar {upper : String} (full : upper.length = 128) {char : Char}
    {bytes : Bytes} (coded : charset.coding = .singleByte upper)
    (held : charset.encodeChar? char = some bytes) :
    bytes.map (byteChar upper) = [char] := by
  unfold encodeChar? at held
  split at held
  · rename_i ascii
    cases held
    rw [List.map_singleton, byteChar_ascii upper ascii]
  · rw [coded] at held
    dsimp only at held
    split at held
    · cases held
    · obtain ⟨index, place, rfl⟩ := Option.map_eq_some_iff.mp held
      obtain ⟨inside, same, -⟩ := List.findIdx?_eq_some_iff_getElem.mp place
      have small : index < 128 := by rw [← full, ← String.length_toList]; exact inside
      have code : (UInt8.ofNat (128 + index)).toNat = 128 + index := by
        rw [UInt8.toNat_ofNat']
        omega
      rw [List.map_singleton, byteChar, code, if_neg (by omega), Nat.add_sub_cancel_left,
        List.getElem?_eq_getElem inside, Option.getD_some, eq_of_beq same]

theorem encode_eq [Coders] (single : charset.coding ≠ .multiByte) (text : List Char) :
    charset.encode text = charset.encodeEach text := by
  unfold encode
  split
  · contradiction
  · rfl

/-- What is written is read with each character as it is shown. -/
theorem decode?_encode [Coders] (known : charset ∈ all)
    (coded : charset.coding = .utf8 ∨ ∃ upper, charset.coding = .singleByte upper)
    (text : List Char) :
    charset.decode? (charset.encode text) = some (text.flatMap charset.shown) := by
  have single : charset.coding ≠ .multiByte := by
    rcases coded with coded | ⟨upper, coded⟩ <;> simp [coded]
  rw [encode_eq single]
  unfold decode?
  rcases coded with coded | ⟨upper, coded⟩
  · rw [coded]
    have same : charset.encodeEach text = Utf8.encode text := by
      unfold encodeEach Utf8.encode
      exact List.flatMap_congr fun char _ => by rw [encodeChar?_utf8 coded, Option.getD_some]
    have plain : text.flatMap charset.shown = text := by
      have own (char : Char) : charset.shown char = [char] := by
        rw [shown, encodeChar?_utf8 coded]
        rfl
      rw [funext own, List.flatMap_singleton']
    dsimp only
    rw [same, Utf8.decodeLossy_encode, plain]
  · rw [coded]
    dsimp only
    unfold encodeEach
    rw [List.map_flatMap]
    congr 1
    refine List.flatMap_congr fun char _ => ?_
    unfold shown
    cases held : charset.encodeChar? char with
    | some bytes => exact map_byteChar_encodeChar (length_of_singleByte known coded) coded held
    | none => exact map_byteChar_encode upper (ascii_reference char)

end ClassCoverage.Charset
