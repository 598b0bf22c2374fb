import ClassCoverage.Bytes

/-! UTF-8 text: reading with the position of the first fault, and reading that replaces
every faulty sequence. Reading undoes writing. -/
namespace ClassCoverage.Utf8

/-- The first faulty sequence starts after `valid` bytes. It has `length` bytes, or is cut off
by the end of the text when there is no length. -/
structure Fault where
  valid : Nat
  length : Option Nat
  deriving DecidableEq, Repr

def Fault.message (fault : Fault) : String :=
  match fault.length with
  | some length => s!"invalid utf-8 sequence of {length} bytes from index {fault.valid}"
  | none => s!"incomplete utf-8 byte sequence from index {fault.valid}"

def encode (text : List Char) : Bytes := text.flatMap String.utf8EncodeChar

/-- The character a text starts with. -/
def first? (bytes : Bytes) : Option Char := (bytes.take 4).toByteArray.utf8DecodeChar? 0

/-- How many continuation bytes a leading byte announces, and the range of the first of them. -/
private def announced (lead : UInt8) : Option (Nat × UInt8 × UInt8) :=
  if 0xC2 ≤ lead && lead ≤ 0xDF then some (1, 0x80, 0xBF)
  else if lead == 0xE0 then some (2, 0xA0, 0xBF)
  else if lead == 0xED then some (2, 0x80, 0x9F)
  else if 0xE1 ≤ lead && lead ≤ 0xEF then some (2, 0x80, 0xBF)
  else if lead == 0xF0 then some (3, 0x90, 0xBF)
  else if 0xF1 ≤ lead && lead ≤ 0xF3 then some (3, 0x80, 0xBF)
  else if lead == 0xF4 then some (3, 0x80, 0x8F)
  else none

/-- The length of the faulty sequence at the head, or nothing if it runs into the end. -/
def faultLength (bytes : Bytes) : Option Nat :=
  match bytes with
  | [] => none
  | lead :: rest =>
    match announced lead with
    | none => some 1
    | some (count, low, high) =>
      match rest with
      | [] => none
      | second :: more =>
        if low ≤ second && second ≤ high then
          let good := (more.take (count - 1)).takeWhile fun byte => 0x80 ≤ byte && byte ≤ 0xBF
          if more.length ≤ good.length then none else some (2 + good.length)
        else some 1

private theorem width_pos (char : Char) : 0 < char.utf8Size := Char.utf8Size_pos char

/-- Reads a text that starts after `position` bytes. -/
def decodeFrom (position : Nat) (bytes : Bytes) : Except Fault (List Char) :=
  match bytes with
  | [] => .ok []
  | lead :: rest =>
    match first? (lead :: rest) with
    | some char => do
      let tail ← decodeFrom (position + char.utf8Size) ((lead :: rest).drop char.utf8Size)
      return char :: tail
    | none => .error ⟨position, faultLength (lead :: rest)⟩
termination_by bytes.length
decreasing_by
  have positive := width_pos char
  simp only [List.length_drop, List.length_cons]
  omega

def decode (bytes : Bytes) : Except Fault (List Char) := decodeFrom 0 bytes

/-- Reads a text, putting U+FFFD in the place of each faulty sequence. -/
def decodeLossy (bytes : Bytes) : List Char :=
  match bytes with
  | [] => []
  | lead :: rest =>
    match first? (lead :: rest) with
    | some char => char :: decodeLossy ((lead :: rest).drop char.utf8Size)
    | none =>
      match faultLength (lead :: rest) with
      | some length => '\uFFFD' :: decodeLossy (rest.drop (length - 1))
      | none => ['\uFFFD']
termination_by bytes.length
decreasing_by
  · have positive := width_pos char
    simp only [List.length_drop, List.length_cons]
    omega
  · simp only [List.length_drop, List.length_cons]
    omega

private theorem take_append_encode (char : Char) (rest : Bytes) :
    (String.utf8EncodeChar char ++ rest).take 4 =
      String.utf8EncodeChar char ++ rest.take (4 - char.utf8Size) := by
  have small : char.utf8Size ≤ 4 := Char.utf8Size_le_four char
  rw [List.take_append, String.length_utf8EncodeChar, List.take_of_length_le]
  simpa using small

theorem first?_encode_append (char : Char) (rest : Bytes) :
    first? (String.utf8EncodeChar char ++ rest) = some char := by
  rw [first?, take_append_encode, List.toByteArray_append]
  exact ByteArray.utf8DecodeChar?_utf8EncodeChar_append

/-- A text that is not empty starts with the bytes of its first character. -/
theorem encode_cons (char : Char) (rest : List Char) :
    ∃ lead tail, encode (char :: rest) = lead :: tail ∧ first? (lead :: tail) = some char ∧
      (lead :: tail).drop char.utf8Size = encode rest := by
  have found := first?_encode_append char (encode rest)
  have width := String.length_utf8EncodeChar char
  have positive := width_pos char
  have split : encode (char :: rest) = String.utf8EncodeChar char ++ encode rest := by
    simp [encode]
  have dropped := @List.drop_left' _ _ (encode rest) _ width
  rw [← split] at found dropped
  cases shown : encode (char :: rest) with
  | nil =>
    rw [shown] at split
    have empty := congrArg List.length split
    simp only [List.length_append, List.length_nil] at empty
    omega
  | cons lead tail =>
    rw [shown] at found dropped
    exact ⟨lead, tail, rfl, found, dropped⟩

theorem decodeFrom_encode (position : Nat) (text : List Char) :
    decodeFrom position (encode text) = .ok text := by
  induction text generalizing position with
  | nil => simp [encode, decodeFrom]
  | cons char rest ih =>
    obtain ⟨lead, tail, shown, found, dropped⟩ := encode_cons char rest
    rw [shown, decodeFrom, found]
    simp [dropped, ih, bind, Except.bind, pure, Except.pure]

/-- Reading undoes writing. -/
theorem decode_encode (text : List Char) : decode (encode text) = .ok text :=
  decodeFrom_encode 0 text

/-- A text starts with the bytes of the character that is found at its start. -/
theorem append_of_first? {bytes : Bytes} {char : Char} (found : first? bytes = some char) :
    bytes = String.utf8EncodeChar char ++ bytes.drop char.utf8Size := by
  have written := String.toByteArray_utf8EncodeChar_of_utf8DecodeChar?_eq_some found
  have small : char.utf8Size ≤ 4 := Char.utf8Size_le_four char
  have front : String.utf8EncodeChar char = bytes.take char.utf8Size := by
    have arrays := congrArg (fun array => array.data.toList) written
    simpa [List.take_take, Nat.min_eq_left small] using arrays
  rw [front, List.take_append_drop]

theorem encode_of_decodeFrom {position : Nat} {bytes : Bytes} {text : List Char}
    (read : decodeFrom position bytes = .ok text) : bytes = encode text := by
  fun_induction decodeFrom position bytes generalizing text with
  | case1 =>
    cases read
    rfl
  | case2 position lead rest char found ih =>
    cases later : decodeFrom (position + char.utf8Size) ((lead :: rest).drop char.utf8Size) with
    | error fault =>
      rw [later] at read
      cases read
    | ok tail =>
      rw [later] at read
      cases read
      rw [append_of_first? found, ih later]
      rfl
  | case3 => cases read

/-- What can be read is what was written. -/
theorem decode_eq_ok_iff {bytes : Bytes} {text : List Char} :
    decode bytes = .ok text ↔ bytes = encode text := by
  constructor
  · exact encode_of_decodeFrom
  · intro written
    rw [written, decode_encode]

/-- Nothing is replaced in what was written. -/
theorem decodeLossy_encode (text : List Char) : decodeLossy (encode text) = text := by
  induction text with
  | nil => simp [encode, decodeLossy]
  | cons char rest ih =>
    obtain ⟨lead, tail, shown, found, dropped⟩ := encode_cons char rest
    rw [shown, decodeLossy, found]
    simp only [dropped, ih]

end ClassCoverage.Utf8
