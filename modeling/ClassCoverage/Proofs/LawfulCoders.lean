import ClassCoverage.Proofs.CharsetReading
import ClassCoverage.Proofs.LabelSpellings

/-! What the coders of multi-byte sets are relied on for. ASCII is written as itself, and blanks
outside ASCII are told from it. What a set writes for a label falls into pieces of these two
kinds. -/
namespace ClassCoverage.Charset
open Text (isBlank)

/-- What a file shows to a reader that knows ASCII alone. -/
def glance (content : Bytes) : List Char := content.map (byteChar "")

theorem glance_append (front back : Bytes) : glance (front ++ back) = glance front ++ glance back :=
  List.map_append

theorem glance_ascii {text : List Char} (ascii : ∀ char ∈ text, char.toNat < 128) :
    glance (Utf8.encode text) = text := map_byteChar_encode "" ascii

/-- Characters of ASCII but for the three by which some sets shift from one table to another. -/
def isPlain (char : Char) : Bool := char.toNat < 128 && char.toNat ∉ [14, 15, 27]

/-- Blanks that are not in ASCII. -/
def isFarBlank (char : Char) : Bool := isBlank char && 128 ≤ char.toNat

theorem ascii_of_isPlain {char : Char} (plain : isPlain char = true) : char.toNat < 128 :=
  of_decide_eq_true (Bool.and_eq_true_iff.mp plain).1

/-- A sign that stands in no label and is no blank that a lookup passes over. -/
def IsForeign (sign : Char) : Prop := isLabelChar sign = false ∧ isAsciiBlank sign = false

/-- Plain characters are written as themselves, and what is behind them as if it came first. Blanks
outside ASCII do not reach into what is plain behind them; they start with a byte that is not in
ASCII, with an escape, or as a reference, and there is no quote in them. -/
class LawfulCoders [Coders] : Prop where
  write_plain (name : String) {front : List Char} (plain : ∀ char ∈ front, isPlain char = true)
    (back : List Char) : Coders.write name (front ++ back) = Utf8.encode front ++
      Coders.write name back
  write_blanks (name : String) {blanks back : List Char} (far : ∀ char ∈ blanks,
    isFarBlank char = true)
    (plain : ∀ first ∈ back.head?, isPlain first = true) :
    Coders.write name (blanks ++ back) = Coders.write name blanks ++ Coders.write name back
  head_blanks (name : String) {blanks : List Char} (far : ∀ char ∈ blanks, isFarBlank char = true)
    (some_ : blanks ≠ []) : ∃ sign ∈ (glance (Coders.write name blanks)).head?,
    sign ∈ ['\uFFFD', '\u001B', '&']
  quote_blanks (name : String) {blanks : List Char} (far : ∀ char ∈ blanks,
    isFarBlank char = true) :
    '"' ∉ glance (Coders.write name blanks)

/-! Sets that write one character after the other keep the same laws. -/

private theorem high_of_utf8EncodeChar {char : Char} (high : 128 ≤ char.toNat) :
    ∀ byte ∈ String.utf8EncodeChar char, 128 ≤ byte.toNat := by
  have apart : ¬ char.val.toNat ≤ 127 := Nat.not_le.mpr high
  have marked (value mark : Nat) (sum : value + mark < 256) (least : 128 ≤ mark) :
      128 ≤ (UInt8.ofNat (value + mark)).toNat := by
    rw [UInt8.toNat_ofNat', Nat.mod_eq_of_lt sum]
    omega
  rw [String.utf8EncodeChar, if_neg apart]
  split
  · simp only [List.forall_mem_cons, List.not_mem_nil, false_implies, implies_true, and_true]
    exact ⟨marked _ _ (by omega) (by decide), marked _ _ (by omega) (by decide)⟩
  · split
    · simp only [List.forall_mem_cons, List.not_mem_nil, false_implies, implies_true, and_true]
      exact ⟨marked _ _ (by omega) (by decide), marked _ _ (by omega) (by decide),
        marked _ _ (by omega) (by decide)⟩
    · simp only [List.forall_mem_cons, List.not_mem_nil, false_implies, implies_true, and_true]
      exact ⟨marked _ _ (by omega) (by decide), marked _ _ (by omega) (by decide),
        marked _ _ (by omega) (by decide), marked _ _ (by omega) (by decide)⟩

variable {charset : Charset}

/-- No byte of a character outside ASCII is taken for one in ASCII. -/
theorem high_of_encodeChar?
    (full : ∀ upper, charset.coding = .singleByte upper → upper.length = 128) {char : Char}
    (high : 128 ≤ char.toNat) {bytes : Bytes} (held : charset.encodeChar? char = some bytes) :
    bytes ≠ [] ∧ ∀ byte ∈ bytes, 128 ≤ byte.toNat := by
  unfold encodeChar? at held
  rw [if_neg (Nat.not_lt.mpr high)] at held
  cases coded : charset.coding with
  | utf8 =>
    rw [coded] at held
    obtain rfl := Option.some.inj held
    exact ⟨String.utf8EncodeChar_ne_nil, high_of_utf8EncodeChar high⟩
  | singleByte upper =>
    rw [coded] at held
    dsimp only at held
    split at held
    · cases held
    · obtain ⟨index, place, rfl⟩ := Option.map_eq_some_iff.mp held
      obtain ⟨inside, -, -⟩ := List.findIdx?_eq_some_iff_getElem.mp place
      have small : index < 128 := by
        rw [← full upper coded, ← String.length_toList]
        exact inside
      refine ⟨by simp, fun byte member => ?_⟩
      obtain rfl := List.mem_singleton.mp member
      rw [UInt8.toNat_ofNat']
      omega
  | multiByte =>
    rw [coded] at held
    cases held
  | unfit =>
    rw [coded] at held
    cases held

private theorem byteChar_high {byte : UInt8} (high : 128 ≤ byte.toNat) :
    byteChar "" byte = '\uFFFD' := by
  rw [byteChar, if_neg (Nat.not_lt.mpr high)]
  rfl

theorem encodeEach_append (front back : List Char) :
    charset.encodeEach (front ++ back) = charset.encodeEach front ++ charset.encodeEach back :=
  List.flatMap_append

theorem encodeEach_ascii {text : List Char} (ascii : ∀ char ∈ text, char.toNat < 128) :
    charset.encodeEach text = Utf8.encode text := by
  refine List.flatMap_congr fun char member => ?_
  rw [encodeChar?_ascii (ascii char member),
    utf8EncodeChar_ascii (ascii char member), Option.getD_some]

/-- A character outside ASCII shows no quote, and something else in front. -/
theorem glance_high (full : ∀ upper, charset.coding = .singleByte upper → upper.length = 128)
    {char : Char} (high : 128 ≤ char.toNat) :
    '"' ∉ glance (charset.encodeEach [char]) ∧
      ∃ sign ∈ (glance (charset.encodeEach [char])).head?, sign ∈ ['\uFFFD', '\u001B', '&'] := by
  rw [encodeEach, List.flatMap_singleton]
  cases held : charset.encodeChar? char with
  | some bytes =>
    obtain ⟨nonempty, highs⟩ := high_of_encodeChar? full high held
    have shown : glance bytes = List.replicate bytes.length '\uFFFD' := by
      rw [glance, List.map_congr_left fun byte member =>
        byteChar_high (highs byte member), List.map_const']
    obtain ⟨byte, rest, rfl⟩ := List.exists_cons_of_ne_nil nonempty
    rw [Option.getD_some, shown]
    refine ⟨fun member => ?_, '\uFFFD', by simp [List.replicate_succ], by decide⟩
    exact absurd (List.eq_of_mem_replicate member) (by decide)
  | none =>
    have digits : '"' ∉ (toString char.toNat).toList := Report.not_mem_toString rfl
    rw [Option.getD_none, glance_ascii (ascii_reference char)]
    refine ⟨?_, '&', by simp [reference], by decide⟩
    simp only [reference, List.mem_append, List.mem_singleton, not_or]
    exact ⟨⟨by decide, digits⟩, by decide⟩

theorem quote_blanks_encodeEach
    (full : ∀ upper, charset.coding = .singleByte upper → upper.length = 128) {blanks : List Char}
    (far : ∀ char ∈ blanks, isFarBlank char = true) :
    '"' ∉ glance (charset.encodeEach blanks) := by
  induction blanks with
  | nil => simp [encodeEach, glance]
  | cons char blanks ih =>
    obtain ⟨first, later⟩ := List.forall_mem_cons.mp far
    have high : 128 ≤ char.toNat := of_decide_eq_true (Bool.and_eq_true_iff.mp first).2
    rw [← List.singleton_append, encodeEach_append, glance_append, List.mem_append, not_or]
    exact ⟨(glance_high full high).1, ih later⟩

theorem head_blanks_encodeEach
    (full : ∀ upper, charset.coding = .singleByte upper → upper.length = 128) {blanks : List Char}
    (far : ∀ char ∈ blanks, isFarBlank char = true) (some_ : blanks ≠ []) :
    ∃ sign ∈ (glance (charset.encodeEach blanks)).head?, sign ∈ ['\uFFFD', '\u001B', '&'] := by
  obtain ⟨char, blanks, rfl⟩ := List.exists_cons_of_ne_nil some_
  have high : 128 ≤ char.toNat :=
    of_decide_eq_true (Bool.and_eq_true_iff.mp (far char (List.mem_cons_self ..))).2
  obtain ⟨-, sign, first, foreign⟩ := glance_high full high
  refine ⟨sign, ?_, foreign⟩
  rw [← List.singleton_append, encodeEach_append, glance_append]
  exact List.mem_head?_append_of_mem_head? first

attribute [local instance] asciiCoders in
/-- Coders that know ASCII alone keep the laws. -/
theorem asciiCoders_lawful : LawfulCoders where
  write_plain name front plain back := by
    rw [← encodeEach_ascii fun char member => ascii_of_isPlain (plain char member)]
    exact encodeEach_append front back
  write_blanks name blanks back _ _ := encodeEach_append blanks back
  head_blanks name blanks far := head_blanks_encodeEach (by simp) far
  quote_blanks name blanks far := quote_blanks_encodeEach (by simp) far

section
variable [Coders]

theorem encode_of_multiByte (coded : charset.coding = .multiByte) (text : List Char) :
    charset.encode text = Coders.write charset.name text := by rw [encode, coded]

theorem encode_plain [LawfulCoders] {front : List Char}
    (plain : ∀ char ∈ front, isPlain char = true) (back : List Char) :
    charset.encode (front ++ back) = Utf8.encode front ++ charset.encode back := by
  by_cases coded : charset.coding = .multiByte
  · rw [encode_of_multiByte coded, encode_of_multiByte coded, LawfulCoders.write_plain _ plain]
  · rw [encode_eq coded, encode_eq coded, encodeEach_append,
      encodeEach_ascii fun char member => ascii_of_isPlain (plain char member)]

private theorem encode_blanks [LawfulCoders] {blanks back : List Char}
    (far : ∀ char ∈ blanks, isFarBlank char = true)
    (plain : ∀ first ∈ back.head?, isPlain first = true) :
    charset.encode (blanks ++ back) = charset.encode blanks ++ charset.encode back := by
  by_cases coded : charset.coding = .multiByte
  · rw [encode_of_multiByte coded, encode_of_multiByte coded, encode_of_multiByte coded,
      LawfulCoders.write_blanks _ far plain]
  · rw [encode_eq coded, encode_eq coded, encode_eq coded, encodeEach_append]

theorem glance_blanks [LawfulCoders] (known : charset ∈ all) {blanks : List Char}
    (far : ∀ char ∈ blanks, isFarBlank char = true) : '"' ∉ glance (charset.encode blanks) ∧
      (blanks ≠ [] → ∃ sign ∈ (glance (charset.encode blanks)).head?,
      sign ∈ ['\uFFFD', '\u001B', '&']) := by
  by_cases coded : charset.coding = .multiByte
  · rw [encode_of_multiByte coded]
    exact ⟨LawfulCoders.quote_blanks _ far, LawfulCoders.head_blanks _ far⟩
  · rw [encode_eq coded]
    have full (upper : String) (single : charset.coding = .singleByte upper) :=
      length_of_singleByte known single
    exact ⟨quote_blanks_encodeEach full far, head_blanks_encodeEach full far⟩

/-! How labels are shown: a text of plain characters and blanks is seen piece by piece. -/

inductive Shows (charset : Charset) : List Char → List Char → Prop
  | nil : charset.Shows [] []
  | plain {char : Char} (plain : isPlain char = true) {text seen : List Char}
      (rest : charset.Shows text seen) : charset.Shows (char :: text) (char :: seen)
  | blanks {blanks : List Char} (far : ∀ char ∈ blanks, isFarBlank char = true)
    (some_ : blanks ≠ [])
      {text seen : List Char} (rest : charset.Shows text seen) :
      charset.Shows (blanks ++ text) (glance (charset.encode blanks) ++ seen)

/-- The blanks in front are those that were passed since the last plain character. -/
private theorem shows_after [LawfulCoders] {blanks text : List Char}
    (far : ∀ char ∈ blanks, isFarBlank char = true)
    (spelled : ∀ char ∈ text, isPlain char = true ∨ isFarBlank char = true) :
    ∃ seen, charset.Shows (blanks ++ text) seen ∧
      ∀ back, (∀ first ∈ back.head?, isPlain first = true) →
      glance (charset.encode (blanks ++ (text ++ back))) =
        seen ++ glance (charset.encode back) := by
  induction text generalizing blanks with
  | nil =>
    by_cases none_ : blanks = []
    · subst none_
      exact ⟨[], .nil, fun back _ => rfl⟩
    · refine ⟨_, .blanks far none_ .nil, fun back plain => ?_⟩
      rw [List.nil_append, encode_blanks far plain, glance_append, List.append_nil]
  | cons char text ih =>
    obtain ⟨first, later⟩ := List.forall_mem_cons.mp spelled
    rcases first with plain | blank
    · obtain ⟨seen, shows, after⟩ := @ih [] (by simp) later
      have here : ∀ other ∈ [char], isPlain other = true := by simpa using plain
      have whole (back : List Char) (starts : ∀ first ∈ back.head?, isPlain first = true) :
          glance (charset.encode (char :: (text ++ back))) = char :: seen ++
            glance (charset.encode back) := by
        have own := after back starts
        rw [List.nil_append] at own
        rw [← List.singleton_append, encode_plain here, glance_append, own,
          glance_ascii (by simpa using ascii_of_isPlain plain)]
        rfl
      by_cases none_ : blanks = []
      · subst none_
        exact ⟨_, .plain plain shows, whole⟩
      · refine ⟨_, .blanks far none_ (.plain plain shows), fun back starts => ?_⟩
        rw [List.cons_append, encode_blanks far (by simpa using plain),
          glance_append, whole back starts,
          List.append_assoc]
    · have more : ∀ other ∈ blanks ++ [char], isFarBlank other = true :=
        List.forall_mem_append.mpr ⟨far, by simpa using blank⟩
      obtain ⟨seen, shows, after⟩ := ih more later
      rw [List.append_assoc, List.singleton_append] at shows
      refine ⟨seen, shows, fun back starts => ?_⟩
      rw [← after back starts, List.append_assoc, List.singleton_append, List.cons_append]

/-- Plain characters and blanks are seen as such, whatever plain text is behind them. -/
theorem exists_shows [LawfulCoders] {text : List Char}
    (spelled : ∀ char ∈ text, isPlain char = true ∨ isFarBlank char = true) :
    ∃ seen, charset.Shows text seen ∧ ∀ back, (∀ first ∈ back.head?, isPlain first = true) →
      glance (charset.encode (text ++ back)) = seen ++ glance (charset.encode back) :=
  @shows_after charset _ _ [] text (by simp) spelled

namespace Shows
variable {text seen : List Char}

theorem quote_not_mem [LawfulCoders] (known : charset ∈ all) (shows : charset.Shows text seen)
    (unquoted : '"' ∉ text) : '"' ∉ seen := by
  induction shows with
  | nil => exact unquoted
  | plain _ _ ih =>
    rw [List.mem_cons, not_or] at unquoted ⊢
    exact ⟨unquoted.1, ih unquoted.2⟩
  | blanks far _ _ ih =>
    rw [List.mem_append, not_or] at unquoted ⊢
    exact ⟨(glance_blanks known far).1, ih unquoted.2⟩

/-- What is plain is seen. -/
theorem mem_of_isPlain (shows : charset.Shows text seen) {char : Char} (member : char ∈ text)
    (plain : isPlain char = true) : char ∈ seen := by
  induction shows with
  | nil => exact member
  | plain _ _ ih =>
    rcases List.mem_cons.mp member with rfl | member
    · exact List.mem_cons_self ..
    · exact List.mem_cons_of_mem _ (ih member)
  | blanks far _ _ ih =>
    rcases List.mem_append.mp member with blank | member
    · have high : 128 ≤ char.toNat := of_decide_eq_true (Bool.and_eq_true_iff.mp (far char blank)).2
      exact absurd (ascii_of_isPlain plain) (Nat.not_lt.mpr high)
    · exact List.mem_append_right _ (ih member)

/-- Blanks outside ASCII are seen as something that stands in no label. -/
theorem foreign_of_isFarBlank [LawfulCoders] (known : charset ∈ all)
    (shows : charset.Shows text seen) {char : Char} (member : char ∈ text)
    (far : isFarBlank char = true) : ∃ sign ∈ seen, IsForeign sign := by
  induction shows with
  | nil => cases member
  | plain plain _ ih =>
    rcases List.mem_cons.mp member with rfl | member
    · have high : 128 ≤ char.toNat := of_decide_eq_true (Bool.and_eq_true_iff.mp far).2
      exact absurd (ascii_of_isPlain plain) (Nat.not_lt.mpr high)
    · obtain ⟨sign, shown, foreign⟩ := ih member
      exact ⟨sign, List.mem_cons_of_mem _ shown, foreign⟩
  | blanks each some_ _ _ =>
    obtain ⟨sign, first, strange⟩ := (glance_blanks known each).2 some_
    refine ⟨sign, List.mem_append_left _ (List.mem_of_mem_head? first), ?_⟩
    clear first
    revert sign
    unfold IsForeign
    decide

/-- A plain text is seen as it is. -/
theorem eq_of_isPlain (shows : charset.Shows text seen)
    (plain : ∀ char ∈ text, isPlain char = true) :
    seen = text := by
  induction shows with
  | nil => rfl
  | plain _ _ ih => rw [ih (List.forall_mem_cons.mp plain).2]
  | blanks far some_ _ _ =>
    obtain ⟨char, blanks, rfl⟩ := List.exists_cons_of_ne_nil some_
    have here := far char (List.mem_cons_self ..)
    have high : 128 ≤ char.toNat := of_decide_eq_true (Bool.and_eq_true_iff.mp here).2
    exact absurd (ascii_of_isPlain (plain char (by simp))) (Nat.not_lt.mpr high)

end Shows

end
end ClassCoverage.Charset
