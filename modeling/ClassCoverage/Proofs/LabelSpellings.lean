import ClassCoverage.Proofs.ReportRuns
import ClassCoverage.Proofs.TagReader
import Mathlib.Data.List.TakeWhile

/-! How labels of character sets are spelled. A label that is accepted is one from the list, in any
letter case and with blanks around it; of the blanks there are more than those that a lookup by
itself passes over. -/
namespace ClassCoverage

namespace Text
variable {blank : Char → Bool}

/-- A text is what trimming leaves, between blanks. -/
theorem exists_trim (blank : Char → Bool) (text : List Char) :
    ∃ front back, text = front ++ trim blank text ++ back ∧ (∀ char ∈ front, blank char = true) ∧
      ∀ char ∈ back, blank char = true := by
  refine ⟨text.takeWhile blank,
    ((text.dropWhile blank).reverse.takeWhile blank).reverse, ?_, ?_, ?_⟩
  · rw [trim, List.append_assoc, ← List.reverse_append, List.takeWhile_append_dropWhile,
      List.reverse_reverse,
      List.takeWhile_append_dropWhile]
  · exact fun char member => List.mem_takeWhile_imp member
  · exact fun char member => List.mem_takeWhile_imp (List.mem_reverse.mp member)

private theorem dropWhile_append {front core : List Char}
    (before : ∀ char ∈ front, blank char = true) (solid : ∀ char ∈ core, blank char = false)
    (some_ : core ≠ []) (rest : List Char) :
    (front ++ core ++ rest).dropWhile blank = core ++ rest := by
  rw [List.append_assoc, List.dropWhile_append_of_pos before]
  cases core with
  | nil => exact absurd rfl some_
  | cons char core =>
    have stops : ¬ blank char = true := by simp [solid char (List.mem_cons_self ..)]
    rw [List.cons_append, List.dropWhile_cons_of_neg stops]

/-- Blanks around a text without blanks are what trimming takes away. -/
theorem trim_append {front core back : List Char} (before : ∀ char ∈ front, blank char = true)
    (behind : ∀ char ∈ back, blank char = true) (solid : ∀ char ∈ core, blank char = false)
    (some_ : core ≠ []) :
    trim blank (front ++ core ++ back) = core := by
  have solid' : ∀ char ∈ core.reverse, blank char = false := fun char member =>
    solid char (List.mem_reverse.mp member)
  have behind' : ∀ char ∈ back.reverse, blank char = true := fun char member =>
    behind char (List.mem_reverse.mp member)
  have later := dropWhile_append behind' solid' (by simpa using some_) []
  rw [List.append_nil, List.append_nil] at later
  rw [trim, dropWhile_append before solid some_, List.reverse_append, later, List.reverse_reverse]

end Text

namespace Charset
open Text (isBlank lower)

/-- The characters of labels, in either case. -/
def isLabelChar (char : Char) : Bool := char.isAlphanum || char ∈ ['-', '_', '.', ':']

/-- How labels are spelled: they start with a letter or a digit. -/
def IsLabel : List Char → Prop
  | [] => False
  | first :: rest => first.isAlphanum = true ∧ ∀ char ∈ rest, isLabelChar char = true

instance : DecidablePred IsLabel
  | [] => inferInstanceAs (Decidable False)
  | _ :: _ => inferInstanceAs (Decidable (_ ∧ _))

private theorem isLabel_cons {chars : List Char} {labels : List String} (first : IsLabel chars)
    (rest : ∀ label ∈ labels, IsLabel label.toList) :
    ∀ label ∈ String.ofList chars :: labels, IsLabel label.toList := by
  refine List.forall_mem_cons.mpr ⟨?_, rest⟩
  rwa [String.toList_ofList]

private theorem isLabel_of_mem_labels :
    ∀ charset ∈ all, ∀ label ∈ charset.labels, IsLabel label.toList := by
  unfold all
  repeat' first
    | exact List.forall_mem_nil _
    | refine isLabel_cons (by decide) ?_
    | refine List.forall_mem_cons.mpr ⟨?_, ?_⟩

/-- A property of all ASCII characters, checked one by one. -/
theorem forall_ascii (property : Char → Prop) (each : ∀ code < 128, property (Char.ofNat code))
    {char : Char} (ascii : char.toNat < 128) : property char := by
  have own := each char.toNat ascii
  rwa [Char.ofNat_toNat] at own

theorem ascii_of_isAlphanum {char : Char} (letter : char.isAlphanum = true) : char.toNat < 128 := by
  have bound {last : UInt32} (small : last.toNat < 128)
      (below : char.val ≤ last) : char.toNat < 128 :=
    Nat.lt_of_le_of_lt (UInt32.le_iff_toNat_le.mp below) small
  rcases Bool.or_eq_true_iff.mp letter with alpha | digit
  · rcases Bool.or_eq_true_iff.mp alpha with upper | lower
    · exact bound (by decide) (of_decide_eq_true upper).2
    · exact bound (by decide) (of_decide_eq_true (Bool.and_eq_true_iff.mp lower).2)
  · exact bound (by decide) (of_decide_eq_true (Bool.and_eq_true_iff.mp digit).2)

theorem ascii_of_isLabelChar {char : Char} (letter : isLabelChar char = true) :
    char.toNat < 128 := by
  rw [isLabelChar, Bool.or_eq_true, decide_eq_true_eq] at letter
  rcases letter with letter | sign
  · exact ascii_of_isAlphanum letter
  · revert char
    decide

theorem not_isBlank {char : Char} (letter : isLabelChar char = true) : isBlank char = false :=
  forall_ascii (fun char => isLabelChar char = true → isBlank char = false) (by decide +kernel)
    (ascii_of_isLabelChar letter) letter

/-- Capitals are letters too. -/
theorem isAlphanum_of_isUpper {char : Char} (capital : char.isUpper = true) :
    char.isAlphanum = true ∧ char.toLower.isAlphanum = true := by
  have letter : char.isAlphanum = true :=
    show ((char.isUpper || char.isLower) || char.isDigit) = true by
      rw [capital, Bool.true_or, Bool.true_or]
  refine ⟨letter, forall_ascii (fun char => char.isUpper = true → char.toLower.isAlphanum = true)
    (by decide +kernel) (ascii_of_isAlphanum letter) capital⟩

private theorem toLower_of_not_isUpper {char : Char} (small : ¬ char.isUpper = true) :
    char.toLower = char := by
  unfold Char.toLower
  unfold Char.isUpper at small
  rw [dif_neg]
  simpa using small

private theorem isAlphanum_toLower (char : Char) : char.toLower.isAlphanum = char.isAlphanum := by
  by_cases capital : char.isUpper = true
  · rw [(isAlphanum_of_isUpper capital).1, (isAlphanum_of_isUpper capital).2]
  · rw [toLower_of_not_isUpper capital]

private theorem isLabelChar_toLower (char : Char) :
    isLabelChar char.toLower = isLabelChar char := by
  by_cases capital : char.isUpper = true
  · rw [isLabelChar, isLabelChar, (isAlphanum_of_isUpper capital).1,
      (isAlphanum_of_isUpper capital).2, Bool.true_or,
      Bool.true_or]
  · rw [toLower_of_not_isUpper capital]

private theorem isLabel_map_toLower (text : List Char) :
    IsLabel (text.map Char.toLower) ↔ IsLabel text := by
  cases text with
  | nil => rfl
  | cons first rest =>
    simp only [List.map_cons, IsLabel, isAlphanum_toLower, List.forall_mem_map, isLabelChar_toLower]

/-- The set with a label that is spelled without blanks. -/
def named? (core : List Char) :
    Option Charset := all.find? fun charset => lower (String.ofList core) ∈ charset.labels

theorem ofLabel?_eq (label : String) :
    ofLabel? label = named? (Text.trim isAsciiBlank label.toList) := rfl

theorem isLabel_of_named {core : List Char} {charset : Charset}
    (found : named? core = some charset) :
    IsLabel core := by
  unfold named? at found
  have known := List.mem_of_find?_eq_some found
  have member : lower (String.ofList core) ∈ charset.labels := by simpa using List.find?_some found
  have spelled := isLabel_of_mem_labels charset known _ member
  rwa [Text.toList_lower, String.toList_ofList, isLabel_map_toLower] at spelled

theorem IsLabel.ne_nil {core : List Char} (label : IsLabel core) : core ≠ [] := by
  rintro rfl
  exact label

theorem IsLabel.letters {core : List Char} (label : IsLabel core) :
    ∀ char ∈ core, isLabelChar char = true := by
  cases core with
  | nil => simp
  | cons first rest =>
    obtain ⟨starts, later⟩ := label
    refine List.forall_mem_cons.mpr ⟨?_, later⟩
    rw [isLabelChar, starts, Bool.true_or]

/-- No set has a label with a character in it that is neither a letter nor a blank. -/
theorem ofLabel?_eq_none {text : List Char} {sign : Char} (member : sign ∈ text)
    (noLetter : isLabelChar sign = false) (visible : isAsciiBlank sign = false) :
    ofLabel? (String.ofList text) = none := by
  rw [ofLabel?_eq, String.toList_ofList]
  cases found : named? (Text.trim isAsciiBlank text) with
  | none => rfl
  | some charset =>
    obtain ⟨front, back, written, before, behind⟩ := Text.exists_trim isAsciiBlank text
    rw [written, List.mem_append, List.mem_append] at member
    rcases member with (blank | letter) | blank
    · exact absurd (before sign blank) (by simp [visible])
    · exact absurd ((isLabel_of_named found).letters sign letter) (by simp [noLetter])
    · exact absurd (behind sign blank) (by simp [visible])

/-- A label as it was given: blanks, the letters that are looked up, and blanks. -/
structure Spelling (charset : Charset) (label : String) (front core back : List Char) : Prop where
  written : label.toList = front ++ core ++ back
  before : ∀ char ∈ front, isBlank char = true
  behind : ∀ char ∈ back, isBlank char = true
  found : named? core = some charset

theorem ascii_of_isAsciiBlank {char : Char} (blank : isAsciiBlank char = true) :
    char.toNat < 128 := by
  simp only [isAsciiBlank, Bool.or_eq_true, beq_iff_eq] at blank
  rcases blank with (((rfl | rfl) | rfl) | rfl) | code
  · decide
  · decide
  · decide
  · decide
  · rw [code]
    decide

theorem isBlank_of_isAsciiBlank {char : Char} (blank : isAsciiBlank char = true) :
    isBlank char = true :=
  forall_ascii (fun char => isAsciiBlank char = true → isBlank char = true) (by decide +kernel)
    (ascii_of_isAsciiBlank blank) blank

private theorem exists_spelling_of_found {label : String} {charset : Charset}
    (found : ofLabel? (Text.onChars (Text.trim isBlank) label) = some charset) :
    ∃ front core back, charset.Spelling label front core back := by
  rw [ofLabel?_eq, Text.onChars, String.toList_ofList] at found
  obtain ⟨front, back, written, before, behind⟩ := Text.exists_trim isBlank label.toList
  obtain ⟨front', back', core, before', behind'⟩ :=
    Text.exists_trim isAsciiBlank (Text.trim isBlank label.toList)
  refine ⟨front ++ front', _, back' ++ back, ?_, ?_, ?_, found⟩
  · have whole := written.trans (congrArg (fun middle => front ++ middle ++ back) core)
    simp only [List.append_assoc] at whole ⊢
    exact whole
  · exact List.forall_mem_append.mpr ⟨before, fun char member =>
      isBlank_of_isAsciiBlank (before' char member)⟩
  · exact List.forall_mem_append.mpr ⟨fun char member =>
      isBlank_of_isAsciiBlank (behind' char member), behind⟩

/-- Looking up what is declared finds the same set, and it is spelled with the letters of one of its
labels. -/
theorem exists_spelling {label : String} {charset : Charset} (serves : charset.Serves label) :
    ∃ front core back, charset.Spelling (Report.declaredLabel label) front core back := by
  apply exists_spelling_of_found
  have found := serves.1
  unfold Report.declaredLabel
  rw [Text.onChars] at found
  cases trimmed : Text.trim isBlank label.toList with
  | nil =>
    rw [trimmed] at found
    have usual : Text.onChars (Text.trim isBlank) defaultLabel = defaultLabel := by decide
    rw [List.isEmpty_nil, if_pos rfl, usual]
    exact found
  | cons first rest =>
    have full : (String.ofList (first :: rest)).isEmpty = false := by simp
    rw [trimmed, full] at found
    rw [List.isEmpty_cons, if_neg Bool.false_ne_true, Text.onChars, trimmed]
    exact found

namespace Spelling
variable {charset : Charset} {label : String} {front core back : List Char}

theorem known (spelling : charset.Spelling label front core back) : charset ∈ all := by
  have found := spelling.found
  unfold named? at found
  exact List.mem_of_find?_eq_some found

theorem isLabel (spelling : charset.Spelling label front core back) :
    IsLabel core := isLabel_of_named spelling.found

theorem solid (spelling : charset.Spelling label front core back) :
    ∀ char ∈ core, isBlank char = false :=
  fun char member => not_isBlank (spelling.isLabel.letters char member)

/-- Blanks stand around the letters only. -/
theorem mem_core (spelling : charset.Spelling label front core back) {char : Char}
    (member : char ∈ label.toList) (visible : isBlank char = false) : char ∈ core := by
  rw [spelling.written, List.mem_append, List.mem_append] at member
  rcases member with (blank | inside) | blank
  · exact absurd (spelling.before char blank) (by simp [visible])
  · exact inside
  · exact absurd (spelling.behind char blank) (by simp [visible])

end Spelling

end Charset
end ClassCoverage
