import ClassCoverage.Proofs.CharsetReading
import ClassCoverage.Proofs.HtmlReading
import ClassCoverage.Proofs.XmlReading

/-! Names in encoded reports. Two hands write a name: the document puts entities for the characters
that have a meaning in it, and the character set puts references for those it lacks. One pass undoes
both. -/
namespace ClassCoverage.Report
open TagReader

/-- The character that is meant between an ampersand and a semicolon, by its name or by its
number. -/
def referred? : List Char → Option Char
  | '#' :: digits => do
    let code ← readNumber? digits
    if code.isValidChar then some (Char.ofNat code) else none
  | name => character? name

/-- A name that is not complete yet is kept as far as it was read. -/
def undoFrom : Option (List Char) → List Char → Option (List Char)
  | none, [] => some []
  | some _, [] => none
  | none, char :: rest =>
    if char = '&' then undoFrom (some []) rest else (undoFrom none rest).map (char :: ·)
  | some name, char :: rest =>
    if char = ';' then do
      let meant ← referred? name
      return meant :: (← undoFrom none rest)
    else undoFrom (some (name ++ [char])) rest

/-- Undoes the entities and the decimal references of a text in one pass. -/
def undo (text : List Char) : Option (List Char) := undoFrom none text

/-- How a character may stand in an encoded document: as itself, or as a name without markup in
it. -/
inductive Legible (char : Char) : List Char → Prop
  | plain (notTag : char ≠ '<') (notEntity : char ≠ '&') (notQuote : char ≠
    '"') : Legible char [char]
  | referred (name : List Char) (known : referred? name = some char)
    (whole : ';' ∉ name) (noTag : '<' ∉ name)
      (noQuote : '"' ∉ name) : Legible char ('&' :: (name ++ [';']))

namespace Legible
variable {char : Char} {chars : List Char}

private theorem undoFrom_name {read name : List Char} (whole : ';' ∉ name) (rest : List Char) :
    undoFrom (some read) (name ++ rest) = undoFrom (some (read ++ name)) rest := by
  induction name generalizing read with
  | nil => rw [List.nil_append, List.append_nil]
  | cons char name ih =>
    have goesOn : char ≠ ';' := fun same => whole (same ▸ List.mem_cons_self ..)
    have later := @ih (read ++ [char]) fun member => whole (List.mem_cons_of_mem char member)
    rw [List.append_assoc, List.singleton_append] at later
    rw [List.cons_append, undoFrom, if_neg goesOn, later]

/-- One character is undone, whatever follows. -/
theorem undoFrom_append (legible : Legible char chars) (rest : List Char) :
    undoFrom none (chars ++ rest) = (undoFrom none rest).map (char :: ·) := by
  cases legible with
  | plain notTag notEntity => rw [List.singleton_append, undoFrom, if_neg notEntity]
  | referred name known whole =>
    rw [List.cons_append, undoFrom, if_pos rfl, List.append_assoc,
      undoFrom_name whole, List.nil_append,
      List.singleton_append, undoFrom, if_pos rfl, known]
    cases undoFrom none rest <;> rfl

private theorem clean (legible : Legible char chars) : '<' ∉ chars ∧ '"' ∉ chars := by
  cases legible with
  | plain notTag _ notQuote => simp [Ne.symm notTag, Ne.symm notQuote]
  | referred name _ _ noTag noQuote => simp [noTag, noQuote]

variable {image : Char → List Char}

private theorem undo_flatMap (legible : ∀ char, Legible char (image char)) (text : List Char) :
    undo (text.flatMap image) = some text := by
  unfold undo
  induction text with
  | nil => rfl
  | cons char text ih => rw [List.flatMap_cons, (legible char).undoFrom_append, ih, Option.map_some]

private theorem clean_flatMap (legible : ∀ char, Legible char (image char)) (text : List Char) :
    '<' ∉ text.flatMap image ∧ '"' ∉ text.flatMap image := by
  simp only [List.mem_flatMap, not_exists, not_and]
  exact ⟨fun char _ => (legible char).clean.1, fun char _ => (legible char).clean.2⟩

private theorem of_reference (char : Char) : Legible char (Charset.reference char) := by
  have known : referred? ('#' :: (toString char.toNat).toList) = some char := by
    have digits : readNumber? (toString char.toNat).toList = some char.toNat :=
      readNumber?_toString char.toNat
    have valid : char.toNat.isValidChar := char.valid
    simp only [referred?, digits, Option.bind_eq_bind, Option.bind_some,
      if_pos valid, Char.ofNat_toNat]
  have apart {other : Char} (sign : other.isDigit = false) (other' : other ≠ '#') :
      other ∉ '#' :: (toString char.toNat).toList := by
    simp only [List.mem_cons, not_or]
    exact ⟨other', not_mem_toString sign⟩
  exact .referred _ known (apart rfl (by decide)) (apart rfl (by decide)) (apart rfl (by decide))

/-- Entities are named in small letters. -/
theorem clean_of_character? {name : List Char} (known : character? name = some char) :
    (∀ other ∈ name, other.toNat < 128) ∧ '<' ∉ name ∧ '"' ∉ name := by
  unfold character? at known
  split at known <;> first | decide | cases known

private theorem referred?_of_character? {name : List Char} (known : character? name = some char) :
    referred? name = some char := by
  unfold referred?
  split
  · cases known
  · exact known

/-- The character set leaves entities as they are, since they are written in ASCII. -/
theorem of_escaped (charset : Charset) (escaped : Escaped char chars) :
    Legible char (chars.flatMap charset.shown) := by
  cases escaped with
  | plain notTag notEntity notQuote =>
    rw [List.flatMap_singleton]
    unfold Charset.shown
    split
    · exact .plain notTag notEntity notQuote
    · exact of_reference char
  | entity name known whole =>
    obtain ⟨letters, noTag, noQuote⟩ := clean_of_character? known
    have ascii : ∀ other ∈ '&' :: (name ++ [';']), other.toNat < 128 := by
      simp only [List.forall_mem_cons, List.forall_mem_append]
      exact ⟨by decide, letters, by decide⟩
    rw [Charset.flatMap_shown ascii]
    exact .referred name (referred?_of_character? known) whole noTag noQuote

end Legible

section
variable [Charset.Coders]

/-- What a reader of the character set sees where an escaped text was written: the text again once
it is undone, and no markup, whatever stands before and behind it. -/
structure Seen (charset : Charset) (escaped : List Char) (text : String) (seen : List Char) :
    Prop where
  undone : undo seen = some text.toList
  noTag : '<' ∉ seen
  noQuote : '"' ∉ seen
  within : ∀ front back, ∃ before behind,
    charset.decode? (charset.encode front) = some before ∧
    charset.decode? (charset.encode back) = some behind ∧
      charset.decode? (charset.encode (front ++ escaped ++ back)) = some (before ++ seen ++ behind)

private theorem seen_of_escaped {charset : Charset} (known : charset ∈ Charset.all)
    (coded : charset.coding = .utf8 ∨ ∃ upper, charset.coding = .singleByte upper)
    {image : Char → List Char} (escaped : ∀ char, Escaped char (image char)) (text : String) :
    Seen charset (text.toList.flatMap image) text
      ((text.toList.flatMap image).flatMap charset.shown) := by
  have legible (char : Char) := Legible.of_escaped charset (escaped char)
  have clean := Legible.clean_flatMap legible text.toList
  have undone := Legible.undo_flatMap legible text.toList
  rw [← List.flatMap_assoc] at clean undone
  have reads := Charset.decode?_encode known coded
  refine ⟨undone, clean.1, clean.2, fun front back => ⟨_, _, reads front, reads back, ?_⟩⟩
  rw [reads, List.flatMap_append, List.flatMap_append]

/-- What the documents write for a text survives the encoding: it can be told from what is read, and
other texts are written as other bytes. -/
theorem names_survive_encoding {label : String} {charset : Charset}
    (accepted : Charset.ofReportLabel label = .ok charset)
    (coded : charset.coding = .utf8 ∨ ∃ upper, charset.coding = .singleByte upper) :
    ∀ escape ∈ [Xml.escape, Html.escape], ∀ text : String,
      (∃ seen, charset.decode? (charset.encode (escape text).toList) = some seen ∧
        Seen charset (escape text).toList text seen) ∧
      ∀ other : String, charset.encode (escape other).toList =
        charset.encode (escape text).toList → other = text := by
  have known := Charset.mem_all_of_ofReportLabel accepted
  intro escape member
  obtain ⟨image, escaped, written⟩ : ∃ image : Char → List Char,
    (∀ char, Escaped char (image char)) ∧
      ∀ text, (escape text).toList = text.toList.flatMap image := by
    simp only [List.mem_cons, List.not_mem_nil, or_false] at member
    rcases member with rfl | rfl
    · exact ⟨_, Xml.escaped_escapeChar, Xml.toList_escape⟩
    · exact ⟨_, Html.escaped_escapeChar, Html.toList_escape⟩
  have reads (text : String) := Charset.decode?_encode known coded (escape text).toList
  have sees (text : String) :
      Seen charset (escape text).toList text ((escape text).toList.flatMap charset.shown) := by
    rw [written]
    exact seen_of_escaped known coded escaped text
  intro text
  refine ⟨⟨_, reads text, sees text⟩, fun other same => ?_⟩
  have again := reads other
  rw [same, reads text] at again
  have undone := (sees other).undone
  rw [← Option.some.inj again, (sees text).undone] at undone
  exact String.toList_inj.mp (Option.some.inj undone).symm

end

attribute [local instance] Charset.asciiCoders in
/-- Latin-1 has no "Ż" and writes a reference for it, which is not what it writes for the text
"&#379;". -/
theorem names_survive_latin :
    ∃ charset, Charset.ofReportLabel "ISO-8859-1" = .ok charset ∧
      (∃ seen, charset.decode? (charset.encode (Html.escape "Ż&#379;").toList) = some seen ∧
        undo seen = some "Ż&#379;".toList) ∧
      charset.encode (Xml.escape "&#379;").toList ≠ charset.encode (Xml.escape "Ż").toList := by
  have labelled : Charset.ofLabel? "ISO-8859-1" = some Charset.all[21] :=
    List.find?_eq_some_iff_getElem.mpr ⟨by decide +kernel, 21, by decide, rfl, by decide +kernel⟩
  have serves : Charset.all[21].Serves "ISO-8859-1" := ⟨labelled, rfl⟩
  have accepted := Charset.ofReportLabel_eq_ok_iff.mpr serves
  have survive := names_survive_encoding accepted (.inr ⟨_, rfl⟩)
  obtain ⟨⟨seen, reads, sees⟩, -⟩ := survive Html.escape (by simp) "Ż&#379;"
  refine ⟨_, accepted, ⟨seen, reads, sees.undone⟩, fun same => ?_⟩
  exact absurd ((survive Xml.escape (by simp) "Ż").2 "&#379;" same) (by decide)

end ClassCoverage.Report
