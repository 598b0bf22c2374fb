import ClassCoverage.Proofs.LawfulCoders
import ClassCoverage.Proofs.XmlReading

/-! The encoding that an XML report declares. A document declares the label it was asked for as it
was spelled, blanks and all, while the label is looked up without them; so what a reader finds in
the declaration is a name that XML allows for some spellings and not for others. -/
namespace ClassCoverage

namespace Charset
open Text (isBlank)

/-- What XML takes for the name of an encoding: a letter, then letters, digits, points, underscores
and hyphens. -/
def IsEncodingName : List Char → Prop
  | [] => False
  | first :: rest => first.isAlpha = true ∧ ∀ char ∈ rest, char.isAlphanum = true ∨
    char ∈ ['.', '_', '-']

private theorem isAlpha_iff {char : Char} (letter : char.isAlphanum = true) :
    char.isAlpha = true ↔ char.isDigit = false :=
  forall_ascii (fun char => char.isAlphanum = true → (char.isAlpha = true ↔ char.isDigit = false))
    (by decide +kernel) (ascii_of_isAlphanum letter) letter

private theorem namesOn_iff {char : Char} (letter : isLabelChar char = true) :
    (char.isAlphanum = true ∨ char ∈ ['.', '_', '-']) ↔ char ≠ ':' :=
  forall_ascii (fun char => isLabelChar char = true →
    ((char.isAlphanum = true ∨ char ∈ ['.', '_', '-']) ↔ char ≠ ':')) (by decide +kernel)
    (ascii_of_isLabelChar letter) letter

private theorem isLabelChar_of_isEncodingName {text : List Char} (name : IsEncodingName text) :
    ∀ char ∈ text, isLabelChar char = true := by
  cases text with
  | nil => simp
  | cons first rest =>
    obtain ⟨starts, later⟩ := name
    refine List.forall_mem_cons.mpr ⟨by simp [isLabelChar, Char.isAlphanum,
      starts], fun char member => ?_⟩
    rcases later char member with letter | sign
    · rw [isLabelChar, letter, Bool.true_or]
    · clear member
      revert char
      decide

/-- Of the labels those are names in XML that start with a letter and hold no colon. -/
theorem IsLabel.isEncodingName_iff {core : List Char} (label : IsLabel core) :
    IsEncodingName core ↔ ':' ∉ core ∧ ∀ first ∈ core.head?, first.isDigit = false := by
  cases core with
  | nil => exact absurd rfl label.ne_nil
  | cons first rest =>
    obtain ⟨starts, later⟩ := label
    have noColon : first ≠ ':' := by
      rintro rfl
      exact absurd starts (by decide)
    have others : (∀ char ∈ rest, char.isAlphanum = true ∨ char ∈ ['.', '_', '-']) ↔ ':' ∉ rest :=
      ⟨fun each member => (namesOn_iff (later _ member)).mp (each _ member) rfl,
        fun absent char member => (namesOn_iff (later char member)).mpr fun same =>
        absent (same ▸ member)⟩
    rw [IsEncodingName, isAlpha_iff starts, others, List.mem_cons, List.head?_cons]
    simp [Ne.symm noColon, and_comm]

variable {charset : Charset}

/-- Letters of labels are plain, and so are the blanks that a lookup passes over. -/
theorem isPlain_of_isLabelChar {char : Char} (letter : isLabelChar char = true) :
    isPlain char = true :=
  forall_ascii (fun char => isLabelChar char = true → isPlain char = true) (by decide +kernel)
    (ascii_of_isLabelChar letter) letter

theorem plain_or_far_of_isBlank {char : Char} (blank : isBlank char = true) :
    isPlain char = true ∨ isFarBlank char = true := by
  by_cases ascii : char.toNat < 128
  · exact .inl (forall_ascii (fun char => isBlank char = true → isPlain char = true)
      (by decide +kernel) ascii blank)
  · right
    rw [isFarBlank, blank, Bool.true_and, decide_eq_true_eq]
    exact Nat.not_lt.mp ascii

/-- Labels that are declared by a name: without blanks or a colon, and without a digit in front. -/
structure Plain (label : String) : Prop where
  bare : ∀ char ∈ label.toList, isBlank char = false
  noColon : ':' ∉ label.toList
  noDigit : ∀ first ∈ label.toList.head?, first.isDigit = false

/-- Labels that are found again as they are declared: their blanks are those that a lookup passes
over. -/
def Findable (label : String) :
    Prop := ∀ char ∈ label.toList, isBlank char = true → isAsciiBlank char = true

instance (label : String) : Decidable (Findable label) := inferInstanceAs (Decidable (∀ _ ∈ _, _))

namespace Spelling
variable {label : String} {front core back : List Char}

theorem plain_or_far (spelling : charset.Spelling label front core back) :
    ∀ char ∈ label.toList, isPlain char = true ∨ isFarBlank char = true := by
  intro char member
  cases blank : isBlank char with
  | true => exact plain_or_far_of_isBlank blank
  | false => exact .inl (isPlain_of_isLabelChar
    (spelling.isLabel.letters char (spelling.mem_core member blank)))

private theorem not_mem_of_strange (spelling : charset.Spelling label front core back) {sign : Char}
    (visible : isBlank sign = false) (strange : isLabelChar sign = false) :
    sign ∉ label.toList := fun member =>
  absurd (spelling.isLabel.letters sign (spelling.mem_core member visible)) (by simp [strange])

section
variable [Coders] {seen : List Char}

/-- A label is declared by a name if it is plain. -/
theorem isEncodingName_iff [LawfulCoders] (spelling : charset.Spelling label front core back)
    (shows : charset.Shows label.toList seen) : IsEncodingName seen ↔ Plain label := by
  by_cases bare : ∀ char ∈ label.toList, isBlank char = false
  · have nothing {text : List Char} (inside : ∀ char ∈ text, char ∈ label.toList)
        (blank : ∀ char ∈ text, isBlank char = true) : text = [] :=
      List.eq_nil_iff_forall_not_mem.mpr fun char member =>
        absurd (blank char member) (by simp [bare char (inside char member)])
    obtain rfl := nothing (fun char member => by simp [spelling.written, member]) spelling.before
    obtain rfl := nothing (fun char member => by simp [spelling.written, member]) spelling.behind
    have same : label.toList = core := by simpa using spelling.written
    have plain : ∀ char ∈ label.toList, isPlain char = true := fun char member =>
      isPlain_of_isLabelChar (spelling.isLabel.letters char (same ▸ member))
    rw [shows.eq_of_isPlain plain, same, spelling.isLabel.isEncodingName_iff, ← same]
    exact ⟨fun ⟨noColon, noDigit⟩ => ⟨bare, noColon, noDigit⟩, fun plain =>
      ⟨plain.noColon, plain.noDigit⟩⟩
  · refine ⟨fun name => absurd ?_ bare, fun plain => absurd plain.bare bare⟩
    intro char member
    by_contra blank
    have letters := isLabelChar_of_isEncodingName name
    rcases plain_or_far_of_isBlank (by simpa using blank) with plain | far
    · have visible := not_isBlank (letters char (shows.mem_of_isPlain member plain))
      exact blank visible
    · obtain ⟨sign, shown, noLetter, -⟩ := shows.foreign_of_isFarBlank spelling.known member far
      exact absurd (letters sign shown) (by simp [noLetter])

/-- What is declared is found again as the set, or it is not found at all. -/
theorem ofLabel?_seen [LawfulCoders] (spelling : charset.Spelling label front core back)
    (shows : charset.Shows label.toList seen) :
    ofLabel? (String.ofList seen) = if Findable label then some charset else none := by
  split
  · rename_i findable
    have plain : ∀ char ∈ label.toList, isPlain char = true := by
      intro char member
      rcases spelling.plain_or_far char member with plain | far
      · exact plain
      · obtain ⟨blank, high⟩ := Bool.and_eq_true_iff.mp far
        have ascii := ascii_of_isAsciiBlank (findable char member blank)
        exact absurd ascii (Nat.not_lt.mpr (of_decide_eq_true high))
    have before : ∀ char ∈ front, isAsciiBlank char = true := fun char member =>
      findable char (by simp [spelling.written, member]) (spelling.before char member)
    have behind : ∀ char ∈ back, isAsciiBlank char = true := fun char member =>
      findable char (by simp [spelling.written, member]) (spelling.behind char member)
    have solid : ∀ char ∈ core, isAsciiBlank char = false := fun char member => by
      cases blank : isAsciiBlank char with
      | false => rfl
      | true => exact absurd (isBlank_of_isAsciiBlank blank) (by simp [spelling.solid char member])
    rw [shows.eq_of_isPlain plain, ofLabel?_eq, String.toList_ofList, spelling.written,
      Text.trim_append before behind solid spelling.isLabel.ne_nil, spelling.found]
  · rename_i lost
    obtain ⟨char, member, blank, strange⟩ :
        ∃ char ∈ label.toList, isBlank char = true ∧ isAsciiBlank char = false := by
      simpa [Findable] using lost
    obtain ⟨sign, shown, noLetter, visible⟩ : ∃ sign ∈ seen, IsForeign sign := by
      rcases plain_or_far_of_isBlank blank with plain | far
      · refine ⟨char, shows.mem_of_isPlain member plain, ?_, strange⟩
        cases letter : isLabelChar char with
        | false => rfl
        | true => exact absurd blank (by simp [not_isBlank letter])
      · exact shows.foreign_of_isFarBlank spelling.known member far
    exact ofLabel?_eq_none shown noLetter visible

end
end Spelling

end Charset

namespace Report
open Charset
open Text (isBlank)

/-- What stands in a declaration before the encoding, and behind it. -/
def declarationOpening : List Char := "<?xml version=\"1.0\" encoding=\"".toList

def declarationClosing : List Char := ['"', '?', '>']

/-- The encoding that a file declares, as it shows to a reader that knows ASCII alone. -/
def declaredEncoding? (content : Bytes) : Option (List Char) := do
  let rest ← Text.stripPrefix? declarationOpening (glance content)
  if declarationClosing.isPrefixOf (rest.dropWhile (· ≠ '"')) then some (rest.takeWhile (· ≠ '"'))
    else none

private theorem declaredEncoding?_eq {content : Bytes} {value behind : List Char}
    (closed : '"' ∉ value)
    (shown : glance content = declarationOpening ++ (value ++ (declarationClosing ++ behind))) :
    declaredEncoding? content = some value := by
  have inside : ∀ char ∈ value, (decide (char ≠ '"')) = true := fun char member =>
    decide_eq_true fun same => closed (same ▸ member)
  have opened (rest : List Char) :
      Text.stripPrefix? declarationOpening (declarationOpening ++ rest) = some rest := by
    simp [Text.stripPrefix?]
  rw [declaredEncoding?, shown, opened]
  simp only [bind, Option.bind]
  rw [List.dropWhile_append_of_pos inside, List.takeWhile_append_of_pos inside]
  simp [declarationClosing]

/-- Nothing in a label has to be escaped. -/
theorem toList_escape_label {charset : Charset} {label : String} {front core back : List Char}
    (spelling : charset.Spelling label front core back) :
    (Xml.escape label).toList = label.toList := by
  have strange : ∀ char ∈ ['&', '<', '>', '"', '\''], isBlank char = false ∧
      isLabelChar char = false := by decide
  have own : ∀ char ∈ label.toList, Xml.escapeChar char = [char] := by
    intro char member
    have plain : char ∉ ['&', '<', '>', '"', '\''] := fun marked => by
      obtain ⟨visible, noLetter⟩ := strange char marked
      exact absurd (spelling.isLabel.letters char
        (spelling.mem_core member visible)) (by simp [noLetter])
    simp only [List.mem_cons, List.not_mem_nil, or_false, not_or] at plain
    unfold Xml.escapeChar
    split <;> simp_all
  rw [Xml.toList_escape, List.flatMap_congr own, List.flatMap_singleton']

/-- The encoding a file declares for a label: a name if the label is plain, and one by which the set
is found if the label can be found again. -/
def Declares (charset : Charset) (label : String) (content : Bytes) : Prop :=
  ∃ value, declaredEncoding? content = some value ∧ (IsEncodingName value ↔ Plain label) ∧
    ofLabel? (String.ofList value) = if Findable label then some charset else none

section
variable [Coders] [LawfulCoders]

private theorem glance_document {charset : Charset} {context : Context} {format : Format}
    (xml : format ∈ [.xml, .summaryXml]) {front core back : List Char}
    (spelling : charset.Spelling context.encoding front core back) :
    ∃ seen behind, charset.Shows context.encoding.toList seen ∧
      glance (document charset context format) =
        declarationOpening ++ (seen ++ (declarationClosing ++ behind)) := by
  obtain ⟨rest, written⟩ : ∃ rest,
      (render format context).toList = (Xml.declaration context).toList ++ rest := by
    simp only [List.mem_cons, List.not_mem_nil, or_false] at xml
    rcases xml with rfl | rfl
    · exact ⟨_, String.toList_append⟩
    · exact ⟨_, String.toList_append⟩
  have declared : (Xml.declaration context).toList =
      declarationOpening ++ (context.encoding.toList ++ (declarationClosing ++ ['\n'])) := by
    have closing : "\"?>\n".toList = declarationClosing ++ ['\n'] := by decide
    unfold Xml.declaration
    rw [String.toList_append, String.toList_append, List.append_assoc,
      toList_escape_label spelling, closing]
    rfl
  have plain : (∀ char ∈ declarationOpening, isPlain char = true) ∧
      ∀ char ∈ declarationClosing, isPlain char = true := by decide
  obtain ⟨seen, shows, after⟩ := exists_shows spelling.plain_or_far
  refine ⟨seen, glance (charset.encode ('\n' :: rest)), shows, ?_⟩
  have closes := after (declarationClosing ++ ('\n' :: rest))
    (by simpa [declarationClosing] using plain.2 '"' (by decide))
  rw [document, written, declared, List.append_assoc, List.append_assoc, List.append_assoc,
    List.singleton_append, encode_plain plain.1, glance_append, closes,
    encode_plain plain.2, glance_append,
    glance_ascii fun char member => ascii_of_isPlain (plain.1 char member),
    glance_ascii fun char member => ascii_of_isPlain (plain.2 char member)]

/-- A document declares the label it was asked for, in whatever spelling. -/
theorem declares_document {charset : Charset} {label : String} (serves : charset.Serves label)
    {context : Context} (given : context.encoding = declaredLabel label) {format : Format}
    (xml : format ∈ [.xml, .summaryXml]) :
    Declares charset (declaredLabel label) (document charset context format) := by
  obtain ⟨front, core, back, spelling⟩ := exists_spelling serves
  rw [← given] at spelling ⊢
  obtain ⟨seen, behind, shows, shown⟩ := glance_document xml spelling
  have unquoted : '"' ∉ context.encoding.toList :=
    spelling.not_mem_of_strange (by decide) (by decide)
  exact ⟨seen, declaredEncoding?_eq (shows.quote_not_mem spelling.known unquoted) shown,
    spelling.isEncodingName_iff shows, spelling.ofLabel?_seen shows⟩

end

/-- Every document in XML declares the label of its report as it was spelled, or the default in the
place of a blank one. So what it declares is a name that XML allows exactly if the label has no
blanks, no colon and no digit in front, and it denotes the encoding of the document exactly if the
label has no blanks but those that a lookup passes over. The files of a run that goes through are
such documents. -/
theorem declared_encoding_of_label [Coders] [LawfulCoders] {label : String} {charset : Charset}
    (accepted : Charset.ofReportLabel label = .ok charset) :
    (∀ context : Context, context.encoding = declaredLabel label →
    ∀ format ∈ [Format.xml, Format.summaryXml],
      Declares charset (declaredLabel label) (document charset context format)) ∧
    ∀ (options : Options) (now : Moment) (disk : Disk), options.encoding = label →
      disk.Rooted → options.Understood →
      options.selected ≠ [] → ∀ (bytes : Bytes) (store : Store),
      disk.read options.metadataFile = .ok bytes →
        Metadata.decode bytes = .ok store → options.Writable disk →
          ∃ disk', (run options now).run.run disk =
              (.ok (options.selected.map (·.fileIn options.outputDirectory)), disk') ∧
            ∀ format ∈ options.selected, format ∈ [Format.xml, Format.summaryXml] →
              let content := document charset (options.context store now disk) format
              disk'.read (format.fileIn options.outputDirectory) = .ok content ∧
                Declares charset (declaredLabel label) content := by
  have serves := Charset.ofReportLabel_eq_ok_iff.mp accepted
  constructor
  · intro context given format xml
    exact declares_document serves given xml
  · rintro options now disk rfl rooted understood asked bytes store read decoded writable
    obtain ⟨made, disk', ran, delivered⟩ :=
      run_of_loaded rooted understood serves asked read decoded writable
    exact ⟨disk', ran, fun format member xml =>
      ⟨delivered.reads format member, declares_document serves rfl xml⟩⟩

/-! A summary of one class, in an encoding that is spelled in different ways. -/

attribute [local instance] asciiCoders asciiCoders_lawful

private def trialStore : Store :=
  ⟨[{ name := "A", lines := [{ line := 1, hits := 2 }] }], List.pairwise_singleton _ _⟩

private def trial (label : String) : Options where
  metadataFile := ⟨"coverage.dat"⟩
  outputDirectory := ⟨"out"⟩
  formats := ["summaryXml"]
  encoding := label

private def trialDisk :
    Disk := ⟨.file "coverage.dat" (Metadata.encode trialStore) .empty, ⟨nofun, trivial⟩, []⟩

private theorem rooted_trialDisk : trialDisk.Rooted := ⟨rfl, by simp [trialDisk]⟩

private theorem selected_trial (label : String) : (trial label).selected = [.summaryXml] := by
  have asked : Format.selected ["summaryXml"] .all = [.summaryXml] := by decide +kernel
  exact asked

private theorem read_trial (label : String) :
    trialDisk.read (trial label).metadataFile = .ok (Metadata.encode trialStore) := by
  have lands : trialDisk.Lands ⟨"coverage.dat"⟩ ["coverage.dat"] :=
    ⟨[], "coverage.dat", [], by decide, by decide, by decide +kernel, rfl⟩
  exact lands.read rfl

private theorem decode_trial : Metadata.decode (Metadata.encode trialStore) = .ok trialStore :=
  Metadata.decode_of_measured
    ⟨by decide, List.forall_mem_singleton.mpr ⟨by decide, by decide, by decide, by decide⟩⟩

private theorem writable_trial (label : String) : (trial label).Writable trialDisk := by
  have writes : (trialDisk.makeDirectories ⟨"out"⟩ >>=
      (·.write (Format.summaryXml.fileIn ⟨"out"⟩) [])).isOk = true := by
    decide +kernel
  cases makes : trialDisk.makeDirectories ⟨"out"⟩ with
  | error fault =>
    rw [makes] at writes
    cases writes
  | ok made =>
    refine ⟨made, makes, fun format member => ⟨[], ?_⟩⟩
    rw [selected_trial] at member
    obtain rfl := List.mem_singleton.mp member
    rw [makes] at writes
    cases done : made.write (Format.summaryXml.fileIn ⟨"out"⟩) [] with
    | ok disk' => exact ⟨disk', done⟩
    | error fault =>
      simp only [bind, Except.bind, done] at writes
      cases writes

private theorem understood_trial {label : String} {charset : Charset}
    (serves : charset.Serves label) :
    (trial label).Understood where
  formats name member := ⟨.summaryXml, by
    obtain rfl := List.mem_singleton.mp member
    decide +kernel⟩
  encoding := ⟨charset, serves⟩

private theorem paths_trial (label : String) :
    (trial label).selected.map (·.fileIn (trial label).outputDirectory) =
      [⟨"out/coverage-summary.xml"⟩] := by
  have path : Format.summaryXml.fileIn ⟨"out"⟩ = ⟨"out/coverage-summary.xml"⟩ := by decide +kernel
  rw [selected_trial, List.map_singleton, ← path]
  rfl

/-- Capitals do no harm: what is declared is a name, and the set is found by it. -/
theorem declared_encoding_of_latin :
    ∃ charset disk' content value, Charset.ofReportLabel "Latin1" = .ok charset ∧
      (run (trial "Latin1") 0).run.run trialDisk = (.ok [⟨"out/coverage-summary.xml"⟩], disk') ∧
      disk'.read ⟨"out/coverage-summary.xml"⟩ = .ok content ∧
      declaredEncoding? content = some value ∧
      IsEncodingName value ∧ ofLabel? (String.ofList value) = some charset := by
  have labelled : Charset.ofLabel? "Latin1" = some Charset.all[21] :=
    List.find?_eq_some_iff_getElem.mpr ⟨by decide +kernel, 21, by decide, rfl, by decide +kernel⟩
  have serves : Charset.all[21].Serves "Latin1" := ⟨labelled, rfl⟩
  have accepted := Charset.ofReportLabel_eq_ok_iff.mpr serves
  obtain ⟨disk', ran, declares⟩ :=
    (declared_encoding_of_label accepted).2 (trial "Latin1") 0 trialDisk rfl
    rooted_trialDisk (understood_trial serves) (by simp [selected_trial]) _ _
      (read_trial "Latin1") decode_trial
    (writable_trial "Latin1")
  rw [paths_trial] at ran
  obtain ⟨read, value, declared, name, denotes⟩ :=
    declares .summaryXml (by simp [selected_trial]) (by decide)
  have path : Format.summaryXml.fileIn (trial "Latin1").outputDirectory =
      ⟨"out/coverage-summary.xml"⟩ := by
    decide +kernel
  have label : declaredLabel "Latin1" = "Latin1" := by decide
  rw [path] at read
  rw [label] at name denotes
  exact ⟨_, disk', _, value, accepted, ran, read, declared,
    name.mpr ⟨by decide, by decide, by simp⟩,
    denotes.trans (if_pos (by decide))⟩

private theorem declares_trial {label : String} {charset : Charset}
    (serves : charset.Serves label) :
    ∃ disk' content, (run (trial label) 0).run.run trialDisk =
      (.ok [⟨"out/coverage-summary.xml"⟩], disk') ∧
      disk'.read ⟨"out/coverage-summary.xml"⟩ = .ok content ∧
      Declares charset (declaredLabel label) content := by
  obtain ⟨made, disk', ran, delivered⟩ :=
    @run_of_loaded _ (trial label) 0 trialDisk rooted_trialDisk
    (understood_trial serves) charset serves (by simp [selected_trial]) _ _
      (read_trial label) decode_trial
    (writable_trial label)
  have path : Format.summaryXml.fileIn ⟨"out"⟩ = ⟨"out/coverage-summary.xml"⟩ := by decide +kernel
  have read := delivered.reads .summaryXml (by simp [selected_trial])
  rw [paths_trial] at ran
  refine ⟨disk', _, ran, (congrArg disk'.read path).symm.trans read, ?_⟩
  exact declares_document serves rfl (by decide)

/-- Blanks that were passed over when the label was looked up stand in the declaration, where XML
has none; and behind another sort of blank the label is not found again. -/
theorem declared_encoding_with_blanks :
    (∃ disk' content value, (run (trial " utf-8 ") 0).run.run trialDisk =
        (.ok [⟨"out/coverage-summary.xml"⟩], disk') ∧
        disk'.read ⟨"out/coverage-summary.xml"⟩ = .ok content ∧
      declaredEncoding? content = some value ∧ ¬ IsEncodingName value) ∧
    ∃ disk' content value, (run (trial "utf-8\u00A0") 0).run.run trialDisk =
        (.ok [⟨"out/coverage-summary.xml"⟩], disk') ∧
        disk'.read ⟨"out/coverage-summary.xml"⟩ = .ok content ∧
      declaredEncoding? content = some value ∧ ¬ IsEncodingName value ∧
      ofLabel? (String.ofList value) = none := by
  have serves : Charset.all[0].Serves " utf-8 " := ⟨by decide +kernel, by decide⟩
  have serves' : Charset.all[0].Serves "utf-8\u00A0" := ⟨by decide +kernel, by decide⟩
  have strange : ¬ Plain (declaredLabel " utf-8 ") :=
    fun plain => absurd (plain.bare ' ' (by decide)) (by decide)
  have strange' : ¬ Plain (declaredLabel "utf-8\u00A0") := fun plain =>
    absurd (plain.bare '\u00A0' (by decide)) (by decide)
  obtain ⟨disk', content, ran, read, value, declared, name, -⟩ := declares_trial serves
  obtain ⟨disk'', content', ran', read', value', declared', name', denotes⟩ :=
    declares_trial serves'
  exact ⟨⟨disk', content, value, ran, read, declared, fun valid => strange (name.mp valid)⟩,
    disk'', content', value', ran', read', declared', fun valid => strange' (name'.mp valid),
    denotes.trans (if_neg (by decide))⟩

end Report
end ClassCoverage
