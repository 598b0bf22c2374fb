import ClassCoverage.Proofs.PackageGroups
import ClassCoverage.Proofs.TagReader
import ClassCoverage.Report.Xml

/-! Reading a report in XML. What a document is read as tells again what it was written from. -/
namespace ClassCoverage.Report.Xml
open TagReader

theorem escaped_escapeChar (char : Char) : Escaped char (escapeChar char) := by
  unfold escapeChar
  split
  · exact .entity ['a', 'm', 'p'] rfl (by decide)
  · exact .entity ['l', 't'] rfl (by decide)
  · exact .entity ['g', 't'] rfl (by decide)
  · exact .entity ['q', 'u', 'o', 't'] rfl (by decide)
  · exact .entity ['a', 'p', 'o', 's'] rfl (by decide)
  · rename_i notEntity notTag _ notQuote _
    exact .plain notTag notEntity notQuote

theorem toList_escape (text : String) : (escape text).toList = text.toList.flatMap escapeChar := by
  simp [escape, Text.onChars, Text.substitute]

theorem toList_attributesText (attributes : Attributes) :
    (attributesText attributes).toList = attributes.flatMap (attributeChars escapeChar) := by
  refine toList_attributes (fun pair => ?_) attributes
  simp [attributeText, attributeChars, toList_escape]

/-- Only `source` elements hold text, and every element has an end tag. -/
def dialect : Dialect where
  layout name := name ≠ "source"
  isVoid _ := false

def chars (tags : List Tag) : List Char := tags.flatMap fun tag => tag.line.toList

theorem chars_flatMap {α : Type} (items : List α) (tags : α → List Tag) :
    chars (items.flatMap tags) = items.flatMap fun item => chars (tags item) :=
  List.flatMap_assoc

theorem chars_map {α : Type} (items : List α) (tag : α → Tag) :
    chars (items.map tag) = items.flatMap fun item => chars [tag item] := by
  simp [chars, List.flatMap_map]

/-- Tags that are read as these elements, wherever they stand in an element without text. -/
def Shows (tags : List Tag) (elements : List Element) :
    Prop := Reads dialect true (chars tags) "" elements

theorem isBlank_indent (depth : Nat) : (indent depth).toList.all isBlank = true := by
  simp [indent, isBlank]

private theorem line_start (depth : Nat) (name : String) (attributes : Attributes) :
    (Tag.start depth name attributes).line.toList =
      (indent depth).toList ++ (startChars escapeChar name attributes ++ ['\n']) := by
  simp [Tag.line, startChars, toList_attributesText]

private theorem line_whole (depth : Nat) (name : String) (attributes : Attributes) :
    (Tag.whole depth name attributes).line.toList =
      (indent depth).toList ++ (wholeChars escapeChar name attributes ++ ['\n']) := by
  simp [Tag.line, wholeChars, toList_attributesText]

private theorem line_text (depth : Nat) (name content : String) :
    (Tag.text depth name content).line.toList =
      (indent depth).toList ++ (startChars escapeChar name [] ++
        (content.toList.flatMap escapeChar ++ finishChars name) ++ ['\n']) := by
  simp [Tag.line, startChars, finishChars, toList_escape]

private theorem line_finish (depth : Nat) (name : String) :
    (Tag.finish depth name).line.toList = (indent depth).toList ++
      (finishChars name ++ ['\n']) := by
  simp [Tag.line, finishChars]

namespace Shows
variable {depth : Nat} {name : String} {attributes : Attributes}

theorem nil : Shows [] [] := Reads.nil

theorem append {front back : List Tag} {elements elements' : List Element}
    (first : Shows front elements) (later : Shows back elements') :
    Shows (front ++ back) (elements ++ elements') := by
  have both := Reads.append first later
  rw [String.append_empty] at both
  unfold Shows chars
  rw [List.flatMap_append]
  exact both

/-- A line is read as what stands in it. -/
theorem line {tag : Tag} {body : List Char} {element : Element}
    (written : tag.line.toList = (indent depth).toList ++ (body ++ ['\n']))
    (reads : Reads dialect true body "" [element]) : Shows [tag] [element] := by
  unfold Shows chars
  rw [List.flatMap_singleton, written]
  exact (reads.before_blank rfl).behind_blank (isBlank_indent depth)

theorem whole (named : IsTagName name) (keys : ∀ pair ∈ attributes, IsKey pair.1) :
    Shows [.whole depth name attributes] [.tag name attributes] :=
  line (line_whole depth name attributes) (Reads.whole escaped_escapeChar named keys)

theorem text (content : String) :
    Shows [.text depth "source" content] [⟨"source", [], content, []⟩] :=
  line (line_text depth "source" content)
    (Reads.element escaped_escapeChar (by decide) (by simp) rfl
      (Reads.text escaped_escapeChar content))

/-- A start tag, what is inside, and the end tag. -/
theorem element {inner : List Tag} {children : List Element} (shown : Shows inner children)
    (named : IsTagName name) (keys : ∀ pair ∈ attributes, IsKey pair.1) (silent : name ≠ "source") :
    Shows (.start depth name attributes :: inner ++ [.finish depth name])
      [⟨name, attributes, "", children⟩] := by
  have layout : dialect.layout name = true := by simpa [dialect] using silent
  have body : Reads dialect true (['\n'] ++ (chars inner ++ (indent depth).toList)) "" children :=
    (Reads.before_blank shown (isBlank_indent depth)).behind_blank rfl
  have reads : Reads dialect true (startChars escapeChar name attributes ++
      ((['\n'] ++ (chars inner ++ (indent depth).toList)) ++ finishChars name)) ""
        [⟨name, attributes, "", children⟩] :=
    Reads.element escaped_escapeChar named keys rfl (layout ▸ body)
  have ended : (['\n'] : List Char).all isBlank = true := rfl
  have whole := (reads.before_blank ended).behind_blank (isBlank_indent depth)
  unfold Shows chars at *
  rw [List.flatMap_append, List.flatMap_cons, List.flatMap_singleton, line_start, line_finish]
  simp only [List.append_assoc] at whole ⊢
  exact whole

end Shows

end ClassCoverage.Report.Xml
