import ClassCoverage.Proofs.PackageGroups
import ClassCoverage.Proofs.ShownCounts
import ClassCoverage.Proofs.TagReader
import ClassCoverage.Report.Html

/-! Reading a report as an HTML page: the totals above the tables, and the counts in the rows of
every table. -/
namespace ClassCoverage.Report.Html
open TagReader

theorem escaped_escapeChar (char : Char) : Escaped char (escapeChar char) := by
  unfold escapeChar
  split
  · exact .entity ['a', 'm', 'p'] rfl (by decide)
  · exact .entity ['l', 't'] rfl (by decide)
  · exact .entity ['g', 't'] rfl (by decide)
  · exact .entity ['q', 'u', 'o', 't'] rfl (by decide)
  · rename_i notEntity notTag _ notQuote
    exact .plain notTag notEntity notQuote

theorem toList_escape (text : String) : (escape text).toList = text.toList.flatMap escapeChar := by
  simp [escape, Text.onChars, Text.substitute]

/-- Every element may hold text. Only `meta` elements have no end tag. -/
def dialect : Dialect where
  layout name := name = ""
  isVoid name := name = "meta"

def chars (markup : Markup) : List Char := markup.flatMap fun piece => piece.write.toList

theorem toList_write (markup : Markup) : (write markup).toList = chars markup := by
  rw [write, String.toList_join, List.flatMap_map]
  rfl

theorem chars_flatMap {α : Type} (items : List α) (markup : α → Markup) :
    chars (items.flatMap markup) = items.flatMap fun item => chars (markup item) :=
  List.flatMap_assoc

theorem toList_start (name : String) (attributes : List (String × String)) :
    (Piece.start name attributes).write.toList = startChars escapeChar name attributes := by
  have written : (String.join (attributes.map attributeText)).toList =
      attributes.flatMap (attributeChars escapeChar) :=
    toList_attributes (fun pair => by simp [attributeText, attributeChars,
      toList_escape]) attributes
  simp [Piece.write, startChars, written]

theorem toList_finish (name : String) : (Piece.finish name).write.toList = finishChars name := by
  simp [Piece.write, finishChars]

private theorem chars_element (name : String) (attributes : List (String × String))
    (inner : Markup) :
    chars (element name attributes inner) =
      startChars escapeChar name attributes ++ (chars inner ++ finishChars name) := by
  unfold chars element
  rw [List.flatMap_append, List.flatMap_cons, List.flatMap_singleton, toList_start,
    toList_finish, List.append_assoc]

/-- Names of elements that have an end tag. -/
def IsElementName (name : String) : Prop := IsTagName name ∧ name ≠ "" ∧ name ≠ "meta"

instance (name : String) : Decidable (IsElementName name) := inferInstanceAs (Decidable (_ ∧ _))

/-- Markup that is read as this text and these elements. -/
def Shows (markup : Markup) (text : String) (children : List Element) : Prop :=
  Reads dialect false (chars markup) text children

theorem reads_element {layout : Bool} {name : String} {attributes : List (String × String)}
    {inner : Markup} {text : String} {children : List Element} (shown : Shows inner text children)
    (named : IsElementName name) (keys : ∀ pair ∈ attributes, IsKey pair.1) :
    Reads dialect layout (chars (element name attributes inner)) "" [⟨name, attributes,
    text, children⟩] := by
  have own : dialect.layout name = false := by simpa [dialect] using named.2.1
  have ends : dialect.isVoid name = false := by simpa [dialect] using named.2.2
  rw [chars_element]
  exact Reads.element escaped_escapeChar named.1 keys ends (own ▸ shown)

namespace Shows

private theorem nil : Shows [] "" [] := Reads.nil

theorem append {front back : Markup} {text text' : String} {children children' : List Element}
    (first : Shows front text children) (later : Shows back text' children') :
    Shows (front ++ back) (text ++ text') (children ++ children') := by
  unfold Shows chars
  rw [List.flatMap_append]
  exact Reads.append first later

/-- Elements behind others. -/
theorem then_ {front back : Markup} {children children' : List Element}
    (first : Shows front "" children) (later : Shows back "" children') :
    Shows (front ++ back) "" (children ++ children') := by
  have both := append first later
  rw [String.append_empty] at both
  exact both

theorem text (content : String) : Shows [.text content] content [] := by
  unfold Shows chars
  rw [List.flatMap_singleton, Piece.write, toList_escape]
  exact Reads.text escaped_escapeChar content

theorem texts (contents : List String) : Shows (contents.map .text) (String.join contents) [] := by
  induction contents with
  | nil => exact nil
  | cons content contents ih =>
    have both := append (text content) ih
    rw [List.map_cons, String.join_cons]
    exact both

theorem element {name : String} {attributes : List (String × String)} {inner : Markup}
    {text : String} {children : List Element} (shown : Shows inner text children)
    (named : IsElementName name) (keys : ∀ pair ∈ attributes, IsKey pair.1) :
    Shows (element name attributes inner) "" [⟨name, attributes, text, children⟩] :=
  reads_element shown named keys

/-- An element without attributes. -/
theorem plain {inner : Markup} {text : String} {children : List Element}
    (shown : Shows inner text children) (name : String) (named : IsElementName name) :
    Shows (Html.element name [] inner) "" [⟨name, [], text, children⟩] :=
  element shown named (by simp)

private theorem void {attributes : List (String × String)}
    (keys : ∀ pair ∈ attributes, IsKey pair.1) :
    Shows [.start "meta" attributes] "" [.tag "meta" attributes] := by
  unfold Shows chars
  rw [List.flatMap_singleton, toList_start]
  exact Reads.void escaped_escapeChar (by decide) keys rfl

end Shows

structure RowEntry where
  name : String
  counts : Counts
  deriving DecidableEq, Repr

structure TableEntry where
  caption : String
  rows : List RowEntry
  deriving DecidableEq, Repr

structure Page where
  totals : Counts
  tables : List TableEntry
  deriving DecidableEq, Repr

def readRow? : Element → Option RowEntry
  | ⟨"tr", [], "", ⟨"td", [], name, []⟩ :: lines :: branches :: _⟩ => do
    return ⟨name, .ofPairs (← readCounts? lines.text) (← readCounts? branches.text)⟩
  | _ => none

def readTable? : Element → Option TableEntry
  | ⟨"table", [], "", [⟨"caption", [], caption, []⟩, _, ⟨"tbody", [], "", rows⟩]⟩ => do
    return ⟨caption, ← rows.mapM readRow?⟩
  | _ => none

def readTotals? (text : String) : Option Counts :=
  match readPairs? text with
  | some [lines, branches] => some (.ofPairs lines branches)
  | _ => none

/-- Below the heading come the totals and the moment, then the tables, and the columns are explained
at the end. -/
def readPage? (document : String) : Option Page :=
  match read dialect document with
  | some [⟨"html", [("lang", "en")], "", [_, ⟨"body", [], "", _ :: totals :: _ :: rest⟩]⟩] => do
    return ⟨← readTotals? totals.text, ← rest.dropLast.dropLast.mapM readTable?⟩
  | _ => none

def RowEntry.of (record : Record) : RowEntry := ⟨record.name, .ofRecord record⟩

def TableEntry.of (package : String) (records : List Record) : TableEntry :=
  ⟨if package.isEmpty then "(default package)" else package, records.map .of⟩

private theorem readCounts?_rate (share covered valid : Nat) :
    readCounts? (String.join [toString share, "% (", toString covered, "/", toString valid, ")"]) =
      some (covered, valid) := by
  refine readCounts?_of_chars ((toString share).toList ++ "% ".toList) [] ?_ ?_ (by simp) (by simp)
  · simp only [String.toList_join, List.flatMap_cons, List.flatMap_nil,
      pairChars, List.append_assoc]
    rfl
  · simp only [List.mem_append, not_or]
    exact ⟨not_mem_toString (by decide), by decide⟩

private theorem shows_rateCell (covered valid : Nat) (rate : Float) :
    ∃ cell, Shows (rateCell covered valid rate) "" [cell] ∧ readCounts? cell.text =
      some (covered, valid) := by
  have inner := Shows.texts [toString (percent rate), "% (", toString covered,
    "/", toString valid, ")"]
  exact ⟨_, inner.element (by decide) (isKey_of_names ["class", "style"] rfl (by decide)),
    readCounts?_rate (percent rate) covered valid⟩

private theorem exists_numberCell (number : Nat) : ∃ cell, Shows (numberCell number) "" [cell] :=
  ⟨_, (Shows.text (toString number)).element (by decide) (isKey_of_names ["class"] rfl (by decide))⟩

private theorem exists_missingCell (words : String) : ∃ cell, Shows (missingCell words) "" [cell] :=
  ⟨_, (Shows.text words).element (by decide) (isKey_of_names ["class"] rfl (by decide))⟩

private theorem exists_statsCells (stats : Option SourceStats) :
    ∃ cells, Shows (statsCells stats) "" cells := by
  cases stats with
  | none =>
    obtain ⟨cell, shown⟩ := exists_missingCell "-"
    exact ⟨_, shown.then_ shown⟩
  | some stats =>
    obtain ⟨complexity, first⟩ := exists_numberCell stats.complexity
    obtain ⟨lines, second⟩ := exists_numberCell stats.lines
    exact ⟨_, first.then_ second⟩

/-- The last cell of a row. -/
def sourceElement : Option SourceLocation → Element
  | some location => ⟨"td", [], location.relative, []⟩
  | none => ⟨"td", [("class", "missing")], "no source available", []⟩

private theorem shows_sourceCell (source : Option SourceLocation) :
    Shows (sourceCell source) "" [sourceElement source] := by
  cases source with
  | none => exact (Shows.text "no source available").element (by decide) (isKey_of_names
    ["class"] rfl (by decide))
  | some location => exact (Shows.text location.relative).plain "td" (by decide)

/-- A row: the class, its line counts, its branch counts, and its source file at the end. -/
theorem exists_row (summary : ClassSummary) :
    ∃ lines branches stats,
      Shows (classRow summary) ""
        [⟨"tr", [], "", ⟨"td", [], summary.name, []⟩ :: lines :: branches :: stats ++
          [sourceElement summary.source]⟩] ∧
      readCounts? lines.text = some (summary.linesCovered, summary.linesValid) ∧
      readCounts? branches.text = some (summary.branchesCovered, summary.branchesValid) := by
  have name : Shows (element "td" [] [.text summary.name]) "" [⟨"td", [], summary.name, []⟩] :=
    (Shows.text summary.name).plain "td" (by decide)
  obtain ⟨lines, shownLines, toldLines⟩ :=
    shows_rateCell summary.linesCovered summary.linesValid summary.lineRate
  obtain ⟨branches, shownBranches, toldBranches⟩ :=
    shows_rateCell summary.branchesCovered summary.branchesValid summary.branchRate
  obtain ⟨stats, shownStats⟩ := exists_statsCells summary.stats
  have cells := (((name.then_ shownLines).then_ shownBranches).then_ shownStats).then_
    (shows_sourceCell summary.source)
  exact ⟨lines, branches, stats, cells.plain "tr" (by decide), toldLines, toldBranches⟩

private theorem tells_row (finding : Finding) (record : Record) :
    Tells dialect false readRow? (chars (classRow (finding.summary record))) [.of record] := by
  obtain ⟨lines, branches, stats, shown, toldLines, toldBranches⟩ :=
    exists_row (finding.summary record)
  refine .one shown ?_
  simp only [List.cons_append, readRow?, toldLines, toldBranches]
  rfl

/-- A table: the caption, a row of titles, and these rows. -/
theorem exists_table (package : String) (classes : List ClassSummary) {rows : List Element}
    (shown : Shows (classes.flatMap classRow) "" rows) :
    ∃ head, Shows (packageTable package classes) ""
      [⟨"table", [], "",
      [⟨"caption", [], if package.isEmpty then "(default package)" else package, []⟩, head,
        ⟨"tbody", [], "", rows⟩]⟩] := by
  have caption :
      Shows (element "caption" []
        [.text (if package.isEmpty then "(default package)" else package)]) ""
      [⟨"caption", [], if package.isEmpty then "(default package)" else package, []⟩] :=
    (Shows.text _).plain "caption" (by decide)
  have titles : Shows (columnTitles.flatMap fun title => element "th" [] [.text title]) ""
      (columnTitles.flatMap fun title => [⟨"th", [], title, []⟩]) := by
    unfold Shows
    rw [chars_flatMap]
    exact Reads.flatMap fun title _ => (Shows.text title).plain "th" (by decide)
  have head := (titles.plain "tr" (by decide)).plain "thead" (by decide)
  have body := shown.plain "tbody" (by decide)
  exact ⟨_, ((caption.then_ head).then_ body).plain "table" (by decide)⟩

private theorem tells_table (finding : Finding) (package : String) (records : List Record) :
    Tells dialect false readTable? (chars (packageTable package (records.map finding.summary)))
      [.of package records] := by
  have rows : Tells dialect false readRow? (chars ((records.map finding.summary).flatMap classRow))
      (records.map .of) := by
    rw [List.flatMap_map, chars_flatMap]
    exact .flatMap fun record _ => tells_row finding record
  obtain ⟨elements, shownRows, toldRows⟩ := rows
  obtain ⟨head, shown⟩ := exists_table package _ shownRows
  refine .one shown ?_
  simp only [readTable?, toldRows]
  rfl

/-- Counts as they stand behind a percentage. -/
def countsText (covered valid : Nat) :
    String := String.join [" (", toString covered, "/", toString valid, ")"]

private theorem toList_countsText (covered valid : Nat) (after : List Char) :
    (countsText covered valid).toList ++ after = ' ' :: '(' :: pairChars ')'
      (covered, valid) after := by
  have opens : " (".toList = [' ', '('] := by decide
  simp only [countsText, String.toList_join, List.flatMap_cons, List.flatMap_nil, opens,
    pairChars, List.append_assoc]
  rfl

private theorem shows_total (covered valid : Nat) (rate : Float) :
    ∃ strong, Shows (total covered valid rate) (countsText covered valid) [strong] := by
  have percentage := (Shows.texts [toString (percent rate), "%"]).plain "strong" (by decide)
  have both := percentage.append (Shows.texts [" (", toString covered, "/", toString valid, ")"])
  rw [String.empty_append, List.append_nil] at both
  exact ⟨_, both⟩

private theorem readTotals?_totals (covered valid taken arms : Nat) :
    readTotals? ("Line coverage: " ++ countsText covered valid ++
      (" · Branch coverage: " ++ countsText taken arms)) =
      some ⟨covered, valid, taken, arms⟩ := by
  have spelled : ("Line coverage: " ++ countsText covered valid ++
      (" · Branch coverage: " ++ countsText taken arms)).toList = "Line coverage:  ".toList ++
        pairsChars [((covered, valid), " · Branch coverage:  ".toList), ((taken, arms), [])] := by
    rw [String.toList_append, String.toList_append, String.toList_append,
      List.append_assoc, toList_countsText,
      ← List.append_nil (countsText taken arms).toList, toList_countsText]
    simp [pairsChars, pairChars]
  rw [readTotals?, readPairs?_of_chars spelled (by decide) (by simp)]
  rfl

/-- What is true of every text without brackets and ampersands is true of the lines of the style
sheet. The lines are only compared as lists of characters, which is much faster than to unpack
them. -/
theorem all_styleLines {check : String → Bool}
    (each : ∀ line : List Char, line.all (fun char => char != '<' && char != '&') = true →
      check (String.ofList line) = true) : styleLines.all check = true := by
  rw [List.all_eq_true]
  unfold styleLines
  simp only [List.mem_cons, forall_eq_or_imp, List.not_mem_nil, false_imp_iff,
    implies_true, and_true]
  repeat' apply And.intro
  all_goals exact each _ (by decide)

theorem plain_styleSheet : ∀ char ∈ styleSheet.toList, char ≠ '<' ∧ char ≠ '&' := by
  have lines : styleLines.all (fun line => line.toList.all fun char =>
      char != '<' && char != '&') = true :=
    all_styleLines fun line plain => by rw [String.toList_ofList]; exact plain
  simp only [styleSheet, String.toList_join, List.flatMap_map,
    String.toList_append, List.mem_flatMap,
    List.mem_append]
  rintro char ⟨line, member, own | ended⟩
  · simpa using List.all_eq_true.mp (List.all_eq_true.mp lines line member) char own
  · revert char
    decide

private theorem shows_styleSheet : Shows [.verbatim styleSheet] styleSheet [] := by
  have reads : Reads dialect false styleSheet.toList (String.ofList styleSheet.toList) [] :=
    Reads.verbatim plain_styleSheet
  rw [String.ofList_toList] at reads
  unfold Shows chars
  rw [List.flatMap_singleton]
  exact reads

private theorem exists_explanationList (explanations : List (String × String)) :
    ∃ heading list, Shows (explanationList explanations) "" [heading, list] := by
  have item (pair : String × String) : ∃ item, Shows (element "li" []
      (element "strong" [] [.text pair.1, .text ": "] ++ [.text pair.2])) "" [item] := by
    have column := (Shows.texts [pair.1, ": "]).plain "strong" (by decide)
    exact ⟨_, (column.append (Shows.text pair.2)).plain "li" (by decide)⟩
  choose item shownItem using item
  have items : Shows (explanations.flatMap fun pair => element "li" []
      (element "strong" [] [.text pair.1, .text ": "] ++ [.text pair.2])) ""
      (explanations.flatMap fun pair => [item pair]) := by
    unfold Shows
    rw [chars_flatMap]
    exact Reads.flatMap fun pair _ => shownItem pair
  exact ⟨_, _, ((Shows.text "Columns").plain "h2" (by decide)).then_ (items.plain "ul" (by decide))⟩

private theorem shows_totals (store : Store) :
    ∃ totals, Shows (element "p" [("class", "totals")]
        (.text "Line coverage: " :: total store.linesCovered store.totalLines store.lineRate ++
          .text " · Branch coverage: " :: total store.branchesCovered store.totalBranches
            store.branchRate)) ""
        [totals] ∧
      readTotals? totals.text = some (.ofStore store) := by
  obtain ⟨strong, shownLines⟩ := shows_total store.linesCovered store.totalLines store.lineRate
  obtain ⟨strong', shownBranches⟩ :=
    shows_total store.branchesCovered store.totalBranches store.branchRate
  have inner := ((Shows.text "Line coverage: ").append shownLines).append
    ((Shows.text " · Branch coverage: ").append shownBranches)
  exact ⟨_, inner.element (by decide) (isKey_of_names ["class"] rfl (by decide)),
    readTotals?_totals store.linesCovered store.totalLines
      store.branchesCovered store.totalBranches⟩

private theorem exists_generated (moment : Moment) :
    ∃ generated, Shows (element "p" [("class", "totals")] [.text "Generated ",
      .text (Calendar.text moment)]) ""
      [generated] :=
  ⟨_, (Shows.texts ["Generated ", Calendar.text moment]).element (by decide)
    (isKey_of_names ["class"] rfl (by decide))⟩

/-- The body of a page: the totals, a line on the moment, the tables, and two elements that explain
them. -/
theorem exists_body (context : Context) {tables : List Element}
    (shown : Shows (context.packages.flatMap fun (package, classes) =>
      packageTable package classes) "" tables) :
    ∃ totals generated heading list,
      Shows (body context) "" (totals :: generated :: tables ++ [heading, list]) ∧
        readTotals? totals.text = some (.ofStore context.store) := by
  obtain ⟨totals, shownTotals, toldTotals⟩ := shows_totals context.store
  obtain ⟨generated, shownMoment⟩ := exists_generated context.generatedAt
  obtain ⟨heading, list, shownEnd⟩ := exists_explanationList explanations
  exact ⟨totals, generated, heading, list,
    ((shownTotals.then_ shownMoment).then_ shown).then_ shownEnd, toldTotals⟩

private theorem tells_tables (store : Store) (finding : Finding) (encoding : String)
    (moment : Moment) :
    Tells dialect false readTable?
      (chars ((Context.ofFinding store finding encoding moment).packages.flatMap
        fun (package, classes) =>
        packageTable package classes))
      ((packageNames store).map fun package => .of package (recordsIn store package)) := by
  rw [packages_ofFinding, List.flatMap_map, chars_flatMap]
  exact .flatMap fun package _ => tells_table finding package (recordsIn store package)

private theorem exists_head (title charset : String) :
    ∃ head, Shows (element "head" [] ([.start "meta" [("charset", charset)],
        .start "meta" [("name", "viewport"),
        ("content", "width=device-width, initial-scale=1.0")]] ++
      element "title" [] [.text title] ++ element "style" [] [.verbatim styleSheet])) ""
        [head] := by
  have declared : Shows [.start "meta" [("charset", charset)]] "" _ :=
    .void (isKey_of_names ["charset"] rfl (by decide))
  have viewport : Shows
      [.start "meta" [("name", "viewport"),
      ("content", "width=device-width, initial-scale=1.0")]] "" _ :=
    .void (isKey_of_names ["name", "content"] rfl (by decide))
  have named := (Shows.text title).plain "title" (by decide)
  have styled := shows_styleSheet.plain "style" (by decide)
  exact ⟨_, (((declared.then_ viewport).then_ named).then_ styled).plain "head" (by decide)⟩

/-- A page on its own, after the line that says what kind of document it is. -/
theorem reads_page (title charset : String) {content : Markup} {children : List Element}
    (shown : Shows content "" children) :
    ∃ head, Reads dialect true (chars (page title charset content)) ""
      [⟨"html", [("lang", "en")], "",
      [head, ⟨"body", [], "", ⟨"h1", [], title, []⟩ :: children⟩]⟩] := by
  obtain ⟨head, shownHead⟩ := exists_head title charset
  have heading := (Shows.text title).plain "h1" (by decide)
  have inner := shownHead.then_ ((heading.then_ shown).plain "body" (by decide))
  have opens : (Piece.verbatim "<!DOCTYPE html>").write.toList =
      '<' :: '!' :: ("DOCTYPE html".toList ++ ['>']) := by
    decide
  have doctype : Reads dialect true (Piece.verbatim "<!DOCTYPE html>").write.toList "" [] :=
    opens ▸ Reads.skipped (by decide)
  have root : Reads dialect true (chars (element "html" [("lang", "en")] _)) "" _ :=
    reads_element inner (by decide) (isKey_of_names ["lang"] rfl (by decide))
  have whole := doctype.append root
  rw [String.append_empty] at whole
  exact ⟨head, whole⟩

/-- A page is read as a head, and below the heading what its body shows. -/
theorem read_render {context : Context} {children : List Element}
    (shown : Shows (body context) "" children) :
    ∃ head, read dialect (render context) =
      some [⟨"html", [("lang", "en")], "",
        [head, ⟨"body", [], "", ⟨"h1", [], "Coverage Report", []⟩ :: children⟩]⟩] := by
  obtain ⟨head, whole⟩ := reads_page "Coverage Report" context.encoding shown
  rw [← toList_write] at whole
  exact ⟨head, read_of_reads whole⟩

/-- The page of a store is read as the totals and one table for each package, with one row for each
class. -/
theorem readPage?_render (store : Store) (finding : Finding) (encoding : String) (moment : Moment) :
    readPage? (render (.ofFinding store finding encoding moment)) =
      some ⟨.ofStore store, (packageNames store).map fun package =>
      .of package (recordsIn store package)⟩ := by
  obtain ⟨tables, shownTables, toldTables⟩ := tells_tables store finding encoding moment
  obtain ⟨totals, generated, heading, list, shownBody, toldTotals⟩ :=
    exists_body (.ofFinding store finding encoding moment) shownTables
  obtain ⟨head, document⟩ := read_render shownBody
  have last : (tables ++ [heading, list]).dropLast.dropLast = tables := by simp
  have told : readTotals? totals.text = some (.ofStore store) := toldTotals
  unfold readPage?
  rw [document]
  simp only [List.cons_append, told, last, toldTables]
  rfl

end ClassCoverage.Report.Html
