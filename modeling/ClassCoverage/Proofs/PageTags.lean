import ClassCoverage.Proofs.HtmlReading

/-! The tags of a page. Whatever the texts are that a page is written with, its reader finds the
tags of the markup and no others. -/
namespace ClassCoverage.Report
open TagReader

/-- A tag without the values of its attributes. -/
inductive TagShape where
  | start (name : String) (keys : List String)
  | finish (name : String)
  deriving DecidableEq, Repr

namespace Element
variable (dialect : Dialect)

def startShape (element : Element) :
    TagShape := .start element.name (element.attributes.map Prod.fst)

mutual

/-- The tags that an element is written with. -/
def tags : Element → List TagShape
  | ⟨name, attributes, _, children⟩ =>
    .start name (attributes.map Prod.fst) ::
      (tagsOf children ++ if dialect.isVoid name then [] else [.finish name])

def tagsOf : List Element → List TagShape
  | [] => []
  | child :: children => child.tags ++ tagsOf children

end

private theorem tagsOf_append (front back : List Element) :
    tagsOf dialect (front ++ back) = tagsOf dialect front ++ tagsOf dialect back := by
  induction front with
  | nil => rfl
  | cons child front ih => rw [List.cons_append, tagsOf, tagsOf, ih, List.append_assoc]

/-- The tags of an element that goes on. -/
def tagsSoFar (element : Element) :
    List TagShape := element.startShape :: tagsOf dialect element.children

private theorem tags_eq (element : Element) (ends : dialect.isVoid element.name = false) :
    element.tags dialect = element.tagsSoFar dialect ++ [.finish element.name] := by
  obtain ⟨name, attributes, text, children⟩ := element
  have own : dialect.isVoid name = false := ends
  rw [tags, own]
  rfl

theorem tagsSoFar_add (child parent : Element) :
    (child.add parent).tagsSoFar dialect = parent.tagsSoFar dialect ++ child.tags dialect := by
  unfold tagsSoFar
  rw [add, tagsOf_append, tagsOf, tagsOf, List.append_nil, List.cons_append]
  rfl

end Element

namespace TagReader
variable {dialect : Dialect}

/-- The tags that were read so far. -/
def State.tags (dialect : Dialect) (state : State) : List TagShape :=
  state.outer.reverse.flatMap (Element.tagsSoFar dialect) ++ state.inner.tagsSoFar dialect

/-- Text between whose ends these tags are read, wherever it can be read at all. -/
def Traces (dialect : Dialect) (chars : List Char) (shapes : List TagShape) : Prop :=
  ∀ inner outer state', Leads dialect ⟨.content, inner, outer⟩ chars state' →
    state'.mode = .content ∧ state'.tags dialect = State.tags dialect ⟨.content,
    inner, outer⟩ ++ shapes

namespace Traces

private theorem nil : Traces dialect [] [] := by
  intro inner outer state' leads
  obtain rfl := leads.unique (.nil _)
  exact ⟨rfl, (List.append_nil _).symm⟩

private theorem append {front back : List Char} {shapes shapes' : List TagShape}
    (first : Traces dialect front shapes) (later : Traces dialect back shapes') :
    Traces dialect (front ++ back) (shapes ++ shapes') := by
  intro inner outer state' leads
  obtain ⟨⟨mode, inner', outer'⟩, leadsFirst, leadsLater⟩ := leads.split
  obtain ⟨rfl, shownFirst⟩ := first inner outer _ leadsFirst
  obtain ⟨between, shownLater⟩ := later inner' outer' _ leadsLater
  exact ⟨between, by rw [shownLater, shownFirst, List.append_assoc]⟩

theorem flatMap {α : Type} {items : List α} {chars : α → List Char} {shapes : α → List TagShape}
    (each : ∀ item ∈ items, Traces dialect (chars item) (shapes item)) :
    Traces dialect (items.flatMap chars) (items.flatMap shapes) := by
  induction items with
  | nil => exact nil
  | cons item items ih =>
    rw [List.forall_mem_cons] at each
    exact append each.1 (ih each.2)

theorem silent {α : Type} {items : List α} {chars : α → List Char}
    (each : ∀ item ∈ items, Traces dialect (chars item) []) :
    Traces dialect (items.flatMap chars) [] := by
  have whole : Traces dialect (items.flatMap chars) (items.flatMap fun _ => []) := flatMap each
  rwa [List.flatMap_eq_nil_iff.mpr fun _ _ => rfl] at whole

variable {image : Char → List Char} {name : String} {attributes : List (String × String)}

private theorem start (escaped : ∀ char, Escaped char (image char)) (named : IsTagName name)
    (keys : ∀ pair ∈ attributes, IsKey pair.1) :
    Traces dialect (startChars image name attributes) [.start name (attributes.map Prod.fst)] := by
  intro inner outer state' leads
  obtain rfl := leads.unique (leads_start escaped named keys)
  unfold State.open_
  split
  · rename_i ends
    refine ⟨rfl, ?_⟩
    have shown : (Element.tag name attributes).tags dialect =
        [.start name (attributes.map Prod.fst)] := by
      have own : dialect.isVoid name = true := ends
      simp [Element.tag, Element.tags, Element.tagsOf, own]
    unfold State.tags
    rw [Element.tagsSoFar_add, shown, List.append_assoc]
  · refine ⟨rfl, ?_⟩
    simp [State.tags, Element.tag, Element.tagsSoFar, Element.startShape, Element.tagsOf]

private theorem finish (named : IsTagName name) (ends : dialect.isVoid name = false) :
    Traces dialect (finishChars name) [.finish name] := by
  intro inner outer state' leads
  have opens : (⟨.content, inner, outer⟩ : State).step dialect '<' = some ⟨.opened, inner, outer⟩ :=
    rfl
  have slash : (⟨.opened, inner, outer⟩ : State).step dialect '/' =
      some ⟨.closing [], inner, outer⟩ := rfl
  have named : Leads dialect ⟨.content, inner, outer⟩ ('<' :: '/' :: name.toList)
      ⟨.closing name.toList, inner, outer⟩ :=
    .cons opens (.cons slash (leads_closing named.closes))
  have leads : Leads dialect ⟨.content, inner, outer⟩ (('<' :: '/' :: name.toList) ++
      ['>']) state' := leads
  obtain ⟨middle, leadsName, leadsEnd⟩ := leads.split
  obtain rfl := leadsName.unique named
  have closed : (⟨.closing name.toList, inner, outer⟩ : State).close name.toList = some state' := by
    simpa [Leads, run, State.step] using leadsEnd
  cases outer with
  | nil => cases closed
  | cons parent outer =>
    simp only [State.close, String.ofList_toList] at closed
    split at closed
    · rename_i own
      cases closed
      subst own
      refine ⟨rfl, ?_⟩
      simp only [State.tags, List.reverse_cons, List.flatMap_append, List.flatMap_singleton,
        Element.tagsSoFar_add,
        Element.tags_eq dialect inner ends, List.append_assoc]
    · cases closed

/-- A character that stands for itself is no tag. -/
theorem one {char : Char} (notTag : char ≠ '<') (notEntity : char ≠ '&') :
    Traces dialect [char] [] := by
  intro inner outer state' leads
  have steps : (⟨.content, inner, outer⟩ : State).step dialect char = some state' := by
    simpa [Leads, run] using leads
  simp only [State.step, State.stepContent, if_neg notTag, if_neg notEntity] at steps
  split at steps
  · split at steps
    · cases steps
      exact ⟨rfl, (List.append_nil _).symm⟩
    · cases steps
  · cases steps
    exact ⟨rfl, (List.append_nil _).symm⟩

private theorem written {char : Char} {chars : List Char} (escaped : Escaped char chars) :
    Traces dialect chars [] := by
  cases escaped with
  | plain notTag notEntity => exact one notTag notEntity
  | entity name known whole =>
    intro inner outer state' leads
    cases shown : dialect.layout inner.name with
    | false =>
      obtain rfl := leads.unique (leads_written (.entity name known whole) shown)
      exact ⟨rfl, (List.append_nil _).symm⟩
    | true =>
      -- Among elements that are only set apart there is no text, not even an escaped one.
      have refused : (⟨.content, inner, outer⟩ : State).step dialect '&' = none := by
        simp [State.step, State.stepContent, shown, isBlank]
      simp [Leads, run, refused] at leads

private theorem text (escaped : ∀ char, Escaped char (image char)) (text : List Char) :
    Traces dialect (text.flatMap image) [] :=
  silent fun char _ => written (escaped char)

private theorem verbatim {chars : List Char} (plain : ∀ char ∈ chars, char ≠ '<' ∧ char ≠ '&') :
    Traces dialect chars [] := by
  have whole : Traces dialect (chars.flatMap fun char => [char]) [] :=
    silent fun char member => one (plain char member).1 (plain char member).2
  rwa [List.flatMap_singleton'] at whole

private theorem skipped {chars : List Char} (whole : '>' ∉ chars) :
    Traces dialect ('<' :: '!' :: (chars ++ ['>'])) [] := by
  intro inner outer state' leads
  obtain rfl := leads.unique (Reads.skipped whole inner outer rfl)
  simp [State.tags, Element.tagsSoFar, Element.startShape]

end Traces

/-- The reader finds all tags that a document is traced to. -/
theorem tagsOf_of_read {document : String} {shapes : List TagShape} {elements : List Element}
    (traced : Traces dialect document.toList shapes)
      (found : read dialect document = some elements) :
    Element.tagsOf dialect elements = shapes := by
  unfold read at found
  split at found
  · rename_i whole leads
    cases found
    have shown := (traced _ _ _ leads).2
    simp only [State.tags, Element.tagsSoFar, Element.startShape, Element.tag,
      Element.tagsOf, List.reverse_nil,
      List.flatMap_nil, List.nil_append, List.cons_append, List.cons.injEq] at shown
    exact shown.2
  · cases found

end TagReader

namespace Html

/-- Pieces that are written as one tag or as none. Only the doctype and the style sheet stand as
they are. -/
def Piece.IsSound : Piece → Prop
  | .start name attributes => IsTagName name ∧ ∀ key ∈ attributes.map Prod.fst, IsKey key
  | .finish name => IsElementName name
  | .text _ => True
  | .verbatim content => content = "<!DOCTYPE html>" ∨ ∀ char ∈ content.toList,
    char ≠ '<' ∧ char ≠ '&'

def Piece.tags : Piece → List TagShape
  | .start name attributes => [.start name (attributes.map Prod.fst)]
  | .finish name => [.finish name]
  | .text _ => []
  | .verbatim _ => []

theorem Piece.IsSound.traces {piece : Piece} (sound : piece.IsSound) :
    Traces dialect piece.write.toList piece.tags := by
  cases piece with
  | start name attributes =>
    rw [toList_start]
    exact .start escaped_escapeChar sound.1 fun pair member =>
      sound.2 pair.1 (List.mem_map_of_mem member)
  | finish name =>
    rw [toList_finish]
    exact .finish sound.1 (by simpa [dialect] using sound.2.2)
  | text content =>
    rw [Piece.write, toList_escape]
    exact .text escaped_escapeChar content.toList
  | verbatim content =>
    rcases sound with rfl | plain
    · have opens : (Piece.verbatim "<!DOCTYPE html>").write.toList =
          '<' :: '!' :: ("DOCTYPE html".toList ++ ['>']) := by
        decide
      rw [opens]
      exact .skipped (by decide)
    · exact .verbatim plain

def tags (markup : Markup) : List TagShape := markup.flatMap Piece.tags

def IsSound (markup : Markup) : Prop := ∀ piece ∈ markup, piece.IsSound

/-- A document that is written from sound pieces has their tags, whatever its texts are. -/
theorem tagsOf_read_write {markup : Markup} (sound : IsSound markup) {elements : List Element}
    (found : read dialect (write markup) = some elements) :
    Element.tagsOf dialect elements = tags markup := by
  refine tagsOf_of_read ?_ found
  rw [toList_write]
  exact .flatMap fun piece member => (sound piece member).traces

@[simp]
theorem Piece.isSound_start (name : String) (attributes : List (String × String)) :
    (Piece.start name attributes).IsSound ↔ IsTagName name ∧
    ∀ key ∈ attributes.map Prod.fst, IsKey key :=
  Iff.rfl

@[simp]
theorem Piece.isSound_text (content : String) : (Piece.text content).IsSound := trivial

@[simp]
theorem Piece.isSound_doctype : (Piece.verbatim "<!DOCTYPE html>").IsSound := .inl rfl

@[simp]
theorem Piece.isSound_styleSheet : (Piece.verbatim styleSheet).IsSound := .inr plain_styleSheet

@[simp]
theorem isSound_nil : IsSound [] := nofun

@[simp]
theorem isSound_cons (piece : Piece) (markup : Markup) :
    IsSound (piece :: markup) ↔ piece.IsSound ∧ IsSound markup :=
  List.forall_mem_cons

@[simp]
theorem isSound_append (front back : Markup) :
    IsSound (front ++ back) ↔ IsSound front ∧ IsSound back :=
  List.forall_mem_append

@[simp]
theorem isSound_flatMap {α : Type} (items : List α) (markup : α → Markup) :
    IsSound (items.flatMap markup) ↔ ∀ item ∈ items, IsSound (markup item) := by
  unfold IsSound
  simp only [List.mem_flatMap, forall_exists_index, and_imp]
  exact ⟨fun each item member piece own => each piece item member own,
    fun each piece item member own => each item member piece own⟩

@[simp]
theorem isSound_element (name : String) (attributes : List (String × String)) (inner : Markup) :
    IsSound (element name attributes inner) ↔
      IsElementName name ∧ (∀ key ∈ attributes.map Prod.fst, IsKey key) ∧ IsSound inner := by
  unfold element
  simp only [isSound_cons, isSound_append, isSound_nil, Piece.IsSound, and_true]
  exact ⟨fun ⟨⟨⟨_, keys⟩, sound⟩, named⟩ => ⟨named, keys, sound⟩,
    fun ⟨named, keys, sound⟩ => ⟨⟨⟨named.1, keys⟩, sound⟩, named⟩⟩

private theorem isSound_statsCells (stats : Option SourceStats) : IsSound (statsCells stats) := by
  cases stats <;> simp +decide [statsCells, numberCell, missingCell]

private theorem isSound_sourceCell (source : Option SourceLocation) :
    IsSound (sourceCell source) := by
  cases source <;> simp +decide [sourceCell, missingCell]

private theorem isSound_classRow (summary : ClassSummary) : IsSound (classRow summary) := by
  simp +decide [classRow, rateCell, isSound_statsCells, isSound_sourceCell]

private theorem isSound_packageTable (package : String) (classes : List ClassSummary) :
    IsSound (packageTable package classes) := by
  simp +decide [packageTable, isSound_classRow]

private theorem isSound_body (context : Context) : IsSound (body context) := by
  simp +decide [body, total, explanationList, isSound_packageTable]

private theorem isSound_page (title charset : String) {content : Markup} (sound : IsSound content) :
    IsSound (page title charset content) := by
  simp +decide [page, sound]

theorem tags_nil : tags [] = [] := rfl

theorem tags_cons (piece : Piece) (markup : Markup) :
    tags (piece :: markup) = piece.tags ++ tags markup := rfl

theorem tags_append (front back : Markup) :
    tags (front ++ back) = tags front ++ tags back := List.flatMap_append

theorem tags_element (name : String) (attributes : List (String × String)) (inner : Markup) :
    tags (element name attributes inner) =
      .start name (attributes.map Prod.fst) :: (tags inner ++ [.finish name]) := by
  unfold tags element
  rw [List.flatMap_append, List.flatMap_cons, List.flatMap_singleton]
  rfl

/-- Items of one shape have the same tags, and so have lists of them. -/
theorem tags_flatMap_congr {α β : Type} {shape : α → β} {markup : α → Markup}
    (each : ∀ item item', shape item = shape item' → tags (markup item) = tags (markup item'))
    {items items' : List α} (alike : items.map shape = items'.map shape) :
    tags (items.flatMap markup) = tags (items'.flatMap markup) := by
  induction items generalizing items' with
  | nil =>
    rw [List.map_nil, eq_comm, List.map_eq_nil_iff] at alike
    rw [alike]
  | cons item items ih =>
    cases items' with
    | nil => cases alike
    | cons item' items' =>
      rw [List.map_cons, List.map_cons, List.cons.injEq] at alike
      rw [List.flatMap_cons, List.flatMap_cons, tags_append, tags_append,
        each item item' alike.1, ih alike.2]

end Html

/-- What is known of a class, apart from any text: if there are statistics, and if there is a source
file. -/
structure ClassShape where
  hasStats : Bool
  hasSource : Bool
  deriving DecidableEq, Repr

def ClassSummary.shape (summary : ClassSummary) :
    ClassShape := ⟨summary.stats.isSome, summary.source.isSome⟩

/-- The packages in order, with the shapes of their classes in order. -/
def Context.shape (context : Context) : List (List ClassShape) :=
  context.packages.map fun (_, classes) => classes.map ClassSummary.shape

namespace Html

theorem tags_rateCell (covered valid : Nat) (rate : Float) :
    tags (rateCell covered valid rate) = [.start "td" ["class", "style"], .finish "td"] := rfl

private theorem tags_statsCells {stats stats' : Option SourceStats}
    (alike : stats.isSome = stats'.isSome) :
    tags (statsCells stats) = tags (statsCells stats') := by
  cases stats <;> cases stats' <;> first | cases alike; done | rfl

private theorem tags_sourceCell {source source' : Option SourceLocation}
    (alike : source.isSome = source'.isSome) :
    tags (sourceCell source) = tags (sourceCell source') := by
  cases source <;> cases source' <;> first | cases alike; done | rfl

private theorem tags_classRow {summary summary' : ClassSummary}
    (alike : summary.shape = summary'.shape) :
    tags (classRow summary) = tags (classRow summary') := by
  unfold ClassSummary.shape at alike
  rw [ClassShape.mk.injEq] at alike
  simp only [classRow, tags_element, tags_append, tags_cons, tags_nil, Piece.tags, tags_rateCell,
    tags_statsCells alike.1, tags_sourceCell alike.2]

private theorem tags_packageTable {package package' : String} {classes classes' : List ClassSummary}
    (alike : classes.map ClassSummary.shape = classes'.map ClassSummary.shape) :
    tags (packageTable package classes) = tags (packageTable package' classes') := by
  have rows := tags_flatMap_congr (fun _ _ => tags_classRow) alike
  simp only [packageTable, tags_element, tags_append, tags_cons, Piece.tags, rows]

theorem tags_total (covered valid : Nat) (rate : Float) :
    tags (total covered valid rate) = [.start "strong" [], .finish "strong"] := rfl

private theorem tags_body {context context' : Context} (alike : context.shape = context'.shape) :
    tags (body context) = tags (body context') := by
  have tables : tags (context.packages.flatMap fun (package, classes) =>
      packageTable package classes) =
      tags (context'.packages.flatMap fun (package, classes) => packageTable package classes) :=
    tags_flatMap_congr (fun _ _ => tags_packageTable) alike
  simp only [body, tags_element, tags_append, tags_cons, Piece.tags, tags_total, tables]

private theorem tags_page (title charset charset' : String) {content content' : Markup}
    (alike : tags content = tags content') :
    tags (page title charset content) = tags (page title charset' content') := by
  simp only [page, tags_element, tags_append, tags_cons, Piece.tags, List.map_cons, alike]

/-- The class a row is about, and the source file named in it, if there is one. -/
structure RowNames where
  name : String
  source : Option String
  deriving DecidableEq, Repr

structure TableNames where
  caption : String
  rows : List RowNames
  deriving DecidableEq, Repr

/-- The name of a source file is in a plain cell, and the words for a missing one are in a cell of
another class. -/
def readSource? : Element → Option (Option String)
  | ⟨"td", [], source, []⟩ => some (some source)
  | ⟨"td", [("class", "missing")], _, []⟩ => some none
  | _ => none

def readRowNames? : Element → Option RowNames
  | ⟨"tr", [], "", ⟨"td", [], name, []⟩ :: cells⟩ => do
    return ⟨name, ← readSource? (← cells.getLast?)⟩
  | _ => none

def readTableNames? : Element → Option TableNames
  | ⟨"table", [], "", [⟨"caption", [], caption, []⟩, _, ⟨"tbody", [], "", rows⟩]⟩ => do
    return ⟨caption, ← rows.mapM readRowNames?⟩
  | _ => none

/-- The tables stand between the three elements at the start of the body and the two at its end. -/
def readNames? : List Element → Option (List TableNames)
  | [⟨"html", [("lang", "en")], "", [_, ⟨"body", [], "", _ :: _ :: _ :: rest⟩]⟩] =>
    rest.dropLast.dropLast.mapM readTableNames?
  | _ => none

def RowNames.of (summary : ClassSummary) :
    RowNames := ⟨summary.name, summary.source.map SourceLocation.relative⟩

def TableNames.of (package : String) (classes : List ClassSummary) : TableNames :=
  ⟨if package.isEmpty then "(default package)" else package, classes.map .of⟩

private theorem readSource?_sourceElement (source : Option SourceLocation) :
    readSource? (sourceElement source) = some (source.map SourceLocation.relative) := by
  cases source <;> rfl

private theorem tells_rowNames (summary : ClassSummary) :
    Tells dialect false readRowNames? (chars (classRow summary)) [.of summary] := by
  obtain ⟨lines, branches, stats, shown, -⟩ := exists_row summary
  refine .one shown ?_
  have last : (lines :: branches :: stats ++ [sourceElement summary.source]).getLast? =
      some (sourceElement summary.source) := List.getLast?_concat
  unfold readRowNames?
  simp only [List.cons_append] at last ⊢
  rw [last]
  simp only [Option.bind_eq_bind, Option.bind_some, readSource?_sourceElement]
  rfl

private theorem tells_tableNames (package : String) (classes : List ClassSummary) :
    Tells dialect false readTableNames? (chars (packageTable package classes))
      [.of package classes] := by
  have rows : Tells dialect false readRowNames? (chars (classes.flatMap classRow))
      (classes.map .of) := by
    rw [chars_flatMap]
    exact .flatMap fun summary _ => tells_rowNames summary
  obtain ⟨elements, shownRows, toldRows⟩ := rows
  obtain ⟨head, shown⟩ := exists_table package classes shownRows
  refine .one shown ?_
  simp only [readTableNames?, toldRows]
  rfl

/-- Every page can be read, and tells the names it was written with. -/
theorem readNames?_render (context : Context) :
    ∃ elements, read dialect (render context) = some elements ∧
      readNames? elements = some (context.packages.map fun (package, classes) =>
      .of package classes) := by
  have told : Tells dialect false readTableNames?
      (chars (context.packages.flatMap fun (package, classes) => packageTable package classes))
      (context.packages.map fun (package, classes) => .of package classes) := by
    rw [chars_flatMap]
    exact .flatMap fun (package, classes) _ => tells_tableNames package classes
  obtain ⟨tables, shownTables, toldTables⟩ := told
  obtain ⟨totals, generated, heading, list, shown, -⟩ := exists_body context shownTables
  obtain ⟨head, document⟩ := read_render shown
  have last : (tables ++ [heading, list]).dropLast.dropLast = tables := by simp
  refine ⟨_, document, ?_⟩
  simp only [readNames?, List.cons_append, last, toldTables]

/-- No text becomes markup: reports of one shape have the same tags with the same attributes,
whatever their classes, packages, source files and encodings are called, and these names are what is
read in their places. -/
theorem render_injects_no_markup {context context' : Context}
    (alike : context.shape = context'.shape) :
    ∃ elements elements',
      read dialect (render context) = some elements ∧
      read dialect (render context') = some elements' ∧
      Element.tagsOf dialect elements = Element.tagsOf dialect elements' ∧
      readNames? elements = some (context.packages.map fun (package, classes) =>
      .of package classes) ∧
      readNames? elements' = some (context'.packages.map fun (package, classes) =>
      .of package classes) := by
  obtain ⟨elements, found, told⟩ := readNames?_render context
  obtain ⟨elements', found', told'⟩ := readNames?_render context'
  refine ⟨elements, elements', found, found', ?_, told, told'⟩
  have traced := tagsOf_read_write (isSound_page _ _ (isSound_body context)) found
  have traced' := tagsOf_read_write (isSound_page _ _ (isSound_body context')) found'
  rw [traced, traced', tags_page _ _ context'.encoding (tags_body alike)]

/-- Names that look like markup leave the page as it is with plain ones, and are read as they
are. -/
theorem render_injects_no_markup_of_script :
    ∃ context context' : Context, context.encoding = "\"><script>" ∧ context'.encoding = "UTF-8" ∧
      ∃ elements elements',
        read dialect (render context) = some elements ∧
        read dialect (render context') = some elements' ∧
        Element.tagsOf dialect elements = Element.tagsOf dialect elements' ∧
        readNames? elements = some [⟨"</table>", [⟨"<script>&lt;", some "\"><b>.java"⟩]⟩] ∧
        readNames? elements' = some [⟨"(default package)", [⟨"Main", some "Main.java"⟩]⟩] := by
  let hostile : Context :=
    ⟨.empty, [⟨"<script>&lt;", "</table>", some ⟨⟨"src"⟩, "\"><b>.java"⟩, none, 1, 0, 0, 0⟩],
    "\"><script>", 0⟩
  let calm : Context :=
    ⟨.empty, [⟨"Main", "", some ⟨⟨"src"⟩, "Main.java"⟩, none, 1, 0, 0, 0⟩], "UTF-8", 0⟩
  have alike : hostile.shape = calm.shape := by decide
  obtain ⟨elements, elements', found, found', tags, told, told'⟩ := render_injects_no_markup alike
  exact ⟨hostile, calm, rfl, rfl, elements, elements', found, found', tags, told, told'⟩

end Html

end ClassCoverage.Report
