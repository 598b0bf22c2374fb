import ClassCoverage.Proofs.ShownCounts
import ClassCoverage.Proofs.XmlReading

/-! What a report in XML tells. The document is read back as entries: totals, source roots, and
packages with their classes and lines. -/
namespace ClassCoverage.Report.Xml
open TagReader

/-- A line. Of the arms on a line with a branch, the report tells how many were taken and how many
there are. -/
structure LineEntry where
  number : Nat
  hits : Nat
  branch : Bool
  arms : Option (Nat × Nat)
  deriving DecidableEq, Repr

structure ClassEntry where
  name : String
  fileName : String
  lineRate : String
  branchRate : String
  complexity : Nat
  lines : List LineEntry
  deriving DecidableEq, Repr

structure PackageEntry where
  name : String
  lineRate : String
  branchRate : String
  complexity : Nat
  classes : List ClassEntry
  deriving DecidableEq, Repr

structure Totals where
  lineRate : String
  branchRate : String
  linesCovered : Nat
  linesValid : Nat
  branchesCovered : Nat
  branchesValid : Nat
  complexity : Nat
  version : String
  timestamp : String
  deriving DecidableEq, Repr

structure Document where
  encoding : String
  totals : Totals
  sources : List String
  packages : List PackageEntry
  deriving DecidableEq, Repr

/-- The entries in an element that only holds them together. -/
def readGroup? {α : Type} (name : String) (read : Element → Option α)
    (element : Element) : Option (List α) :=
  if element.name = name ∧ element.attributes = [] ∧
    element.text = "" then element.children.mapM read else none

def readLine? : Element → Option LineEntry
  | ⟨"line", [("number", number), ("hits", hits), ("branch", "false")], "", []⟩ => do
    return ⟨← readNumber? number.toList, ← readNumber? hits.toList, false, none⟩
  | ⟨"line", [("number", number), ("hits", hits), ("branch", "true"),
    ("condition-coverage", shown)], "", []⟩ => do
    return ⟨← readNumber? number.toList, ← readNumber? hits.toList, true,
      some (← readCounts? shown)⟩
  | _ => none

def readClass? : Element → Option ClassEntry
  | ⟨"class", [("name", name), ("filename", fileName), ("line-rate", lineRate),
    ("branch-rate", branchRate),
      ("complexity", complexity)], "", [lines]⟩ => do
    return ⟨name, fileName, lineRate, branchRate, ← readNumber? complexity.toList,
      ← readGroup? "lines" readLine? lines⟩
  | _ => none

def readPackage? : Element → Option PackageEntry
  | ⟨"package", [("name", name), ("line-rate", lineRate), ("branch-rate", branchRate),
    ("complexity", complexity)], "",
      [classes]⟩ => do
    return ⟨name, lineRate, branchRate, ← readNumber? complexity.toList,
      ← readGroup? "classes" readClass? classes⟩
  | _ => none

def readSource? : Element → Option String
  | ⟨"source", [], root, []⟩ => some root
  | _ => none

def readTotals? : Attributes → Option Totals
  | [("line-rate", lineRate), ("branch-rate", branchRate), ("lines-covered", linesCovered),
      ("lines-valid", linesValid), ("branches-covered", branchesCovered),
      ("branches-valid", branchesValid),
      ("complexity", complexity), ("version", version), ("timestamp", timestamp)] => do
    return ⟨lineRate, branchRate, ← readNumber? linesCovered.toList,
      ← readNumber? linesValid.toList,
      ← readNumber? branchesCovered.toList, ← readNumber? branchesValid.toList,
      ← readNumber? complexity.toList,
      version, timestamp⟩
  | _ => none

/-- A declaration and one coverage element, which holds the sources and the packages and nothing
else. -/
def readDocument? (document : String) : Option Document :=
  match read dialect document with
  | some [⟨"?xml", [("version", "1.0"), ("encoding", encoding)], "", []⟩,
      ⟨"coverage", totals, "", [sources, packages]⟩] => do
    return ⟨encoding, ← readTotals? totals, ← readGroup? "sources" readSource? sources,
      ← readGroup? "packages" readPackage? packages⟩
  | _ => none

/-- A declaration and a coverage element that holds nothing. -/
def readSummary? (document : String) : Option Totals :=
  match read dialect document with
  | some [⟨"?xml", [("version", "1.0"), ("encoding", _)], "", []⟩, ⟨"coverage", totals, "", []⟩] =>
    readTotals? totals
  | _ => none

/-- The arms of the branch on a line. -/
def armsOn (record : Record) (line : UInt32) : List BranchCounter :=
  record.branches.filter fun arm => arm.line = line

def LineEntry.of (record : Record) (counter : LineCounter) : LineEntry where
  number := counter.line.toNat
  hits := counter.hits.toNat
  branch := record.branches.any fun arm => arm.line = counter.line
  arms := if record.branches.any fun arm => arm.line = counter.line then
    some ((armsOn record counter.line).countP BranchCounter.taken,
      (armsOn record counter.line).length) else none

def ClassEntry.of (finding : Finding) (record : Record) : ClassEntry where
  name := record.name
  fileName := match (finding record).1 with
    | some location => location.relative
    | none => ClassName.sourceFile record.name ClassName.sourceExtension
  lineRate := rateText record.lineRate
  branchRate := rateText record.branchRate
  complexity := match (finding record).2 with
    | some stats => stats.complexity
    | none => 0
  lines := record.lines.map (.of record)

def PackageEntry.of (finding : Finding) (package : String)
    (records : List Record) : PackageEntry where
  name := package
  lineRate := rateText (ratio (records.map Record.linesCovered).sum (records.map fun record =>
    record.lines.length).sum)
  branchRate := rateText
    (ratio (records.map Record.branchesCovered).sum (records.map fun record =>
    record.branches.length).sum)
  complexity :=
    (records.filterMap fun record => (finding record).2.map SourceStats.complexity).foldl max 0
  classes := records.map (.of finding)

def Totals.of (context : Context) : Totals where
  lineRate := rateText context.store.lineRate
  branchRate := rateText context.store.branchRate
  linesCovered := context.store.linesCovered
  linesValid := context.store.totalLines
  branchesCovered := context.store.branchesCovered
  branchesValid := context.store.totalBranches
  complexity := context.totalComplexity
  version := Xml.version
  timestamp := toString context.generatedAt

def Document.of (store : Store) (finding : Finding) (encoding : String) (moment : Moment) :
    Document where
  encoding := encoding
  totals := .of (.ofFinding store finding encoding moment)
  sources := sourceRoots (.ofFinding store finding encoding moment)
  packages := (packageNames store).map fun package => .of finding package (recordsIn store package)

section
variable {α β : Type} {read : Element → Option α} {inner : List Tag}

theorem tells_group {entries : List α} (told : Tells dialect true read (chars inner) entries)
    (depth : Nat) (name : String) (named : IsTagName name) (silent : name ≠ "source") :
    Tells dialect true (readGroup? name read)
      (chars (.start depth name [] :: inner ++ [.finish depth name]))
      [entries] := by
  obtain ⟨elements, shown, told⟩ := told
  refine .one (Shows.element shown named (by simp) silent) ?_
  rw [readGroup?, if_pos ⟨rfl, rfl, rfl⟩]
  exact told

/-- An element that holds one other. -/
theorem tells_around {read' : Element → Option β} {depth : Nat} {name : String}
    {attributes : Attributes} {entry : α} {entry' : β}
    (told : Tells dialect true read (chars inner) [entry]) (named : IsTagName name)
    (keys : ∀ pair ∈ attributes, IsKey pair.1) (silent : name ≠ "source")
    (known : ∀ child, read child = some entry →
      read' ⟨name, attributes, "", [child]⟩ = some entry') :
    Tells dialect true read'
      (chars (.start depth name attributes :: inner ++ [.finish depth name])) [entry'] := by
  obtain ⟨child, shown, told⟩ := told.exists_element
  exact .one (Shows.element shown named keys silent) (known child told)

end

private theorem readLine?_plain (number hits : Nat) :
    readLine? (.tag "line" [("number", toString number), ("hits", toString hits),
    ("branch", "false")]) =
      some ⟨number, hits, false, none⟩ := by
  simp only [Element.tag, readLine?, readNumber?_toString]
  rfl

private theorem readLine?_branch {number hits taken all : Nat} {shown : String}
    (counts : readCounts? shown = some (taken, all)) :
    readLine? (.tag "line" [("number", toString number),
    ("hits", toString hits), ("branch", "true"),
      ("condition-coverage", shown)]) = some ⟨number, hits, true, some (taken, all)⟩ := by
  simp only [Element.tag, readLine?, readNumber?_toString, counts]
  rfl

private theorem readCounts?_condition (share taken all : Nat) :
    readCounts? s!"{share}% ({taken}/{all})" = some (taken, all) := by
  refine readCounts?_of_chars ((toString share).toList ++ "% ".toList) [] ?_ ?_ (by simp) (by simp)
  · simp only [String.toList_append, pairChars, List.append_assoc]
    rfl
  · simp only [List.mem_append, not_or]
    exact ⟨not_mem_toString (by decide), by decide⟩

private theorem isEmpty_armsOn (record : Record) (line : UInt32) :
    (armsOn record line).isEmpty = !(record.branches.any fun arm => arm.line = line) := by
  rw [Bool.eq_iff_iff, List.isEmpty_iff, armsOn, List.filter_eq_nil_iff,
    Bool.not_eq_true', List.any_eq_false]

private theorem lineTag_eq (record : Record) (counter : LineCounter) :
    lineTag record counter =
      let arms := armsOn record counter.line
      let common := [("number", toString counter.line.toNat), ("hits", toString counter.hits.toNat)]
      if record.branches.any fun arm => arm.line = counter.line then
        let taken := arms.countP BranchCounter.taken
        .whole 6 "line" (common ++ [("branch", "true"),
          ("condition-coverage", s!"{percent (ratio taken arms.length)}% ({taken}/{arms.length})")])
      else .whole 6 "line" (common ++ [("branch", "false")]) := by
  have written : lineTag record counter =
      if (armsOn record counter.line).isEmpty then _ else _ := rfl
  rw [written, isEmpty_armsOn]
  cases record.branches.any fun arm => arm.line = counter.line <;> rfl

private theorem tells_line (record : Record) (counter : LineCounter) :
    Tells dialect true readLine? (chars [lineTag record counter]) [.of record counter] := by
  rw [lineTag_eq]
  unfold LineEntry.of
  cases record.branches.any fun arm => arm.line = counter.line with
  | false =>
    exact .one (Shows.whole (by decide) (isKey_of_names ["number", "hits",
      "branch"] rfl (by decide)))
      (readLine?_plain _ _)
  | true =>
    exact .one (Shows.whole (by decide)
      (isKey_of_names ["number", "hits", "branch", "condition-coverage"] rfl (by decide)))
      (readLine?_branch (readCounts?_condition _ _ _))

def ClassEntry.attributes (entry : ClassEntry) : Attributes :=
  [("name", entry.name), ("filename", entry.fileName), ("line-rate", entry.lineRate),
    ("branch-rate", entry.branchRate), ("complexity", toString entry.complexity)]

def PackageEntry.attributes (entry : PackageEntry) : Attributes :=
  [("name", entry.name), ("line-rate", entry.lineRate), ("branch-rate", entry.branchRate),
    ("complexity", toString entry.complexity)]

private theorem readClass?_of_lines {entry : ClassEntry} {lines : Element}
    (told : readGroup? "lines" readLine? lines = some entry.lines) :
    readClass? ⟨"class", entry.attributes, "", [lines]⟩ = some entry := by
  simp only [ClassEntry.attributes, readClass?, readNumber?_toString, told]
  rfl

private theorem readPackage?_of_classes {entry : PackageEntry} {classes : Element}
    (told : readGroup? "classes" readClass? classes = some entry.classes) :
    readPackage? ⟨"package", entry.attributes, "", [classes]⟩ = some entry := by
  simp only [PackageEntry.attributes, readPackage?, readNumber?_toString, told]
  rfl

private theorem classTags_eq (finding : Finding) (record : Record) :
    classTags (some record) (finding.summary record) =
      .start 4 "class" (ClassEntry.of finding record).attributes ::
        (.start 5 "lines" [] :: record.lines.map (lineTag record) ++ [.finish 5 "lines"]) ++
          [.finish 4 "class"] := by
  unfold classTags
  simp only [List.cons_append, List.nil_append, List.append_assoc]
  rfl

private theorem tells_class (finding : Finding) (record : Record) :
    Tells dialect true readClass? (chars (classTags (some record) (finding.summary record)))
      [.of finding record] := by
  have lines : Tells dialect true readLine? (chars (record.lines.map (lineTag record)))
      (record.lines.map (.of record)) := by
    rw [chars_map]
    exact .flatMap fun counter _ => tells_line record counter
  rw [classTags_eq]
  exact tells_around (tells_group lines 5 "lines" (by decide) (by decide)) (by decide)
    (isKey_of_names ["name", "filename", "line-rate", "branch-rate",
    "complexity"] rfl (by decide)) (by decide)
    fun child told => readClass?_of_lines told

private theorem packageTags_eq {store : Store} {finding : Finding} {package : String}
    {records : List Record} (known : ∀ record ∈ records, record ∈ store.records) :
    packageTags store package (records.map finding.summary) =
      .start 2 "package" (PackageEntry.of finding package records).attributes ::
        (.start 3 "classes" [] ::
          records.flatMap (fun record => classTags (some record) (finding.summary record)) ++
            [.finish 3 "classes"]) ++
        [.finish 2 "package"] := by
  have classes : (records.map finding.summary).flatMap (fun summary =>
      classTags (store.get? summary.name) summary) =
      records.flatMap fun record => classTags (some record) (finding.summary record) := by
    rw [List.flatMap_map]
    refine List.flatMap_congr fun record member => ?_
    have found : store.get? (finding.summary record).name = some record :=
      Store.get?_of_mem (known record member)
    rw [found]
  unfold packageTags
  simp only [List.cons_append, List.nil_append, List.append_assoc]
  rw [classes]
  simp only [PackageEntry.attributes, PackageEntry.of, complexities,
    List.filterMap_map, List.map_map]
  rfl

private theorem tells_package {store : Store} {finding : Finding} {package : String}
    {records : List Record} (known : ∀ record ∈ records, record ∈ store.records) :
    Tells dialect true readPackage?
      (chars (packageTags store package (records.map finding.summary)))
      [.of finding package records] := by
  have classes : Tells dialect true readClass?
      (chars (records.flatMap fun record => classTags (some record) (finding.summary record)))
      (records.map (.of finding)) := by
    rw [chars_flatMap]
    exact .flatMap fun record _ => tells_class finding record
  rw [packageTags_eq known]
  exact tells_around (tells_group classes 3 "classes" (by decide) (by decide)) (by decide)
    (isKey_of_names ["name", "line-rate", "branch-rate", "complexity"] rfl (by decide)) (by decide)
    fun child told => readPackage?_of_classes told

private theorem tells_source (root : String) :
    Tells dialect true readSource? (chars [.text 2 "source" root]) [root] :=
  .one (Shows.text root) rfl

def Totals.attributes (totals : Totals) : Attributes :=
  [("line-rate", totals.lineRate), ("branch-rate", totals.branchRate),
    ("lines-covered", toString totals.linesCovered), ("lines-valid", toString totals.linesValid),
    ("branches-covered", toString totals.branchesCovered),
    ("branches-valid", toString totals.branchesValid),
    ("complexity", toString totals.complexity), ("version", totals.version),
    ("timestamp", totals.timestamp)]

theorem readTotals?_attributes (totals : Totals) : readTotals? totals.attributes = some totals := by
  simp only [Totals.attributes, readTotals?, readNumber?_toString]
  rfl

private theorem coverageAttributes_eq (context : Context) :
    coverageAttributes context = (Totals.of context).attributes := rfl

theorem isKey_totals (totals : Totals) : ∀ pair ∈ totals.attributes, IsKey pair.1 :=
  isKey_of_names ["line-rate", "branch-rate", "lines-covered", "lines-valid",
    "branches-covered", "branches-valid",
    "complexity", "version", "timestamp"] rfl (by decide)

/-- The declaration that a document starts with, and the blank behind it. -/
theorem reads_declaration (context : Context) :
    Reads dialect true (declaration context).toList ""
      [.tag "?xml" [("version", "1.0"), ("encoding", context.encoding)]] := by
  have written : (declaration context).toList =
      declarationChars escapeChar "?xml" [("version", "1.0"),
      ("encoding", context.encoding)] ++ ['\n'] := by
    have opens : "<?xml version=\"1.0\" encoding=\"".toList = '<' :: ("?xml".toList ++
        (attributeChars escapeChar ("version", "1.0") ++
          ' ' :: ("encoding".toList ++ ['=', '"']))) := by decide
    have ends : "\"?>\n".toList = ['"', '?', '>', '\n'] := by decide
    unfold declaration
    rw [String.toList_append, String.toList_append, toList_escape, opens, ends,
      declarationChars, List.flatMap_cons,
      List.flatMap_singleton, attributeChars.eq_1 escapeChar ("encoding", context.encoding)]
    simp only [List.append_assoc, List.cons_append, List.nil_append]
  rw [written]
  exact (Reads.declaration escaped_escapeChar (by decide)
    (isKey_of_names ["version", "encoding"] rfl (by decide))).before_blank rfl

private theorem toList_render (context : Context) :
    (render context).toList = (declaration context).toList ++ chars (tags context) := by
  rw [render, String.toList_append, String.toList_join, List.flatMap_map]
  rfl

private theorem tags_eq (store : Store) (finding : Finding) (encoding : String) (moment : Moment) :
    tags (.ofFinding store finding encoding moment) =
      .start 0 "coverage" (Totals.of (.ofFinding store finding encoding moment)).attributes ::
        ((.start 1 "sources" [] ::
          (sourceRoots (.ofFinding store finding encoding moment)).map (.text 2 "source") ++
            [.finish 1 "sources"]) ++
        (.start 1 "packages" [] ::
          (packageNames store).flatMap (fun package =>
            packageTags store package ((recordsIn store package).map finding.summary)) ++
              [.finish 1 "packages"])) ++
        [.finish 0 "coverage"] := by
  unfold tags
  rw [packages_ofFinding, List.flatMap_map, coverageAttributes_eq]
  simp only [List.cons_append, List.nil_append, List.append_assoc]
  rfl

/-- The document of a store is read as what it was written from. -/
theorem readDocument?_render (store : Store) (finding : Finding) (encoding : String)
    (moment : Moment) :
    readDocument? (render (.ofFinding store finding encoding moment)) =
      some (.of store finding encoding moment) := by
  have roots : Tells dialect true readSource?
      (chars ((sourceRoots (.ofFinding store finding encoding moment)).map (.text 2 "source")))
      ((sourceRoots (.ofFinding store finding encoding moment)).map id) := by
    rw [chars_map]
    exact .flatMap fun root _ => tells_source root
  have packages : Tells dialect true readPackage?
      (chars ((packageNames store).flatMap fun package =>
        packageTags store package ((recordsIn store package).map finding.summary)))
      ((packageNames store).map fun package => .of finding package (recordsIn store package)) := by
    rw [chars_flatMap]
    exact .flatMap fun package _ => tells_package fun record member => (List.mem_filter.mp member).1
  rw [List.map_id] at roots
  obtain ⟨sources, shownSources, toldSources⟩ :=
    (tells_group roots 1 "sources" (by decide) (by decide)).exists_element
  obtain ⟨groups, shownGroups, toldGroups⟩ :=
    (tells_group packages 1 "packages" (by decide) (by decide)).exists_element
  have coverage : Shows (tags (.ofFinding store finding encoding moment))
      [⟨"coverage", (Totals.of (.ofFinding store finding encoding moment)).attributes, "",
      [sources, groups]⟩] := by
    rw [tags_eq]
    exact (Shows.append shownSources shownGroups).element (by decide) (isKey_totals _) (by decide)
  have whole := (reads_declaration (.ofFinding store finding encoding moment)).append coverage
  rw [← toList_render] at whole
  unfold readDocument?
  rw [read_of_reads whole]
  simp only [Element.tag, List.singleton_append, readTotals?_attributes, toldSources, toldGroups]
  rfl

theorem readSummary?_renderSummary (context : Context) :
    readSummary? (renderSummary context) = some (.of context) := by
  have root : Shows [.whole 0 "coverage" (coverageAttributes context)]
      [.tag "coverage" (coverageAttributes context)] :=
    .whole (by decide) (isKey_totals (.of context))
  have whole := (reads_declaration context).append root
  have written : (renderSummary context).toList =
      (declaration context).toList ++ chars [.whole 0 "coverage" (coverageAttributes context)] := by
    rw [renderSummary, String.toList_append, chars, List.flatMap_singleton]
  rw [← written] at whole
  unfold readSummary?
  rw [read_of_reads whole]
  simp only [Element.tag, List.singleton_append, coverageAttributes_eq, readTotals?_attributes]

/-- The classes of a document with their line counters. -/
def Document.counted (document : Document) : List (String × List LineCounter) :=
  document.packages.flatMap fun package => package.classes.map fun entry =>
    (entry.name, entry.lines.map fun line =>
      { line := .ofNat line.number, hits := .ofNat line.hits })

private theorem perm_counted (store : Store) (finding : Finding) (encoding : String)
    (moment : Moment) :
    (Document.of store finding encoding moment).counted.Perm
      (store.records.map fun record => (record.name, record.lines)) := by
  have counter (record : Record) (counter : LineCounter) : ({
      line := .ofNat (LineEntry.of record counter).number
      hits := .ofNat (LineEntry.of record counter).hits } : LineCounter) = counter := by
    simp [LineEntry.of]
  have entry (record : Record) :
      ((ClassEntry.of finding record).name, (ClassEntry.of finding record).lines.map fun line =>
        ({ line := .ofNat line.number, hits := .ofNat line.hits } : LineCounter)) =
          (record.name, record.lines) := by
    simp only [ClassEntry.of, List.map_map, Function.comp_def, counter, List.map_id']
  have counted : (Document.of store finding encoding moment).counted =
      ((packageNames store).flatMap (recordsIn store)).map fun record =>
      (record.name, record.lines) := by
    simp only [Document.counted, Document.of, PackageEntry.of, List.flatMap_map,
      List.map_flatMap, List.map_map]
    exact List.flatMap_congr fun package _ => List.map_congr_left fun record _ => entry record
  rw [counted]
  exact (perm_recordsIn store).map _

private theorem counted_increasing (store : Store) :
    (store.records.map fun record => (record.name, record.lines)).Pairwise fun one other =>
    one.1 < other.1 :=
  List.pairwise_map.mpr store.increasing

private theorem lines_eq_of_document {store store' : Store} {finding finding' : Finding}
    {encoding encoding' : String} {moment moment' : Moment}
    (same : Document.of store' finding' encoding' moment' =
      Document.of store finding encoding moment) :
    (store'.records.map fun record => (record.name, record.lines)) =
      store.records.map fun record => (record.name, record.lines) := by
  have first := perm_counted store' finding' encoding' moment'
  rw [same] at first
  refine (first.symm.trans (perm_counted store finding encoding moment)).eq_of_pairwise ?_
    (counted_increasing store') (counted_increasing store)
  intro one other _ _ less more
  exact absurd (String.lt_trans less more) (String.lt_irrefl one.1)

/-- Whatever the classes and their source files are called, the report can be read back, and tells
of every class under its package the name, the file name and every line counter. -/
theorem render_reads_back (store : Store) (finding : Finding) (encoding : String)
    (moment : Moment) :
    readDocument? (render (.ofFinding store finding encoding moment)) =
      some (.of store finding encoding moment) ∧
    ((packageNames store).Pairwise fun one other =>
    Utf8.encode one.toList < Utf8.encode other.toList) ∧
    (∀ package, package ∈ packageNames store ↔ ∃ record ∈ store.records,
    record.packageName = package) ∧
    (∀ package record, record ∈ recordsIn store package ↔ record ∈ store.records ∧
    record.packageName = package) ∧
    (∀ package, (recordsIn store package).Pairwise fun one other =>
      Utf8.encode one.name.toList < Utf8.encode other.name.toList) ∧
    (∀ lookup disk, ∃ stats, summarize store lookup disk =
      store.records.map (Finding.of lookup disk stats).summary) ∧
    ∀ store' finding' encoding' moment',
      render (.ofFinding store' finding' encoding' moment') =
        render (.ofFinding store finding encoding moment) →
      (store'.records.map fun record => (record.name, record.lines)) =
        store.records.map fun record => (record.name, record.lines) := by
  refine ⟨readDocument?_render store finding encoding moment, packageNames_increasing store,
    fun package => mem_packageNames_iff, fun package record => ?_, fun package => ?_,
    fun lookup disk => summarize_eq store lookup disk, ?_⟩
  · simp [recordsIn]
  · exact (store.increasing.filter _).imp Utf8.encode_lt_encode
  · intro store' finding' encoding' moment' same
    have told := readDocument?_render store' finding' encoding' moment'
    rw [same, readDocument?_render] at told
    exact lines_eq_of_document (Option.some_inj.mp told).symm

end ClassCoverage.Report.Xml
