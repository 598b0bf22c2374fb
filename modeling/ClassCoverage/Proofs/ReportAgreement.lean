import ClassCoverage.Proofs.HtmlReading
import ClassCoverage.Proofs.TableReading
import ClassCoverage.Proofs.XmlReport

/-! All reports of a store tell the same. Every class stands once in its package, and the totals of
each report are the sums of what it shows of the packages and classes. -/
namespace ClassCoverage.Report

def Xml.Totals.counts (totals : Xml.Totals) : Counts :=
  ⟨totals.linesCovered, totals.linesValid, totals.branchesCovered, totals.branchesValid⟩

/-- What each report of a context tells, and the store it tells of. -/
structure Context.Agrees (context : Context) (store : Store) : Prop where
  classes : context.classes.map (fun summary => (summary.name, summary.package, summary.counts)) =
    store.records.map fun record => (record.name, record.packageName, Counts.ofRecord record)
  increasing : (context.packages.map Prod.fst).Pairwise fun one other =>
    Utf8.encode one.toList < Utf8.encode other.toList
  filled : ∀ group ∈ context.packages, group.2 ≠ []
  own : ∀ group ∈ context.packages, ∀ summary ∈ group.2, summary.package = group.1
  ordered : ∀ group ∈ context.packages, group.2.Pairwise fun one other =>
    Utf8.encode one.name.toList < Utf8.encode other.name.toList
  once : (context.packages.flatMap Prod.snd).Perm context.classes
  sum : Counts.sum (context.classes.map ClassSummary.counts) = .ofStore store
  packageSum : Counts.sum (context.packages.map fun group =>
    Counts.sum (group.2.map ClassSummary.counts)) =
    .ofStore store
  /-- Of the counts of a class the report in XML shows the lines, each as an element. -/
  xml : ∃ document, Xml.readDocument? (Xml.render context) = some document ∧
    document.totals.counts = .ofStore store ∧
    (document.packages.map fun package => (package.name, package.classes.map fun entry =>
      (entry.name, entry.lines.length, entry.lines.countP (0 < ·.hits), entry.lineRate,
        entry.branchRate))) =
    context.packages.map fun group => (group.1, group.2.map fun summary =>
      (summary.name, summary.linesValid, summary.linesCovered, Xml.rateText summary.lineRate,
        Xml.rateText summary.branchRate))
  xmlSummary : ∃ totals, Xml.readSummary? (Xml.renderSummary context) = some totals ∧
    totals.counts = .ofStore store
  html : Html.readPage? (Html.render context) = some
    ⟨.ofStore store, context.packages.map fun group =>
      ⟨if group.1.isEmpty then "(default package)" else group.1, group.2.map fun summary =>
        ⟨summary.name, summary.counts⟩⟩⟩
  textTotal : Table.readTotals? (Table.render context) = some (.ofStore store)
  /-- Nothing stands between the titles of the table and its lower edge but one row for each
  class. -/
  textRows : ∃ widths rows, widths.length = Table.titles.length ∧
    Table.render context =
      Table.opening context widths ++ String.join rows ++ Table.closing context widths ∧
    List.Forall₂ (fun row summary => Table.readRow? summary.name row = some summary.counts) rows
      context.classes

private theorem figures_of (finding : Finding) (record : Record) :
    ((Xml.ClassEntry.of finding record).name, (Xml.ClassEntry.of finding record).lines.length,
      (Xml.ClassEntry.of finding record).lines.countP (0 < ·.hits),
      (Xml.ClassEntry.of finding record).lineRate,
      (Xml.ClassEntry.of finding record).branchRate) =
    ((finding.summary record).name, (finding.summary record).linesValid,
    (finding.summary record).linesCovered,
      Xml.rateText (finding.summary record).lineRate,
      Xml.rateText (finding.summary record).branchRate) := by
  have covered : (Xml.ClassEntry.of finding record).lines.countP (0 < ·.hits) =
      record.linesCovered := by
    rw [Xml.ClassEntry.of, List.countP_map]
    exact List.countP_congr fun counter _ => by
      simp [Xml.LineEntry.of, LineCounter.covered, UInt64.lt_iff_toNat_lt]
  have valid : (Xml.ClassEntry.of finding record).lines.length = record.lines.length :=
    List.length_map _
  rw [covered, valid]
  rfl

private theorem agrees_ofFinding (store : Store) (finding : Finding) (encoding : String)
    (moment : Moment) :
    (Context.ofFinding store finding encoding moment).Agrees store := by
  have packages := packages_ofFinding store finding encoding moment
  have counts : (fun record => (finding.summary record).counts) = Counts.ofRecord := rfl
  have once : ((Context.ofFinding store finding encoding moment).packages.flatMap Prod.snd).Perm
      (Context.ofFinding store finding encoding moment).classes := by
    rw [packages, List.flatMap_map, ← List.map_flatMap]
    exact (perm_recordsIn store).map finding.summary
  have sum : Counts.sum ((Context.ofFinding store finding encoding moment).classes.map
      ClassSummary.counts) =
      .ofStore store := by
    rw [← Counts.sum_records store]
    simp only [Context.ofFinding, List.map_map]
    rfl
  exact {
    classes := by
      simp only [Context.ofFinding, List.map_map]
      rfl
    increasing := by
      rw [packages, List.map_map]
      simpa [Function.comp_def] using packageNames_increasing store
    filled := by
      rw [packages]
      intro group member
      obtain ⟨package, known, rfl⟩ := List.mem_map.mp member
      obtain ⟨record, member, own⟩ := mem_packageNames_iff.mp known
      have listed : record ∈ recordsIn store package := by simp [recordsIn, member, own]
      exact List.ne_nil_of_mem (List.mem_map_of_mem listed)
    own := by
      rw [packages]
      intro group member summary listed
      obtain ⟨package, known, rfl⟩ := List.mem_map.mp member
      obtain ⟨record, inside, rfl⟩ := List.mem_map.mp listed
      exact of_decide_eq_true (List.mem_filter.mp inside).2
    ordered := by
      rw [packages]
      intro group member
      obtain ⟨package, known, rfl⟩ := List.mem_map.mp member
      exact List.pairwise_map.mpr ((store.increasing.filter _).imp Utf8.encode_lt_encode)
    once := once
    sum := sum
    packageSum := by
      rw [← sum, ← Counts.sum_perm (once.map ClassSummary.counts),
        List.map_flatMap, Counts.sum_flatMap]
    xml := by
      refine ⟨_, Xml.readDocument?_render store finding encoding moment, rfl, ?_⟩
      rw [packages]
      simp only [Xml.Document.of, Xml.PackageEntry.of, List.map_map]
      refine List.map_congr_left fun package _ => ?_
      simp only [Function.comp_apply, List.map_map, Prod.mk.injEq, true_and]
      exact List.map_congr_left fun record _ => figures_of finding record
    xmlSummary := ⟨_, Xml.readSummary?_renderSummary _, rfl⟩
    html := by
      rw [Html.readPage?_render, packages, List.map_map]
      simp only [Function.comp_def, List.map_map]
      rfl
    textTotal := Table.readTotals?_render _
    textRows := Table.render_rows _ }

/-- The numbers that stand in the element of a class. -/
def Xml.ClassEntry.numbers (entry : Xml.ClassEntry) : List Nat :=
  entry.attributes.filterMap (fun pair => readNumber? pair.2.toList) ++
    entry.lines.flatMap fun line => line.number :: line.hits :: match line.arms with
      | some (taken, all) => [taken, all]
      | none => []

private theorem readNumber?_eq_none {text : List Char} (char : Char) (sign : char.isDigit = false)
    (member : char ∈ text) :
    readNumber? text = none := by
  have plain : text.all Char.isDigit = false := List.all_eq_false.mpr ⟨char, member, by simp [sign]⟩
  rw [readNumber?, plain]
  simp

/-- A rate is no whole number: it is written with a point, if it is a number at all. -/
theorem readNumber?_rateText (rate : Float) : readNumber? (Xml.rateText rate).toList = none := by
  have point (scaled : Nat) : '.' ∈ (Decimal.ofScaled 4 scaled).toList := by
    have mark : '.' ∈ (toString ".").toList := by decide
    simp [Decimal.ofScaled, mark]
  unfold Xml.rateText Decimal.fixed
  dsimp only
  split
  · split
    · exact readNumber?_eq_none 'i' (by decide) (by simp)
    · exact readNumber?_eq_none 'N' (by decide) (by simp)
  · rw [String.toList_append]
    exact readNumber?_eq_none '.' (by decide) (List.mem_append_right _ (point _))

private theorem summarize_of_noRoots (store : Store) (disk : Disk) :
    summarize store { roots := [] } disk = store.records.map (Finding.summary fun _ =>
    (none, none)) := by
  have nothing (record : Record) :
      SourceLookup.resolveRecord { roots := [] } disk record = none := by
    simp [SourceLookup.resolveRecord, SourceLookup.resolve, SourceLookup.resolveFile,
      SourceLookup.findInRoots]
  rw [summarize_afresh]
  refine List.map_congr_left fun record _ => ?_
  rw [afresh, nothing record]
  rfl

/-- A class with branches on a line that is not counted. Three of its five arms were taken. -/
def armsAlone : Record where
  name := "A"
  branches := [⟨1, 0, true⟩, ⟨1, 1, true⟩, ⟨1, 2, true⟩, ⟨1, 3, false⟩, ⟨1, 4, false⟩]

private theorem numbers_armsAlone :
    (Xml.ClassEntry.of (fun _ => (none, none)) armsAlone).numbers = [0] := by
  have spelled : (Xml.ClassEntry.of (fun _ => (none, none)) armsAlone).attributes =
      [("name", "A"), ("filename", "A.java"), ("line-rate", Xml.rateText armsAlone.lineRate),
        ("branch-rate", Xml.rateText armsAlone.branchRate), ("complexity", toString 0)] := by
    rfl
  have name : readNumber? "A".toList = none := by decide
  have file : readNumber? "A.java".toList = none := by decide
  have lines : (Xml.ClassEntry.of (fun _ => (none, none)) armsAlone).lines = [] := rfl
  rw [Xml.ClassEntry.numbers, spelled, lines]
  simp only [List.filterMap_cons, List.filterMap_nil, name, file, readNumber?_rateText,
    readNumber?_toString,
    List.flatMap_nil, List.append_nil]

/-- Whatever is found of the source files, no report drops a class or a counter from the totals. -/
theorem reports_agree (store : Store) (lookup : SourceLookup) (disk : Disk) (encoding : String)
    (moment : Moment) :
    (Context.mk store (summarize store lookup disk) encoding moment).Agrees store := by
  obtain ⟨stats, summarized⟩ := summarize_eq store lookup disk
  rw [summarized]
  exact agrees_ofFinding store (Finding.of lookup disk stats) encoding moment

/-- The report in XML shows of the arms of a class only the rate: how many were taken, and how many
there are, need not stand in its element. -/
theorem branch_counts_left_out :
    ¬ ∀ (store : Store) (lookup : SourceLookup) (disk : Disk) (encoding : String) (moment : Moment),
      ∀ record ∈ store.records, ∃ document,
        Xml.readDocument? (Xml.render ⟨store, summarize store lookup disk, encoding,
        moment⟩) = some document ∧
        ∃ entry ∈ document.packages.flatMap Xml.PackageEntry.classes, entry.name = record.name ∧
          ∀ count ∈ [record.linesCovered, record.lines.length, record.branchesCovered,
            record.branches.length], count ∈ entry.numbers := by
  intro listed
  obtain ⟨document, read, entry, member, -, counts⟩ :=
    listed (.single armsAlone) { roots := [] } default "UTF-8" 0 armsAlone
      (List.mem_singleton.mpr rfl)
  rw [summarize_of_noRoots] at read
  have own := Xml.readDocument?_render (.single armsAlone) (fun _ => (none, none)) "UTF-8" 0
  rw [Context.ofFinding, read] at own
  cases own
  obtain ⟨package, listedPackage, listedClass⟩ := List.mem_flatMap.mp member
  obtain ⟨name, -, rfl⟩ := List.mem_map.mp listedPackage
  obtain ⟨record, inside, rfl⟩ := List.mem_map.mp listedClass
  have only : record = armsAlone := List.mem_singleton.mp (List.mem_filter.mp inside).1
  subst only
  have five := counts 5 (by decide)
  rw [numbers_armsAlone] at five
  exact absurd five (by decide)

end ClassCoverage.Report
