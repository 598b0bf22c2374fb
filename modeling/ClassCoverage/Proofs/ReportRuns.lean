import ClassCoverage.Report
import ClassCoverage.Proofs.MetadataSave
import ClassCoverage.Proofs.SourcePlaces

/-! Report runs. What is asked for is understood before anything is read, and the data is read
before anything is written, so that a run either leaves the disk as it is or writes the documents
that were asked for and no others. -/
namespace ClassCoverage

namespace Report.Format

/-- The names a format is asked for by, in small letters. -/
def aliases : Format → List String
  | html => ["html"]
  | xml => ["xml"]
  | summaryXml => ["summaryxml", "summary-xml"]
  | txt => ["txt", "text"]

def Named (format : Format) (name : String) : Prop := Text.lower name ∈ format.aliases

instance (format : Format) (name : String) : Decidable (format.Named name) :=
  inferInstanceAs (Decidable (_ ∈ _))

/-- Without names the usual formats are asked for. -/
def Asked (names : List String) (format : Format) : Prop :=
  (names = [] ∧ format ∈ defaults) ∨ ∃ name ∈ names, format.Named name

instance (names : List String) (format : Format) : Decidable (Asked names format) :=
  inferInstanceAs (Decidable (_ ∨ _))

theorem ofName_eq_ok_iff {name : String} {format : Format} :
    ofName name = .ok format ↔ format.Named name := by
  unfold ofName Named
  split <;> cases format <;> simp_all [aliases]

private theorem isConfiguration_of_ofName {name : String} {failure : Failure}
    (refused : ofName name = .error failure) :
    failure.isConfiguration = true := by
  unfold ofName at refused
  split at refused <;> cases refused
  rfl

/-- Known names stand for the formats they name. -/
theorem mapM_ofName {names : List String}
    (known : ∀ name ∈ names, ∃ format : Format, format.Named name) :
    ∃ requested, names.mapM ofName = .ok requested ∧
      ∀ format, format ∈ requested ↔ ∃ name ∈ names, format.Named name := by
  induction names with
  | nil => exact ⟨[], rfl, by simp⟩
  | cons name names ih =>
    obtain ⟨first, named⟩ := known name (List.mem_cons_self ..)
    obtain ⟨others, read, asked⟩ := ih fun other member =>
      known other (List.mem_cons_of_mem name member)
    have own := ofName_eq_ok_iff.mpr named
    refine ⟨first :: others, ?_, fun format => ?_⟩
    · rw [List.mapM_cons, own, read]
      rfl
    · have same : format = first ↔ format.Named name := by
        rw [← ofName_eq_ok_iff, own, Except.ok.injEq, eq_comm]
      simp only [List.mem_cons, same, asked, exists_eq_or_imp]

/-- One unknown name is enough for a refusal. -/
theorem mapM_ofName_error {names : List String}
    (unknown : ∃ name ∈ names, ∀ format : Format, ¬ format.Named name) :
    ∃ failure, names.mapM ofName = .error failure ∧ failure.isConfiguration = true := by
  induction names with
  | nil => simp at unknown
  | cons name names ih =>
    cases own : ofName name with
    | error failure =>
      refine ⟨failure, ?_, isConfiguration_of_ofName own⟩
      rw [List.mapM_cons, own]
      rfl
    | ok format =>
      obtain ⟨other, member, stranger⟩ := unknown
      rcases List.mem_cons.mp member with rfl | member
      · exact absurd (ofName_eq_ok_iff.mp own) (stranger format)
      · obtain ⟨failure, refused, configuration⟩ := ih ⟨other, member, stranger⟩
        refine ⟨failure, ?_, configuration⟩
        rw [List.mapM_cons, own, refused]
        rfl

theorem ofNames_ok {names : List String}
    (known : ∀ name ∈ names, ∃ format : Format, format.Named name) :
    ∃ requested, ofNames names = .ok requested ∧ ∀ format, format ∈ requested ↔
      Asked names format := by
  cases names with
  | nil => exact ⟨defaults, rfl, by simp [Asked]⟩
  | cons name names =>
    obtain ⟨requested, read, asked⟩ := mapM_ofName known
    refine ⟨requested, read, fun format => ?_⟩
    rw [asked, Asked]
    simp

private theorem ofNames_error {names : List String}
    (unknown : ∃ name ∈ names, ∀ format : Format, ¬ format.Named name) :
    ∃ failure, ofNames names = .error failure ∧ failure.isConfiguration = true := by
  cases names with
  | nil => simp at unknown
  | cons name names => exact mapM_ofName_error unknown

/-- The formats to render, in the order of rendering. -/
def selected (names : List String) : Dispatch → List Format
  | .all => [html, xml, summaryXml, txt].filter (Asked names ·)
  | .firstMatch => ([html, xml, summaryXml].filter (Asked names ·)).take 1

theorem select_eq {names : List String} {requested : List Format}
    (asked : ∀ format, format ∈ requested ↔ Asked names format) (dispatch : Dispatch) :
    dispatch.select requested = selected names dispatch := by
  cases dispatch with
  | all => simp only [Dispatch.select, all, selected, asked]
  | firstMatch => simp only [Dispatch.select, selected, asked, List.take_one, List.head?_filter]

/-- Nothing counts but which formats are asked for. -/
theorem selected_congr {names names' : List String}
    (same : ∀ format, Asked names format ↔ Asked names' format) (dispatch : Dispatch) :
    selected names dispatch = selected names' dispatch := by
  cases dispatch <;> simp only [selected, same]

theorem nodup_selected (names : List String) (dispatch : Dispatch) :
    (selected names dispatch).Nodup := by
  cases dispatch with
  | all =>
    have distinct : [html, xml, summaryXml, txt].Nodup := by decide
    exact distinct.sublist List.filter_sublist
  | firstMatch =>
    have distinct : [html, xml, summaryXml].Nodup := by decide
    exact distinct.sublist ((List.take_sublist 1 _).trans List.filter_sublist)

/-- The file of a document in a directory. -/
def fileIn (format : Format) (directory : Path) : Path := directory.join ⟨format.fileName⟩

theorem fileName_injective {one other : Format}
    (same : one.fileName = other.fileName) : one = other := by
  cases one <;> cases other <;> first | rfl | exact absurd same (by decide)

end Report.Format

namespace Charset

/-- Reports in the encoding of a label are written in the set. -/
def Serves (charset : Charset) (label : String) : Prop :=
  let trimmed := Text.onChars (Text.trim Text.isBlank) label
  ofLabel? (if trimmed.isEmpty then defaultLabel else trimmed) = some charset ∧ charset.isFit = true

theorem ofReportLabel_eq_ok_iff {label : String} {charset : Charset} :
    ofReportLabel label = .ok charset ↔ charset.Serves label := by
  unfold ofReportLabel Serves
  simp only
  split
  · rename_i found known
    rw [known, Option.some.injEq]
    split
    · rename_i fit
      rw [Except.ok.injEq]
      exact ⟨fun same => ⟨same, same ▸ fit⟩, And.left⟩
    · rename_i unfit
      constructor
      · intro impossible
        cases impossible
      · rintro ⟨rfl, fit⟩
        exact absurd fit unfit
  · rename_i unknown
    rw [unknown]
    simp

private theorem isConfiguration_of_ofReportLabel {label : String} {failure : Failure}
    (refused : ofReportLabel label = .error failure) : failure.isConfiguration = true := by
  unfold ofReportLabel at refused
  simp only at refused
  split at refused
  · split at refused <;> cases refused
    rfl
  · cases refused
    rfl

end Charset

namespace Report

/-- The label a document declares names the encoding it is written in. -/
theorem ofReportLabel_declaredLabel (label : String) :
    Charset.ofReportLabel (declaredLabel label) = Charset.ofReportLabel label := by
  unfold declaredLabel
  split
  · rename_i blank
    have nothing : Text.onChars (Text.trim Text.isBlank) label = "" := by
      rw [Text.onChars, List.isEmpty_iff.mp blank]
    unfold Charset.ofReportLabel
    have usual : Text.onChars (Text.trim Text.isBlank) Charset.defaultLabel =
        Charset.defaultLabel := by decide
    rw [nothing, usual]
    rfl
  · rfl

namespace Options

/-- Every format and the encoding are known, and the encoding can hold a report. -/
structure Understood (options : Options) : Prop where
  formats : ∀ name ∈ options.formats, ∃ format : Format, format.Named name
  encoding : ∃ charset : Charset, charset.Serves options.encoding

/-- The formats a run renders. -/
def selected (options : Options) : List Format := Format.selected options.formats options.dispatch

/-- What the documents of a run show. -/
def context (options : Options) (store : Store) (now : Moment) (disk : Disk) : Context where
  store := store
  classes :=
    summarize store { SourceLookup.ofExisting options.sourceRoots
      disk with alternates := options.alternates } disk
  encoding := declaredLabel options.encoding
  generatedAt := now

/-- What a run does once its options are understood. -/
def report [Charset.Coders] (options : Options) (now : Moment) : Action (List Path) := do
  if options.selected.isEmpty then return []
  match ← Metadata.load options.metadataFile with
  | none => return []
  | some store =>
    renderAll (options.context store now (← get)) options.selected options.outputDirectory

end Options

theorem run_of_understood [Charset.Coders] {options : Options} (understood : options.Understood)
    (now : Moment) (disk : Disk) :
    (run options now).run.run disk = (options.report now).run.run disk := by
  obtain ⟨requested, read, asked⟩ := Format.ofNames_ok understood.formats
  obtain ⟨charset, serves⟩ := understood.encoding
  have chosen : options.dispatch.select requested = options.selected := Format.select_eq asked _
  unfold run Options.report
  rw [read, Charset.ofReportLabel_eq_ok_iff.mpr serves, ← chosen]
  rfl

/-- What is not understood is refused before the disk is looked at. -/
theorem run_of_not_understood [Charset.Coders] {options : Options}
    (strange : ¬ options.Understood) (now : Moment) : ∃ failure, failure.isConfiguration = true ∧
      ∀ disk, (run options now).run.run disk = (.error failure, disk) := by
  by_cases known : ∀ name ∈ options.formats, ∃ format : Format, format.Named name
  · cases label : Charset.ofReportLabel options.encoding with
    | ok charset => exact absurd ⟨known, charset, Charset.ofReportLabel_eq_ok_iff.mp label⟩ strange
    | error failure =>
      obtain ⟨requested, read, -⟩ := Format.ofNames_ok known
      refine ⟨failure, Charset.isConfiguration_of_ofReportLabel label, fun disk => ?_⟩
      unfold run
      rw [read, label]
      rfl
  · push Not at known
    obtain ⟨failure, refused, configuration⟩ := Format.ofNames_error known
    refine ⟨failure, configuration, fun disk => ?_⟩
    unfold run
    rw [refused]
    rfl

theorem getLast?_segments_fileIn (format : Format) (directory : Path) :
    (format.fileIn directory).segments.getLast? = some format.fileName := by
  have single : (⟨format.fileName⟩ : Path).segments = [] ++ [format.fileName] := by
    cases format <;> decide
  obtain ⟨earlier, joined⟩ := Path.exists_segments_join directory single
  rw [Format.fileIn, joined, List.getLast?_concat]

/-- The file of a document has the name of its format, wherever its path lands. -/
theorem getLast?_of_lands {disk : Disk} {directory : Path} {format : Format} {place : Place}
    (lands : disk.Lands (format.fileIn directory) place) :
    place.getLast? = some format.fileName := by
  obtain ⟨front, name, above, split, -, -, rfl⟩ := lands
  rw [← getLast?_segments_fileIn format directory, split, List.getLast?_concat,
    List.getLast?_concat]

/-- Different documents have different files. -/
theorem nodup_map_fileIn {formats : List Format} (different : formats.Nodup) (directory : Path) :
    (formats.map (·.fileIn directory)).Nodup := by
  refine List.pairwise_map.mpr (different.imp fun {one other} apart same => apart ?_)
  apply Format.fileName_injective
  apply Option.some.inj
  rw [← getLast?_segments_fileIn one directory, same, getLast?_segments_fileIn]

def document [Charset.Coders] (charset : Charset) (context : Context) (format : Format) : Bytes :=
  charset.encode (render format context).toList

/-- Every document lies in its file on the second disk, and at all other places nothing is new. -/
structure Written (directory : Path) (content : Format → Bytes) (formats : List Format)
    (disk disk' : Disk) :
    Prop where
  keeps : disk.Keeps disk'
  documents : ∀ format ∈ formats, ∃ place, disk'.Lands (format.fileIn directory) place ∧
    disk'.kind? place = some (.file (content format))
  elsewhere : ∀ place, (∀ format ∈ formats, ¬ disk'.Lands (format.fileIn directory) place) →
    disk'.kind? place = disk.kind? place

section
variable [Charset.Coders] {charset : Charset} {context : Context} {directory : Path} {disk : Disk}

private theorem run_writeFormat {format : Format} {place : Place}
    (lands : disk.Lands (format.fileIn directory) place)
      (free : disk.kind? place ≠ some .directory) :
    (writeFormat charset context directory format).run.run disk =
      (.ok (format.fileIn directory), disk.putFile (document charset context format) place) := by
  have writes := lands.write free (document charset context format)
  unfold writeFormat
  simp only
  rw [Steps.run_bind, Action.run_change_ok writes]
  rfl

private theorem run_writeFormats (rooted : disk.Rooted) {formats : List Format}
    (different : formats.Nodup)
    (free : ∀ format ∈ formats, ∃ place, disk.Lands (format.fileIn directory) place ∧
      disk.kind? place ≠ some .directory) :
    ∃ disk', (formats.mapM (writeFormat charset context directory)).run.run disk =
        (.ok (formats.map (·.fileIn directory)), disk') ∧
      Written directory (document charset context) formats disk disk' := by
  induction formats generalizing disk with
  | nil => exact ⟨disk, rfl, .refl disk, by simp, fun _ _ => rfl⟩
  | cons format formats ih =>
    obtain ⟨new, different⟩ := List.nodup_cons.mp different
    obtain ⟨place, lands, open_⟩ := free format (List.mem_cons_self ..)
    have first := lands.written rooted open_ (document charset context format)
    have others : ∀ other ∈ formats, ∃ own,
        (disk.putFile (document charset context format) place).Lands (other.fileIn directory) own ∧
          (disk.putFile (document charset context format) place).kind? own ≠ some .directory := by
      intro other member
      obtain ⟨own, lands', open'⟩ := free other (List.mem_cons_of_mem format member)
      refine ⟨own, lands'.keep first.keeps, ?_⟩
      rw [first.kinds]
      split
      · simp
      · exact open'
    obtain ⟨disk', run, later⟩ := ih (rooted.keep first.keeps) different others
    have lands' := (lands.keep first.keeps).keep later.keeps
    -- No later document goes to the same place, since its file has another name.
    have apart : ∀ other ∈ formats, ¬ disk'.Lands (other.fileIn directory) place := by
      intro other member again
      have names := (getLast?_of_lands lands').symm.trans (getLast?_of_lands again)
      exact new (Format.fileName_injective (Option.some.inj names) ▸ member)
    refine ⟨disk', ?_, first.keeps.trans later.keeps, ?_, ?_⟩
    · rw [List.mapM_cons, Steps.run_bind, run_writeFormat lands open_]
      simp only
      rw [Steps.run_bind, run]
      rfl
    · intro other member
      rcases List.mem_cons.mp member with rfl | member
      · exact ⟨place, lands', (later.elsewhere place apart).trans first.here⟩
      · exact later.documents other member
    · intro other strange
      obtain ⟨here, there⟩ := List.forall_mem_cons.mp strange
      rw [later.elsewhere other there]
      apply first.elsewhere
      rintro rfl
      exact here lands'

private theorem run_renderAll (rooted : disk.Rooted)
    (named : Charset.ofReportLabel context.encoding = .ok charset) {made : Disk}
    (makes : disk.makeDirectories directory = .ok made) {formats : List Format}
    (different : formats.Nodup)
    (free : ∀ format ∈ formats, ∃ place, made.Lands (format.fileIn directory) place ∧
      made.kind? place ≠ some .directory) :
    ∃ disk', (renderAll context formats directory).run.run disk =
        (.ok (formats.map (·.fileIn directory)), disk') ∧
      Written directory (document charset context) formats made disk' := by
  have adds := Disk.addsDirectories_of_makeDirectories rooted makes
  obtain ⟨disk', run, written⟩ := run_writeFormats (rooted.keep adds.adds.keeps) different free
  refine ⟨disk', ?_, written⟩
  unfold renderAll
  rw [Steps.run_bind, Action.run_ofExcept, named]
  simp only [Except.mapError]
  rw [Steps.run_bind, Action.run_change_ok makes]
  exact run

end

/-- The output directory can be made, and in it the file of every document that is asked for. -/
def Options.Writable (options : Options) (disk : Disk) : Prop :=
  ∃ made, disk.makeDirectories options.outputDirectory = .ok made ∧
    ∀ format ∈ options.selected, ∃ content disk',
      made.write (format.fileIn options.outputDirectory) content = .ok disk'

/-- What a run that went through leaves behind: directories for the documents, the documents, and
nothing else. -/
structure Delivered (options : Options) (content : Format → Bytes) (disk made disk' : Disk) :
    Prop where
  makes : disk.makeDirectories options.outputDirectory = .ok made
  adds : disk.AddsDirectories made
  written : Written options.outputDirectory content options.selected made disk'
  reads : ∀ format ∈ options.selected,
    disk'.read (format.fileIn options.outputDirectory) = .ok (content format)
  others : ∀ place,
    (∀ format ∈ options.selected, ¬ disk'.Lands (format.fileIn options.outputDirectory) place) →
    ∀ bytes, disk'.kind? place = some (.file bytes) ↔ disk.kind? place = some (.file bytes)

section
variable [Charset.Coders] {options : Options} {now : Moment} {disk : Disk}

private theorem run_of_none_selected (understood : options.Understood)
    (nothing : options.selected = []) :
    (run options now).run.run disk = (.ok [], disk) := by
  rw [run_of_understood understood, Options.report, nothing]
  rfl

theorem run_of_selected (understood : options.Understood) (asked : options.selected ≠ []) :
    (run options now).run.run disk =
      (do
        match ← Metadata.load options.metadataFile with
        | none => return []
        | some store =>
          renderAll (options.context store now (← get)) options.selected options.outputDirectory :
        Action (List Path)).run.run disk := by
  have full : options.selected.isEmpty = false := by simpa using asked
  rw [run_of_understood understood, Options.report, full]
  rfl

private theorem run_of_missing (understood : options.Understood) (asked : options.selected ≠ [])
    (missing : disk.exists? options.metadataFile = false) :
    (run options now).run.run disk = (.ok [], disk) := by
  rw [run_of_selected understood asked, Steps.run_bind, Metadata.load_of_missing missing]
  rfl

private theorem run_of_spoilt (understood : options.Understood) (asked : options.selected ≠ [])
    (there : disk.exists? options.metadataFile = true)
    (spoilt : ∀ bytes store, disk.read options.metadataFile = .ok bytes →
      Metadata.decode bytes ≠ .ok store) :
    ∃ failure, (run options now).run.run disk = (.error failure, disk) := by
  rw [run_of_selected understood asked, Steps.run_bind]
  cases read : disk.read options.metadataFile with
  | error fault =>
    rw [Metadata.load_of_unreadable there read]
    exact ⟨_, rfl⟩
  | ok bytes =>
    cases decoded : Metadata.decode bytes with
    | error problem =>
      rw [Metadata.load_of_spoilt read decoded]
      exact ⟨_, rfl⟩
    | ok store => exact absurd decoded (spoilt bytes store read)

theorem run_of_loaded (rooted : disk.Rooted) (understood : options.Understood) {charset : Charset}
    (serves : charset.Serves options.encoding) (asked : options.selected ≠ []) {bytes : Bytes}
    {store : Store} (read : disk.read options.metadataFile = .ok bytes)
    (decoded : Metadata.decode bytes = .ok store) (writable : options.Writable disk) :
    ∃ made disk', (run options now).run.run disk =
        (.ok (options.selected.map (·.fileIn options.outputDirectory)), disk') ∧
      Delivered options (document charset (options.context store now disk)) disk made disk' := by
  obtain ⟨made, makes, writes⟩ := writable
  have adds := Disk.addsDirectories_of_makeDirectories rooted makes
  have free : ∀ format ∈ options.selected, ∃ place,
      made.Lands (format.fileIn options.outputDirectory) place ∧ made.kind? place ≠
        some .directory := by
    intro format member
    obtain ⟨content, after, done⟩ := writes format member
    obtain ⟨place, lands, open_, -⟩ := Disk.lands_of_write done
    exact ⟨place, lands, open_⟩
  have named : Charset.ofReportLabel (options.context store now disk).encoding = .ok charset :=
    (ofReportLabel_declaredLabel _).trans (Charset.ofReportLabel_eq_ok_iff.mpr serves)
  obtain ⟨disk', rendered, written⟩ :=
    run_renderAll rooted named makes (Format.nodup_selected _ _) free
  refine ⟨made, disk', ?_, makes, adds, written, ?_, ?_⟩
  · rw [run_of_selected understood asked, Steps.run_bind, Metadata.load_of_decode read decoded]
    simp only
    rw [Steps.run_bind, Steps.run_get]
    exact rendered
  · intro format member
    obtain ⟨place, lands, file⟩ := written.documents format member
    exact lands.read file
  · intro place strange bytes
    rw [written.elsewhere place strange, adds.file_iff]

/-- Options that ask for the same formats are the same to a run. -/
theorem run_congr {names : List String}
    (known : ∀ name ∈ names, ∃ format : Format, format.Named name)
    (own : ∀ name ∈ options.formats, ∃ format : Format, format.Named name)
    (same : ∀ format, Format.Asked names format ↔ Format.Asked options.formats format) :
    run { options with formats := names } now = run options now := by
  obtain ⟨requested, read, stand⟩ := Format.ofNames_ok known
  obtain ⟨requested', read', stand'⟩ := Format.ofNames_ok own
  have chosen : options.dispatch.select requested = options.dispatch.select requested' := by
    rw [Format.select_eq stand, Format.select_eq stand', Format.selected_congr same]
  unfold run
  simp only [read, read', Action.ofExcept, pure_bind, chosen]

end

/-- A run writes the documents it is asked for, or nothing. Options that are not understood are
refused whatever lies on the disk. Without a document to render or without data the run ends with
nothing written, and data that is not a store is refused. Otherwise the documents come in their
fixed order, each once and each in its own file, and no other file changes. Of the names of formats
nothing counts but which formats they stand for. -/
theorem run_writes_selected [Charset.Coders] (options : Options) (now : Moment) {disk : Disk}
    (rooted : disk.Rooted) :
    (¬ options.Understood → ∃ failure, failure.isConfiguration = true ∧
      ∀ disk, (run options now).run.run disk = (.error failure, disk)) ∧
    (options.Understood → options.selected = [] ∨ disk.exists? options.metadataFile = false →
      (run options now).run.run disk = (.ok [], disk)) ∧
    (options.Understood → options.selected ≠ [] → disk.exists? options.metadataFile = true →
      (∀ bytes store, disk.read options.metadataFile = .ok bytes →
      Metadata.decode bytes ≠ .ok store) →
      ∃ failure, (run options now).run.run disk = (.error failure, disk)) ∧
    (∀ charset bytes store, options.Understood → charset.Serves options.encoding →
    options.selected ≠ [] →
      disk.read options.metadataFile = .ok bytes → Metadata.decode bytes = .ok store →
      options.Writable disk →
      ∃ made disk', (run options now).run.run disk =
          (.ok (options.selected.map (·.fileIn options.outputDirectory)), disk') ∧
        (options.selected.map (·.fileIn options.outputDirectory)).Nodup ∧
        Delivered options (document charset (options.context store now disk)) disk made disk') ∧
    (∀ names, (∀ name ∈ names ++ options.formats, ∃ format : Format, format.Named name) →
      (∀ format, Format.Asked names format ↔ Format.Asked options.formats format) →
      run { options with formats := names } now = run options now) := by
  refine ⟨fun strange => run_of_not_understood strange now, ?_, run_of_spoilt, ?_, ?_⟩
  · rintro understood (nothing | missing)
    · exact run_of_none_selected understood nothing
    · by_cases nothing : options.selected = []
      · exact run_of_none_selected understood nothing
      · exact run_of_missing understood nothing missing
  · intro charset bytes store understood serves asked read decoded writable
    obtain ⟨made, disk', ran, delivered⟩ :=
      run_of_loaded rooted understood serves asked read decoded writable
    exact ⟨made, disk', ran, nodup_map_fileIn (Format.nodup_selected _ _) _, delivered⟩
  · intro names known same
    exact run_congr (fun name member => known name (List.mem_append_left _ member))
      (fun name member => known name (List.mem_append_right _ member)) same

attribute [local instance] Charset.asciiCoders in
/-- A table that is asked for twice is written once, and the data stays as it is. -/
theorem run_writes_selected_of_text :
    ∃ (options : Options) (disk disk' : Disk) (store : Store),
      disk.Rooted ∧ options.formats = ["TXT", "text"] ∧ store.records.map Record.name = ["A"] ∧
      disk.read options.metadataFile = .ok (Metadata.encode store) ∧
      (run options 0).run.run disk = (.ok [⟨"out/coverage.txt"⟩], disk') ∧
      disk'.isFile ⟨"out/coverage.txt"⟩ = true ∧
      ∀ bytes, disk'.kind? ["coverage.dat"] = some (.file bytes) ↔
        disk.kind? ["coverage.dat"] = some (.file bytes) := by
  let options : Options :=
    { metadataFile := ⟨"coverage.dat"⟩, outputDirectory := ⟨"out"⟩, formats := ["TXT", "text"] }
  let store : Store := ⟨[{ name := "A", lines := [{ line := 1, hits := 1 }] }],
    List.pairwise_singleton _ _⟩
  let disk : Disk :=
    ⟨.file "coverage.dat" (Metadata.encode store) .empty, ⟨by simp [Listing.names], trivial⟩, []⟩
  have rooted : disk.Rooted := ⟨rfl, by simp [disk]⟩
  have selected : options.selected = [.txt] := by decide +kernel
  have named : ∀ name ∈ options.formats, Format.txt.Named name := by decide +kernel
  have serves : Charset.all[0].Serves options.encoding := ⟨by decide +kernel, by decide⟩
  have writes :
      (disk.makeDirectories ⟨"out"⟩ >>= (·.write (Format.txt.fileIn ⟨"out"⟩) [])).isOk = true := by
    decide +kernel
  have writable : options.Writable disk := by
    cases makes : disk.makeDirectories ⟨"out"⟩ with
    | error fault =>
      rw [makes] at writes
      cases writes
    | ok made =>
      refine ⟨made, makes, fun format member => ⟨[], ?_⟩⟩
      rw [selected] at member
      obtain rfl := List.mem_singleton.mp member
      rw [makes] at writes
      cases done : made.write (Format.txt.fileIn ⟨"out"⟩) [] with
      | ok disk' => exact ⟨disk', rfl⟩
      | error fault =>
        simp only [bind, Except.bind, done] at writes
        cases writes
  have lands : disk.Lands options.metadataFile ["coverage.dat"] :=
    ⟨[], "coverage.dat", [], by decide, by decide, by decide +kernel, rfl⟩
  have read : disk.read options.metadataFile = .ok (Metadata.encode store) := lands.read rfl
  have decoded : Metadata.decode (Metadata.encode store) = .ok store :=
    Metadata.decode_of_measured
      ⟨by decide, List.forall_mem_singleton.mpr ⟨by decide, by decide, by decide, by decide⟩⟩
  obtain ⟨-, -, -, loads, -⟩ := run_writes_selected options 0 rooted
  obtain ⟨made, disk', ran, -, delivered⟩ :=
    loads _ _ _ ⟨fun name member => ⟨.txt, named name member⟩, _, serves⟩
    serves (by simp [selected]) read decoded writable
  have path : Format.txt.fileIn options.outputDirectory = ⟨"out/coverage.txt"⟩ := by decide +kernel
  obtain ⟨place, lands, file⟩ := delivered.written.documents .txt (by simp [selected])
  refine ⟨options, disk, disk', store, rooted, rfl, rfl, read, ?_, path ▸ lands.isFile file,
    delivered.others _ ?_⟩
  · rw [ran, selected, List.map_singleton, path]
  · rw [selected]
    intro format member lands
    obtain rfl := List.mem_singleton.mp member
    exact absurd (getLast?_of_lands lands) (by decide)

end Report
end ClassCoverage
