import ClassCoverage.Instrument.Target
import ClassCoverage.Toml

/-! Settings files: what the sections of a file may hold and how a file is found. Every setting may
be left out, and names that mean nothing are refused. -/
namespace ClassCoverage

structure GeneralSettings where
  metadataFile : Option Path := none
  verbose : Bool := false
  deriving DecidableEq, Repr

structure InstrumentSettings where
  rewriter : Option Path := none
  rewriterArguments : List String := []
  archives : List Path := []
  archiveSets : List ArchiveSet := []
  classDirectories : List Path := []
  outputDirectory : Option Path := none
  inPlace : Option Bool := none
  merge : Option Bool := none
  keepDirectoryEntries : Option Bool := none
  jobs : Option Nat := none
  deriving DecidableEq, Repr

structure MergeSettings where
  searchPath : Option Path := none
  fileName : Option String := none
  output : Option Path := none
  deriving DecidableEq, Repr

structure CheckSettings where
  minimumLine : Option UInt8 := none
  minimumBranch : Option UInt8 := none
  dataFiles : List Path := []
  deriving DecidableEq, Repr

structure ReportSettings where
  sourceRoots : List Path := []
  outputDirectory : Option Path := none
  formats : List String := []
  encoding : Option String := none
  dispatch : Option String := none
  alternates : Option (List String) := none
  deriving DecidableEq, Repr

structure Settings where
  general : GeneralSettings := {}
  instrument : InstrumentSettings := {}
  merge : MergeSettings := {}
  check : CheckSettings := {}
  report : ReportSettings := {}
  deriving DecidableEq, Repr

namespace Settings

open ClassCoverage.Dynamic

def readPath : Reader Path := fun value => Path.mk <$> readText "path string" value

def readString : Reader String := readText "a string"

def readPercentage : Reader UInt8 := fun value => UInt8.ofNat <$> readNat 8 "u8" value

def readCount : Reader Nat := readNat 64 "usize"

variable {σ α : Type}

/-- A setting that stays unset unless it is given. -/
def optional (name : String) (read : Reader α) (set : σ → Option α → σ) : Slot σ :=
  ⟨name, .optional, fun built value => set built <$> readOption read value⟩

/-- A setting that has a value even if it is not given. -/
def defaulted (name : String) (read : Reader α) (set : σ → α → σ) : Slot σ :=
  ⟨name, .defaulted, fun built value => set built <$> read value⟩

/-- Settings of a section, none of them needed. Items behind those of a list are passed over. -/
def strictShape (title : String) (start : σ) (fields : List (Slot σ)) : Shape σ where
  title := "struct " ++ title
  fields := fields
  start := start
  refusesUnknown := true
  surplus := fun _ _ => none

def generalShape : Shape GeneralSettings := strictShape "GeneralConfig" {} [
  optional "metadata_file" readPath fun built value => { built with metadataFile := value },
  defaulted "verbose" readBool fun built value => { built with verbose := value }]

def archiveSetShape : Shape ArchiveSet := strictShape "ArchiveSetConfig" {} [
  optional "base_dir" readPath fun _ value => { baseDirectory := value }]

def instrumentShape : Shape InstrumentSettings := strictShape "InstrumentConfig" {} [
  optional "rewriter" readPath fun built value => { built with rewriter := value },
  defaulted "rewriter_args" (readList readString) fun built value =>
    { built with rewriterArguments := value },
  defaulted "archives" (readList readPath) fun built value => { built with archives := value },
  defaulted "archive_sets" (readList archiveSetShape.read) fun built value =>
    { built with archiveSets := value },
  defaulted "class_dirs" (readList readPath) fun built value =>
    { built with classDirectories := value },
  optional "output_dir" readPath fun built value => { built with outputDirectory := value },
  optional "in_place" readBool fun built value => { built with inPlace := value },
  optional "merge" readBool fun built value => { built with merge := value },
  optional "keep_directory_entries" readBool fun built value =>
    { built with keepDirectoryEntries := value },
  optional "jobs" readCount fun built value => { built with jobs := value }]

def mergeShape : Shape MergeSettings := strictShape "MergeConfig" {} [
  optional "search_path" readPath fun built value => { built with searchPath := value },
  optional "file_name" readString fun built value => { built with fileName := value },
  optional "output" readPath fun built value => { built with output := value }]

def checkShape : Shape CheckSettings := strictShape "CheckConfig" {} [
  optional "min_line" readPercentage fun built value => { built with minimumLine := value },
  optional "min_branch" readPercentage fun built value => { built with minimumBranch := value },
  defaulted "data_files" (readList readPath) fun built value => { built with dataFiles := value }]

def reportShape : Shape ReportSettings := strictShape "ReportConfig" {} [
  defaulted "source_roots" (readList readPath) fun built value =>
  { built with sourceRoots := value },
  optional "output_dir" readPath fun built value => { built with outputDirectory := value },
  defaulted "formats" (readList readString) fun built value => { built with formats := value },
  optional "encoding" readString fun built value => { built with encoding := value },
  optional "dispatch" readString fun built value => { built with dispatch := value },
  optional "alternate_extensions" (readList readString) fun built value =>
    { built with alternates := value }]

def shape : Shape Settings := strictShape "JarcovConfig" {} [
  defaulted "general" generalShape.read fun built value => { built with general := value },
  defaulted "instrument" instrumentShape.read fun built value => { built with instrument := value },
  defaulted "merge" mergeShape.read fun built value => { built with merge := value },
  defaulted "check" checkShape.read fun built value => { built with check := value },
  defaulted "report" reportShape.read fun built value => { built with report := value }]

/-- What is said of a text that is not TOML at all. -/
def unreadableText : String := "<toml>"

/-- The settings a text describes, or what is wrong with it. -/
def ofText (text : List Char) : Except String Settings :=
  match Toml.read? text with
  | none => .error unreadableText
  | some document => (shape.read document).mapError ShapeFault.message

/-- The settings in a file, or nothing if there is no file. -/
def loadFile (path : Path) : Action (Option Settings) := do
  if (← get).exists? path then
    let bytes ← Action.look "read config file" path (·.read path)
    let text ← Action.ofExcept (fun _ => .io "read config file" (some path) (some .invalidText))
      (Utf8.decode bytes)
    match ofText text with
    | .ok settings => return some settings
    | .error words =>
      throw (.configuration (some path) ("Invalid configuration: " ++ words) none)
  else return none

def fileNames : List String := ["Jarcov.toml", ".jarcov.toml", "jarcov.toml"]

/-- The paths settings are looked for at: in a directory and all those above it. -/
def candidates (place : Place) : List Path :=
  let directories := (List.range (place.length + 1)).map fun up => place.take (place.length - up)
  directories.flatMap fun directory =>
    fileNames.map fun name => Path.join ⟨"/" ++ Text.join "/" directory⟩ ⟨name⟩

/-- The first of the files that is there, with its settings. -/
def loadFirst : List Path → Action (Option (Path × Settings))
  | [] => return none
  | path :: rest => do
    match ← loadFile path with
    | some settings => return some (path, settings)
    | none => loadFirst rest

/-- Loads the given file, or else the nearest one. -/
def load (path : Option Path) : Action (Option (Path × Settings)) := do
  match path with
  | some path =>
    match ← loadFile path with
    | some settings => return some (path, settings)
    | none => throw (.configuration (some path) "Configuration file not found" none)
  | none => loadFirst (candidates (← get).workPlace)

end Settings
end ClassCoverage
