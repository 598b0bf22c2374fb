import ClassCoverage.CommandLine.Switch
import ClassCoverage.Path

/-! The commands and their arguments. Some switches may stand in front of the command as well as
behind it; the one behind it counts. -/
namespace ClassCoverage.CommandLine

structure CommonArguments where
  config : Option Path := none
  verbose : Bool := false
  deriving DecidableEq, Repr

structure InstrumentArguments where
  rewriter : Option Path := none
  rewriterArguments : List String := []
  archives : List Path := []
  archiveSets : List Path := []
  classDirectories : List Path := []
  outputDirectory : Option Path := none
  inPlace : Bool := false
  metadataFile : Option Path := none
  noMerge : Bool := false
  keepDirectoryEntries : Bool := false
  jobs : Option Nat := none
  deriving DecidableEq, Repr

structure MergeArguments where
  searchPath : Option Path := none
  fileName : Option String := none
  output : Option Path := none
  deriving DecidableEq, Repr

structure CheckArguments where
  metadataFile : Option Path := none
  dataFiles : List Path := []
  minimumLine : Option UInt8 := none
  minimumBranch : Option UInt8 := none
  deriving DecidableEq, Repr

structure ReportArguments where
  metadataFile : Option Path := none
  sourceRoots : List Path := []
  outputDirectory : Option Path := none
  formats : List String := []
  encoding : Option String := none
  dispatch : Option String := none
  deriving DecidableEq, Repr

inductive Command where
  | instrument (arguments : InstrumentArguments)
  | merge (arguments : MergeArguments)
  | check (arguments : CheckArguments)
  | report (arguments : ReportArguments)
  deriving DecidableEq, Repr

/-- What is read behind the name of a command. -/
structure Given (α : Type) where
  own : α
  common : CommonArguments := {}

/-- A path is never empty. -/
def readPath (text : String) : Except Refusal Path :=
  if text.isEmpty then .error .noValue else .ok ⟨text⟩

def digitsValue? (digits : List Char) : Option Nat :=
  if digits.isEmpty || !digits.all Char.isDigit then none
  else some (digits.foldl (fun sum digit => 10 * sum + (digit.toNat - 48)) 0)

def readCount (text : String) : Except Refusal Nat :=
  let digits := match text.toList with
    | '+' :: digits => digits
    | digits => digits
  match digitsValue? digits with
  | some count => if count < 2 ^ (64 : Nat) then .ok count else .error .badValue
  | none => .error .badValue

/-- A percentage is a whole number. Zero may have a sign of either kind. -/
def readPercentage (text : String) : Except Refusal UInt8 :=
  let number := match text.toList with
    | '+' :: digits => digitsValue? digits
    | '-' :: digits => (digitsValue? digits).filter (· = 0)
    | digits => digitsValue? digits
  match number with
  | some number => if number ≤ 100 then .ok (.ofNat number) else .error .badValue
  | none => .error .badValue

variable {α β : Type}

def flag (set : α → α) : Effect α := .flag set

def single (read : String → Except Refusal β) (set : α → β → α) : Effect α :=
  .single fun text built => set built <$> read text

def repeated (read : String → Except Refusal β) (add : α → β → α) : Effect α :=
  .repeated fun text built => add built <$> read text

def helpSwitch : Switch α := { name := "help", letter := some 'h', effect := .stop .help }

def versionSwitch : Switch α := { name := "version", letter := some 'V', effect := .stop .version }

def commonSwitches : List (Switch CommonArguments) := [
  { name := "config"
    effect := single readPath fun built path => { built with config := some path } },
  { name := "verbose", letter := some 'v', effect := flag fun built =>
  { built with verbose := true } }]

def instrumentSwitches : List (Switch InstrumentArguments) := [
  { name := "rewriter"
    effect := single readPath fun built path => { built with rewriter := some path } },
  { name := "rewriter-arg", takesDashes := true
    effect := repeated .ok fun built text =>
      { built with rewriterArguments := built.rewriterArguments ++ [text] } },
  { name := "archive"
    effect := repeated readPath fun built path =>
    { built with archives := built.archives ++ [path] } },
  { name := "archive-set"
    effect := repeated readPath fun built path =>
      { built with archiveSets := built.archiveSets ++ [path] } },
  { name := "classes"
    effect := repeated readPath fun built path =>
      { built with classDirectories := built.classDirectories ++ [path] } },
  { name := "output-dir"
    effect := single readPath fun built path => { built with outputDirectory := some path } },
  { name := "in-place", effect := flag fun built => { built with inPlace := true } },
  { name := "metadata-file"
    effect := single readPath fun built path => { built with metadataFile := some path } },
  { name := "no-merge", effect := flag fun built => { built with noMerge := true } },
  { name := "keep-directory-entries"
    effect := flag fun built => { built with keepDirectoryEntries := true } },
  { name := "jobs", letter := some 'j'
    effect := single readCount fun built count => { built with jobs := some count } }]

def mergeSwitches : List (Switch MergeArguments) := [
  { name := "search-path"
    effect := single readPath fun built path => { built with searchPath := some path } },
  { name := "file-name"
    effect := single .ok fun built text => { built with fileName := some text } },
  { name := "output"
    effect := single readPath fun built path => { built with output := some path } }]

def checkSwitches : List (Switch CheckArguments) := [
  { name := "metadata-file"
    effect := single readPath fun built path => { built with metadataFile := some path } },
  { name := "data-file"
    effect := repeated readPath fun built path =>
    { built with dataFiles := built.dataFiles ++ [path] } },
  { name := "min-line"
    effect := single readPercentage fun built least => { built with minimumLine := some least } },
  { name := "min-branch"
    effect := single readPercentage fun built least => { built with minimumBranch := some least } }]

/-- Several formats may be given at once, with commas between them. -/
def readFormats (text : String) : Except Refusal (List String) :=
  .ok ((Text.split (· == ',') text.toList).map String.ofList)

def reportSwitches : List (Switch ReportArguments) := [
  { name := "metadata-file"
    effect := single readPath fun built path => { built with metadataFile := some path } },
  { name := "source-root"
    effect := repeated readPath fun built path =>
      { built with sourceRoots := built.sourceRoots ++ [path] } },
  { name := "output-dir"
    effect := single readPath fun built path => { built with outputDirectory := some path } },
  { name := "format"
    effect := repeated readFormats fun built names =>
    { built with formats := built.formats ++ names } },
  { name := "encoding"
    effect := single .ok fun built text => { built with encoding := some text } },
  { name := "dispatch"
    effect := single .ok fun built text => { built with dispatch := some text } }]

/-- The effect of a switch on one part of a larger whole. -/
def Effect.within (get : β → α) (put : β → α → β) : Effect α → Effect β
  | .flag apply => .flag fun whole => put whole (apply (get whole))
  | .single apply => .single fun text whole => put whole <$> apply text (get whole)
  | .repeated apply => .repeated fun text whole => put whole <$> apply text (get whole)
  | .stop refusal => .stop refusal

def Switch.within (get : β → α) (put : β → α → β) (switch : Switch α) : Switch β where
  name := switch.name
  letter := switch.letter
  effect := switch.effect.within get put
  takesDashes := switch.takesDashes

/-- The switches behind the name of a command. -/
def switchesOf (own : List (Switch α)) : List (Switch (Given α)) :=
  own.map (Switch.within Given.own fun whole own => { whole with own := own }) ++
    commonSwitches.map (Switch.within Given.common fun whole common =>
    { whole with common := common }) ++
    [helpSwitch]

def commandNames : List String := ["instrument", "merge", "check", "report", "help"]

/-- Reads what stands behind the name of a command. -/
def readCommand (name : String) (arguments : List String) :
    Except Refusal (Command × CommonArguments) := do
  match name with
  | "instrument" =>
    let given ← readAll (switchesOf instrumentSwitches) [("in-place", "output-dir")]
        { own := {} } arguments
    return (.instrument given.own, given.common)
  | "merge" =>
    let given ← readAll (switchesOf mergeSwitches) [] { own := {} } arguments
    return (.merge given.own, given.common)
  | "check" =>
    let given ← readAll (switchesOf checkSwitches) [] { own := {} } arguments
    return (.check given.own, given.common)
  | "report" =>
    let given ← readAll (switchesOf reportSwitches) [] { own := {} } arguments
    return (.report given.own, given.common)
  | _ => throw .unknownCommand

/-- What is answered to a request for help on a command. -/
def helpOn : List String → Refusal
  | [] => .help
  | [name] => if name ∈ commandNames then .help else .unknownCommand
  | _ => .unknownCommand

/-- A command with its arguments and those that all commands have. -/
structure Invocation where
  command : Command
  common : CommonArguments := {}
  deriving DecidableEq, Repr

/-- Arguments behind the command count more than those in front of it. -/
def CommonArguments.add (front behind : CommonArguments) : CommonArguments where
  config := behind.config.or front.config
  verbose := front.verbose || behind.verbose

def rootSwitches : List (Switch CommonArguments) := commonSwitches ++ [helpSwitch, versionSwitch]

/-- Reads the arguments of the program. A waiting switch in front of the command takes effect only
after those of the command. -/
def Invocation.ofArguments (arguments : List String) : Except Refusal Invocation := do
  let division ← divide rootSwitches commandNames arguments { built := {} }
  match division.command with
  | some ("help", names) => throw (helpOn names)
  | some (name, rest) =>
    let (command, behind) ← readCommand name rest
    let front ← division.reading.settle
    return { command := command, common := front.built.add behind }
  | none =>
    let front ← division.reading.settle
    throw (if front.given.isEmpty then .nothingGiven else .noCommand)

end ClassCoverage.CommandLine
