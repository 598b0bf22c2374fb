import ClassCoverage.Rewriter.Program
import ClassCoverage.Shell.Script

/-! Running shell scripts that rewrite classes. A script sees its input, its arguments and the
variables that name the entry and the record file, which is the only file it can change. -/
namespace ClassCoverage.Shell

/-- What a script can refer to. -/
structure Setting where
  name : Bytes
  arguments : List Bytes := []
  bindings : List (String × Bytes) := []
  recordFile : Bytes

structure State where
  input : Bytes
  output : Bytes := []
  errors : Bytes := []
  record : Except Fault Bytes := .ok []
  status : Nat := 0
  ending : Option ExitStatus := none

def isBlank (byte : UInt8) : Bool := byte == 32 || byte == 9 || byte == 10

/-- The number scripts know their own process by. -/
def processNumber : String := "1000"

def value (setting : Setting) (status : Nat) (name : String) : Bytes :=
  match name with
  | "$" => Bytes.ofString processNumber
  | "?" => Bytes.ofString (toString status)
  | "#" => Bytes.ofString (toString setting.arguments.length)
  | "@" => [(32 : UInt8)].intercalate setting.arguments
  | "*" => [(32 : UInt8)].intercalate setting.arguments
  | "0" => setting.name
  | name =>
    match name.toNat? with
    | some index => setting.arguments.getD (index - 1) []
    | none => (setting.bindings.lookup name).getD []

/-- Fields that are finished, and the one that can still grow. -/
structure Fields where
  done : List Bytes := []
  open? : Option Bytes := none

namespace Fields

def grow (bytes : Bytes) (fields : Fields) : Fields :=
  { fields with open? := some (fields.open?.getD [] ++ bytes) }

def close (fields : Fields) : Fields := { done := fields.done ++ fields.open?.toList }

/-- Adds bytes that are cut at blanks. -/
def growCut (bytes : Bytes) (fields : Fields) : Fields :=
  bytes.foldl (fun fields byte => if isBlank byte then fields.close else fields.grow [byte]) fields

/-- Adds one field after another. -/
def growEach : List Bytes → Fields → Fields
  | [], fields => fields
  | [last], fields => fields.grow last
  | first :: rest, fields => growEach rest (fields.grow first).close

end Fields

def addPiece (setting : Setting) (status : Nat) (fields : Fields) : Piece → Fields
  | .literal bytes => fields.grow bytes
  | .variable name quoted =>
    if name = "@" && quoted then fields.growEach setting.arguments
    else if quoted then fields.grow (value setting status name)
    else fields.growCut (value setting status name)

/-- The fields a word stands for. -/
def expand (setting : Setting) (status : Nat) (word : Word) : List Bytes :=
  if word.isEmpty then [[]]
  else (word.foldl (addPiece setting status) {}).close.done

def isOctalDigit (byte : UInt8) : Bool := 48 ≤ byte && byte ≤ 55

def octal (digits : Bytes) : Nat := digits.foldl (fun sum digit => 8 * sum + (digit.toNat - 48)) 0

/-- What a letter stands for behind a backslash. -/
def escapeOf (mark : UInt8) : Bytes :=
  match mark with
  | 92 => [92]
  | 97 => [7]
  | 98 => [8]
  | 102 => [12]
  | 110 => [10]
  | 114 => [13]
  | 116 => [9]
  | 118 => [11]
  | other => [92, other]

/-- The escape behind a backslash, and what follows it. -/
def takeEscape (bytes : Bytes) : Bytes × Bytes :=
  let digits := (bytes.take 3).takeWhile isOctalDigit
  match bytes with
  | [] => ([92], [])
  | mark :: rest =>
    if digits.isEmpty then (escapeOf mark, rest)
    else ([UInt8.ofNat (octal digits)], bytes.drop digits.length)

/-- Puts bytes in the place of escapes. The room bounds the number of steps. -/
def unescape : (room : Nat) → Bytes → Bytes
  | room + 1, 92 :: rest =>
    let (piece, rest) := takeEscape rest
    piece ++ unescape room rest
  | room + 1, byte :: rest => byte :: unescape room rest
  | _, _ => []

def unescaped (bytes : Bytes) : Bytes := unescape bytes.length bytes

/-- Fills a format once. Arguments that are missing are empty. -/
def fill : (room : Nat) → Bytes → List Bytes → Bytes × List Bytes
  | room + 1, 92 :: rest, arguments =>
    let (piece, rest) := takeEscape rest
    let (filled, left) := fill room rest arguments
    (piece ++ filled, left)
  | room + 1, 37 :: mark :: rest, arguments =>
    if mark = 37 then
      let (filled, left) := fill room rest arguments
      (37 :: filled, left)
    else
      let argument := arguments.headD []
      let piece := if mark = 98 then unescaped argument else argument
      let (filled, left) := fill room rest arguments.tail
      (piece ++ filled, left)
  | room + 1, byte :: rest, arguments =>
    let (filled, left) := fill room rest arguments
    (byte :: filled, left)
  | _, _, arguments => ([], arguments)

/-- Fills a format until all arguments are used, if it uses any. -/
def fillAll : (room : Nat) → Bytes → List Bytes → Bytes
  | 0, _, _ => []
  | room + 1, format, arguments =>
    let (filled, left) := fill format.length format arguments
    if left.isEmpty || left.length = arguments.length then filled
    else filled ++ fillAll room format left

/-- What a command writes and the status it leaves. -/
structure Effect where
  output : Bytes := []
  errors : Bytes := []
  status : Nat := 0

def textOf (bytes : Bytes) : String := String.ofList (Utf8.decodeLossy bytes)

def complaint (setting : Setting) (words : String) (status : Nat) : Effect :=
  { errors := setting.name ++ Bytes.ofString (": 1: " ++ words ++ "\n"), status := status }

/-- Input read whole, and nothing left of it. -/
def readInput (state : State) : State × Effect :=
  ({ state with input := [] }, { output := state.input })

/-- What programs say of a file they cannot use. -/
def reasonOf : Fault → String
  | .isDirectory => "Is a directory"
  | .exists => "File exists"
  | _ => "No such file or directory"

/-- Adds the complaint of a program about a file. -/
def Effect.complain (effect : Effect) (words : String) (fault : Fault) : Effect :=
  { effect with
    errors := effect.errors ++ Bytes.ofString (words ++ ": " ++ reasonOf fault ++ "\n"), status :=
      1 }

def concatenate (setting : Setting) (files : List Bytes) (state : State) : State × Effect :=
  if files.isEmpty then readInput state
  else files.foldl (fun (state, effect) (file : Bytes) =>
    if file = [(45 : UInt8)] then
      let (state, more) := readInput state
      (state, { effect with output := effect.output ++ more.output })
    else match if file = setting.recordFile then state.record else .error .notFound with
      | .ok content => (state, { effect with output := effect.output ++ content })
      | .error fault => (state, effect.complain s!"cat: {textOf file}" fault)) (state, {})

def isOption (argument : Bytes) : Bool := argument.head? == some 45

/-- Removes files. Directories are removed only if an option asks for that. -/
def remove (setting : Setting) (arguments : List Bytes) (state : State) : State × Effect :=
  let options := (arguments.filter isOption).flatten
  let forced := options.contains 102
  (arguments.filter (!isOption ·)).foldl (fun (state, effect) file =>
    let fault? := match if file = setting.recordFile then state.record else .error .notFound with
      | .ok _ => none
      | .error .isDirectory => if options.contains 114 then none else some Fault.isDirectory
      | .error fault => if forced then none else some fault
    match fault? with
    | none => (if file = setting.recordFile then { state with record := .error .notFound }
      else state, effect)
    | some fault =>
      (state, effect.complain s!"rm: cannot remove '{textOf file}'" fault)) (state, {})

/-- Puts a directory in the place of the record file, which has to be free. -/
def makeDirectory (setting : Setting) (arguments : List Bytes) (state : State) : State × Effect :=
  (arguments.filter (!isOption ·)).foldl (fun (state, effect) file =>
    if file ≠ setting.recordFile then (state, effect)
    else if state.record matches .error .notFound then
      ({ state with record := .error .isDirectory }, effect)
    else (state, effect.complain s!"mkdir: cannot create directory '{textOf file}'" .exists))
      (state, {})

/-- Makes sure that the record file is there. -/
def touch (setting : Setting) (arguments : List Bytes) (state : State) : State × Effect :=
  if setting.recordFile ∈ arguments ∧ state.record matches .error .notFound then
    ({ state with record := .ok [] }, {})
  else (state, {})

/-- The record file is the only file that tests can find. -/
def fileHolds (mark : String) : Except Fault Bytes → Bool
  | .ok content => mark = "-e" || mark = "-f" || (mark = "-s" && !content.isEmpty)
  | .error .isDirectory => mark = "-e" || mark = "-d" || mark = "-s"
  | .error _ => false

/-- Decides the question that the words of a test ask. -/
def holds (setting : Setting) (state : State) (words : List Bytes) : Bool :=
  match words with
  | [word] => !word.isEmpty
  | [mark, word] =>
    match textOf mark with
    | "!" => word.isEmpty
    | "-n" => !word.isEmpty
    | "-z" => word.isEmpty
    | mark => word = setting.recordFile && fileHolds mark state.record
  | [one, mark, other] =>
    match textOf mark with
    | "=" => one == other
    | "!=" => one != other
    | _ => false
  | _ => false

def test (setting : Setting) (words : List Bytes) (state : State) : Effect :=
  { status := if holds setting state words then 0 else 1 }

def echo (arguments : List Bytes) : Effect :=
  let (words, ending) : List Bytes × Bytes :=
    if arguments.head? = some (Bytes.ofString "-n") then (arguments.drop 1, [])
      else (arguments, [10])
  { output := unescaped ([(32 : UInt8)].intercalate words) ++ ending }

/-- The number of the signal of a name, which may be its number. -/
def signalOf? (name : String) : Option Nat :=
  name.toNat?.or ((signalNames.idxOf? name).map (· + 1))

def kill (arguments : List Bytes) (state : State) : State × Effect :=
  let words := arguments.map textOf
  let (signal, targets) := match words with
    | "-s" :: name :: targets => (signalOf? name, targets)
    | option :: targets =>
      if option.toList.head? =
        some '-' then (signalOf? (String.ofList (option.toList.drop 1)), targets)
      else (some 15, words)
    | [] => (none, [])
  match signal with
  | some signal =>
    if targets = [processNumber] then
      if signal = 0 then (state, {}) else ({ state with ending := some (.killed signal) }, {})
    else (state, { status := 1 })
  | none => (state, { status := 1 })

def exitWith (setting : Setting) (arguments : List Bytes) (state : State) : State × Effect :=
  match arguments.head? with
  | none => ({ state with ending := some (.exited state.status) }, { status := state.status })
  | some code =>
    match (textOf code).toNat? with
    | some code => ({ state with ending := some (.exited (code % 256)) }, { status := code % 256 })
    | none =>
      ({ state with ending := some (.exited 2) },
        complaint setting ("exit: Illegal number: " ++ textOf code) 2)

/-- Runs the command of a name. -/
def perform (setting : Setting) (name : String) (arguments : List Bytes) (state : State) :
    State × Effect :=
  match name with
  | "cat" => concatenate setting arguments state
  | "printf" =>
    match arguments with
    | format :: rest => (state, { output := fillAll (rest.length + 1) format rest })
    | [] => (state, complaint setting "printf: usage: printf format [arg ...]" 2)
  | "echo" => (state, echo arguments)
  | "exit" => exitWith setting arguments state
  | "kill" => kill arguments state
  | "rm" => remove setting arguments state
  | "mkdir" => makeDirectory setting arguments state
  | "touch" => touch setting arguments state
  | "test" => (state, test setting arguments state)
  | "[" => (state, test setting arguments.dropLast state)
  | "true" => (state, {})
  | "sleep" => (state, {})
  | ":" => (state, {})
  | "false" => (state, { status := 1 })
  | other => (state, complaint setting (other ++ ": not found") 127)

/-- Where what a command writes goes to. -/
inductive Sink where
  | output
  | errors
  | record
  | nowhere
  deriving DecidableEq

structure Sinks where
  output : Sink := .output
  errors : Sink := .errors

def Sinks.of (sinks : Sinks) : Stream → Sink
  | .output => sinks.output
  | .errors => sinks.errors

def Sinks.set (sinks : Sinks) (sink : Sink) : Stream → Sinks
  | .output => { sinks with output := sink }
  | .errors => { sinks with errors := sink }

def redirect (setting : Setting) : State × Sinks → Redirection → State × Sinks
  | (state, sinks), .toStream source target => (state, sinks.set (sinks.of target) source)
  | (state, sinks), .toFile stream append file =>
    if (expand setting state.status file).flatten = setting.recordFile then
      match state.record with
      | .error .isDirectory => (state, sinks.set .nowhere stream)
      | .ok content =>
        ({ state with record := .ok (if append then content else []) }, sinks.set .record stream)
      | .error _ => ({ state with record := .ok [] }, sinks.set .record stream)
    else (state, sinks.set .nowhere stream)

def write (bytes : Bytes) (state : State) : Sink → State
  | .output => { state with output := state.output ++ bytes }
  | .errors => { state with errors := state.errors ++ bytes }
  | .record => { state with record := state.record.map (· ++ bytes) }
  | .nowhere => state

def Condition.holds (condition : Condition) (status : Nat) : Bool :=
  match condition with
  | .always => true
  | .afterSuccess => status == 0
  | .afterFailure => status != 0

/-- Runs a command unless the script has ended or its condition does not hold. -/
def step (setting : Setting) (state : State) (command : Command) : State :=
  if state.ending.isSome || !command.condition.holds state.status then state
  else
    let (state, sinks) := command.redirections.foldl (redirect setting) (state, {})
    let fields := command.words.flatMap (expand setting state.status)
    let (state, effect) := match fields with
      | [] => (state, ({} : Effect))
      | name :: arguments => perform setting (textOf name) arguments state
    let state := write effect.errors (write effect.output state sinks.output) sinks.errors
    { state with status := effect.status }

def finish (state : State) : ProgramRun where
  status := state.ending.getD (.exited state.status)
  output := state.output
  errors := state.errors
  record := state.record

def run (setting : Setting) (script : String) (input : Bytes) : ProgramRun :=
  match Script.ofText? script with
  | some script => finish (script.foldl (step setting) { input := input })
  | none =>
    let effect := complaint setting "Syntax error: Unterminated quoted string" 2
    finish { input := input, errors := effect.errors, status := effect.status }

def entryVariable : String := "JARCOV_ENTRY"

def recordVariable : String := "JARCOV_RECORD"

/-- The commands that can be run as programs as well. -/
def commandNames : List String :=
  ["cat", "echo", "false", "kill", "mkdir", "printf", "rm", "sleep", "test", "touch", "true"]

def shellNames : List String := ["sh", "dash", "bash"]

/-- A script is given after `-c`, or else in a file. -/
def runShell (disk : Disk) (setting : Setting) (arguments : List String)
    (input : Bytes) : ProgramRun :=
  match arguments with
  | "-c" :: script :: rest =>
    let rest := rest.map Bytes.ofString
    run { setting with name := rest.headD setting.name, arguments := rest.drop 1 } script input
  | file :: rest =>
    match disk.read ⟨file⟩ with
    | .ok script =>
      run { setting with name := Bytes.ofString file, arguments := rest.map Bytes.ofString }
        (textOf script) input
    | .error _ =>
      let words := s!"sh: 0: cannot open {file}: No such file\n"
      finish { input := input, errors := Bytes.ofString words, status := 2 }
  | [] => run setting (textOf input) []

/-- The name of the known program at a path, if it is one. -/
def programName? (path : Path) : Option String :=
  let name := path.fileName?.getD ""
  let directories := ["", "/bin", "/usr/bin"]
  if directories.any fun directory =>
    path.spelling = directory ++ (if directory = "" then name else "/" ++ name)
  then if name ∈ shellNames ++ commandNames then some name else none
  else none

/-- Why a path that is no known program cannot be run. -/
def refusal (disk : Disk) (path : Path) : Launch :=
  if path.segments.length ≤ 1 then
    if path.spelling = "." || path.spelling = ".." then .refused .notPermitted else .notFound
  else match disk.resolve path with
    | .ok _ => .refused .notPermitted
    | .error .notFound => .notFound
    | .error fault => .refused fault

/-- What is said of programs, arguments and entries that cannot be handed over. -/
def nulText : String := "nul byte found in provided data"

/-- Runs the programs that are known, and looks for others on a disk. -/
def launcher (disk : Disk) (recordFile : Path) : Launcher where
  recordFile := recordFile
  launch := fun program entry bytes =>
    let setting : Setting := {
      name := Bytes.ofString program.path.spelling
      recordFile := Bytes.ofString recordFile.spelling
      bindings := [(entryVariable, Bytes.ofString entry),
        (recordVariable, Bytes.ofString recordFile.spelling)] }
    let words := entry :: program.path.spelling :: program.arguments
    if words.any fun word => word.toList.contains '\x00' then .refused (.described nulText)
    else match programName? program.path with
    | some name =>
      if name ∈ shellNames then .finished (runShell disk setting program.arguments bytes)
      else
        let (state, effect) :=
          perform setting name (program.arguments.map Bytes.ofString) { input := bytes }
        .finished (finish { state with
          output := effect.output, errors := effect.errors, status := effect.status })
    | none => refusal disk program.path

end ClassCoverage.Shell
