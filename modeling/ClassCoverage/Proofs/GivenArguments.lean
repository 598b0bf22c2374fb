import ClassCoverage.CommandLine.Options
import Mathlib.Tactic.Common

/-! Arguments before settings. What a switch of the command line gives comes out as it was given,
whatever the settings say. There is one exception: a setting that asks for rewriting in place takes
the output directory away. -/
namespace ClassCoverage.CommandLine

section
variable {α : Type} {kept : α → List String → Prop} {switches : List (Switch α)}
  {reading reading' : Reading α}

/-- What is known of a result and of the names of the switches so far stays true of one switch
more. -/
def Switch.Keeps (kept : α → List String → Prop) (switch : Switch α) : Prop :=
  ∀ value built built' given, switch.run value built = .ok built' → kept built given →
    kept built' (switch.name :: given)

/-- What stays true while arguments are read. A switch that waits is one of those that are looked
for. -/
structure Reading.Sound (kept : α → List String → Prop) (switches : List (Switch α))
    (reading : Reading α) :
    Prop where
  kept : kept reading.built reading.given
  known : ∀ waiting, reading.waiting = some waiting → waiting.switch ∈ switches

private theorem bind_ok {ε β γ : Type} {first : Except ε β} {next : β → Except ε γ} {value : γ}
    (run : first >>= next = .ok value) :
    ∃ middle, first = .ok middle ∧ next middle = .ok value := by
  cases first with
  | error fault => cases run
  | ok middle => exact ⟨middle, rfl, run⟩

namespace Reading.Sound

theorem apply {switch : Switch α} (keeps : switch.Keeps kept) {value : Option String}
    (held : kept reading.built reading.given) (run : reading.apply switch value = .ok reading') :
    reading'.Sound kept switches := by
  unfold Reading.apply at run
  simp only at run
  split at run
  · cases run
  · split at run
    · cases run
    · obtain ⟨built, made, answered⟩ := bind_ok run
      cases answered
      exact ⟨keeps value _ built _ made held, nofun⟩

variable (keeps : ∀ switch ∈ switches, switch.Keeps kept)
include keeps

theorem settle (sound : reading.Sound kept switches) (run : reading.settle = .ok reading') :
    reading'.Sound kept switches := by
  unfold Reading.settle at run
  split at run
  · rename_i waiting found
    exact apply (keeps _ (sound.known waiting found)) sound.kept run
  · cases run
    exact sound

theorem meet {switch : Switch α} (member : switch ∈ switches) {attached : Option String}
    (sound : reading.Sound kept switches) (run : reading.meet switch attached = .ok reading') :
    reading'.Sound kept switches := by
  unfold Reading.meet at run
  simp only at run
  split at run
  · cases run
  · obtain ⟨settled, made, later⟩ := bind_ok run
    have middle := sound.settle keeps made
    split at later
    · cases later
      refine ⟨middle.kept, fun waiting found => ?_⟩
      cases found
      exact member
    · exact apply (keeps switch member) middle.kept later

private theorem meetName {body : List Char} (sound : reading.Sound kept switches)
    (run : reading.meetName switches body = .ok reading') : reading'.Sound kept switches := by
  unfold Reading.meetName at run
  simp only at run
  split at run
  · rename_i switch found
    exact sound.meet keeps (List.mem_of_find?_eq_some found) run
  · cases run

private theorem meetLetters {letters : List Char} (sound : reading.Sound kept switches)
    (run : reading.meetLetters switches letters = .ok reading') : reading'.Sound kept switches := by
  induction letters generalizing reading with
  | nil =>
    cases run
    exact sound
  | cons letter letters ih =>
    unfold Reading.meetLetters at run
    split at run
    · rename_i switch found
      have member := List.mem_of_find?_eq_some found
      split at run
      · exact sound.meet keeps member run
      · obtain ⟨middle, met, later⟩ := bind_ok run
        exact ih (sound.meet keeps member met) later
    · cases run

private theorem meetArgument {stray : Refusal} {argument : String}
    (sound : reading.Sound kept switches)
    (run : reading.meetArgument switches stray argument = .ok reading') :
    reading'.Sound kept switches := by
  unfold Reading.meetArgument at run
  split at run
  · exact sound.meetName keeps run
  · exact sound.meetLetters keeps run
  · split at run
    · rename_i switch wanted
      cases run
      refine ⟨sound.kept, fun waiting found => ?_⟩
      cases found
      unfold Reading.wanting at wanted
      split at wanted
      · rename_i found
        cases wanted
        exact sound.known ⟨switch, none⟩ found
      · cases wanted
    · cases run

private theorem divide {commands arguments : List String} {division : Division α}
    (sound : reading.Sound kept switches)
    (run : CommandLine.divide switches commands arguments reading = .ok division) :
    division.reading.Sound kept switches := by
  induction arguments generalizing reading with
  | nil =>
    cases run
    exact sound
  | cons argument arguments ih =>
    unfold CommandLine.divide at run
    split at run
    · cases run
      exact sound
    · split at run
      · split at run
        · cases run
          exact sound
        · cases run
      · obtain ⟨middle, met, later⟩ := bind_ok run
        exact ih (sound.meetArgument keeps met) later

end Reading.Sound

/-- What every switch keeps is true of the result, and no two exclusive switches were given. -/
theorem kept_of_readAll {exclusive : List (String × String)} {start built : α}
    {arguments : List String} (keeps : ∀ switch ∈ switches, switch.Keeps kept)
    (begun : kept start []) (run : readAll switches exclusive start arguments = .ok built) :
    ∃ given, kept built given ∧ ∀ pair ∈ exclusive, ¬ (pair.1 ∈ given ∧ pair.2 ∈ given) := by
  unfold readAll at run
  obtain ⟨division, divided, later⟩ := bind_ok run
  obtain ⟨reading, settled, checked⟩ := bind_ok later
  have sound : Reading.Sound kept switches { built := start } := ⟨begun, nofun⟩
  have final := (sound.divide keeps divided).settle keeps settled
  split at checked
  · cases checked
  · rename_i apart
    cases checked
    refine ⟨reading.given, final.kept, fun pair member both => apart ?_⟩
    exact List.any_eq_true.mpr ⟨pair, member, by simpa using both⟩

end

namespace Switch.Keeps

variable {α β : Type} {kept : α → List String → Prop} {name : String}
  {letter : Option Char} {takesDashes : Bool}

private theorem flag {set : α → α}
    (keeps : ∀ built given, kept built given → kept (set built) (name :: given)) :
    Switch.Keeps kept ⟨name, letter, CommandLine.flag set, takesDashes⟩ := by
  intro value built built' given run held
  cases run
  exact keeps built given held

private theorem map_ok {read : Except Refusal β} {set : β → α} {built : α}
    (run : set <$> read = .ok built) :
    ∃ value, built = set value := by
  cases read with
  | error refusal => cases run
  | ok value =>
    cases run
    exact ⟨value, rfl⟩

private theorem single {read : String → Except Refusal β} {set : α → β → α}
    (keeps : ∀ built given value, kept built given → kept (set built value) (name :: given)) :
    Switch.Keeps kept ⟨name, letter, CommandLine.single read set, takesDashes⟩ := by
  intro value built built' given run held
  cases value with
  | none => cases run
  | some text =>
    obtain ⟨value, rfl⟩ := map_ok run
    exact keeps built given value held

private theorem repeated {read : String → Except Refusal β} {add : α → β → α}
    (keeps : ∀ built given value, kept built given → kept (add built value) (name :: given)) :
    Switch.Keeps kept ⟨name, letter, CommandLine.repeated read add, takesDashes⟩ := by
  intro value built built' given run held
  cases value with
  | none => cases run
  | some text =>
    obtain ⟨value, rfl⟩ := map_ok run
    exact keeps built given value held

end Switch.Keeps

section
variable {α β : Type} {get : β → α} {put : β → α → β} {kept : β → List String → Prop}

theorem Switch.run_within (switch : Switch α) (value : Option String) (whole : β) :
    (switch.within get put).run value whole = put whole <$> switch.run value (get whole) := by
  obtain ⟨name, letter, effect, takesDashes⟩ := switch
  cases effect with
  | flag apply => rfl
  | single apply => cases value <;> rfl
  | repeated apply => cases value <;> rfl
  | stop refusal => rfl

theorem Switch.run_within_ok {switch : Switch α} {value : Option String} {whole whole' : β}
    (run : (switch.within get put).run value whole = .ok whole') :
    ∃ part, switch.run value (get whole) = .ok part ∧ whole' = put whole part := by
  rw [run_within] at run
  cases made : switch.run value (get whole) with
  | error refusal =>
    rw [made] at run
    cases run
  | ok part =>
    rw [made] at run
    exact ⟨part, rfl, (Except.ok.inj run).symm⟩

/-- A switch of a part keeps what is known of that part. -/
theorem Switch.Keeps.within {kept : α → List String → Prop}
    (same : ∀ whole part, get (put whole part) = part) {switch : Switch α}
    (keeps : switch.Keeps kept) :
    (switch.within get put).Keeps fun whole => kept (get whole) := by
  intro value built built' given run held
  obtain ⟨part, made, rfl⟩ := run_within_ok run
  simp only [same]
  exact keeps value _ part given made held

/-- A switch of one part keeps what is known of another. -/
theorem Switch.Keeps.aside
    (same : ∀ whole part given, kept whole given → kept (put whole part) given)
    (more : ∀ whole name given, kept whole given → kept whole (name :: given)) (switch : Switch α) :
    (switch.within get put).Keeps kept := by
  intro value built built' given run held
  obtain ⟨part, -, rfl⟩ := run_within_ok run
  exact more _ _ _ (same built part given held)

end

/-- The class directories have one destination: what says where it is was given by its own
switch. -/
structure Destined (arguments : InstrumentArguments) (given : List String) : Prop where
  inPlace : arguments.inPlace = true → "in-place" ∈ given
  outputDirectory : arguments.outputDirectory ≠ none → "output-dir" ∈ given

/-- Another switch says nothing about the destination. -/
theorem Destined.other {arguments arguments' : InstrumentArguments} {given : List String}
    (destined : Destined arguments given) (name : String)
    (inPlace : arguments'.inPlace = arguments.inPlace)
    (outputDirectory : arguments'.outputDirectory = arguments.outputDirectory) :
    Destined arguments' (name :: given) where
  inPlace own := List.mem_cons_of_mem name (destined.inPlace (inPlace ▸ own))
  outputDirectory own :=
    List.mem_cons_of_mem name (destined.outputDirectory (outputDirectory ▸ own))

private theorem keeps_destined : ∀ switch ∈ instrumentSwitches, switch.Keeps Destined := by
  unfold instrumentSwitches
  simp only [List.forall_mem_cons]
  refine ⟨.single ?_, .repeated ?_, .repeated ?_, .repeated ?_, .repeated ?_,
    .single ?outputDirectory,
    .flag ?inPlace, .single ?_, .flag ?noMerge, .flag ?keepDirectoryEntries, .single ?_, nofun⟩
  case outputDirectory =>
    intro built given path held
    exact ⟨fun own => List.mem_cons_of_mem _ (held.inPlace own), fun _ => List.mem_cons_self ..⟩
  case inPlace =>
    intro built given held
    exact ⟨fun _ => List.mem_cons_self .., fun own =>
      List.mem_cons_of_mem _ (held.outputDirectory own)⟩
  case noMerge | keepDirectoryEntries => exact fun built given held => held.other _ rfl rfl
  all_goals exact fun built given value held => held.other _ rfl rfl

private theorem keeps_switchesOf {α : Type} {own : List (Switch α)} {kept : α → List String → Prop}
    (more : ∀ built name given, kept built given → kept built (name :: given))
    (keeps : ∀ switch ∈ own, switch.Keeps kept) :
    ∀ switch ∈ switchesOf own, switch.Keeps fun given => kept given.own := by
  intro switch member
  simp only [switchesOf, List.mem_append, List.mem_map, List.mem_singleton] at member
  rcases member with (⟨inner, member, rfl⟩ | ⟨inner, -, rfl⟩) | rfl
  · exact (keeps inner member).within fun _ _ => rfl
  · apply Switch.Keeps.aside
    · exact fun _ _ _ held => held
    · exact fun whole => more whole.own
  · intro value built built' given run
    cases run

private theorem readCommand_of_parsed {words : List String} {invocation : Invocation}
    (parsed : Invocation.ofArguments words = .ok invocation) :
    ∃ name rest behind, readCommand name rest = .ok (invocation.command, behind) := by
  unfold Invocation.ofArguments at parsed
  obtain ⟨division, -, later⟩ := bind_ok parsed
  split at later
  · cases later
  · rename_i name rest _ _
    obtain ⟨⟨command, behind⟩, read, later⟩ := bind_ok later
    obtain ⟨front, -, answered⟩ := bind_ok later
    cases answered
    exact ⟨name, rest, behind, read⟩
  · obtain ⟨front, -, answered⟩ := bind_ok later
    cases answered

private theorem destined_of_readCommand {name : String} {words : List String}
    {arguments : InstrumentArguments} {common : CommonArguments}
    (read : readCommand name words = .ok (.instrument arguments, common)) :
    ¬ (arguments.inPlace = true ∧ arguments.outputDirectory ≠ none) := by
  unfold readCommand at read
  split at read
  · obtain ⟨given, run, answered⟩ := bind_ok read
    cases answered
    have keeps : ∀ switch ∈ switchesOf instrumentSwitches, switch.Keeps fun given =>
        Destined given.own :=
      keeps_switchesOf (fun _ name _ held => held.other name rfl rfl) keeps_destined
    have begun : Destined {} [] := ⟨nofun, fun own => absurd rfl own⟩
    obtain ⟨names, destined, apart⟩ := kept_of_readAll keeps begun run
    rintro ⟨inPlace, elsewhere⟩
    exact apart _ (List.mem_singleton_self _) ⟨destined.inPlace inPlace,
      destined.outputDirectory elsewhere⟩
  all_goals
    first
    | cases read
    | obtain ⟨given, -, answered⟩ := bind_ok read
      cases answered

/-- Arguments that are read as a command never ask for two destinations. -/
theorem destination_of_parsed {words : List String} {invocation : Invocation}
    {arguments : InstrumentArguments} (parsed : Invocation.ofArguments words = .ok invocation)
    (command : invocation.command = .instrument arguments) (inPlace : arguments.inPlace = true) :
    arguments.outputDirectory = none := by
  obtain ⟨name, rest, behind, read⟩ := readCommand_of_parsed parsed
  rw [command] at read
  by_contra elsewhere
  exact destined_of_readCommand read ⟨inPlace, elsewhere⟩

section
variable {α : Type}

/-- An option that was given is what was given, under both of two settings. -/
def Prevails (given : Option α) (one other : α) :
    Prop := ∀ value, given = some value → one = value ∧ other = value

def givenList (items : List α) : Option (List α) := if items.isEmpty then none else some items

/-- What a flag stands for. -/
def givenFlag (flag : Bool) (meaning : α) : Option α := if flag then some meaning else none

theorem prevails_or (given one other : Option α) (usual usual' : α) :
    Prevails given ((given.or one).getD usual) ((given.or other).getD usual') := by
  rintro value rfl
  exact ⟨rfl, rfl⟩

private theorem prevails_some (given one other : Option α) :
    Prevails (given.map some) (given.or one) (given.or other) := by
  intro value known
  obtain ⟨item, rfl, rfl⟩ := Option.map_eq_some_iff.mp known
  exact ⟨rfl, rfl⟩

theorem prevails_chosen (given one other : List α) :
    Prevails (givenList given) (chosen given one) (chosen given other) := by
  intro items known
  unfold givenList at known
  unfold chosen
  split at known
  · cases known
  · rename_i filled
    cases known
    rw [if_neg filled, if_neg filled]
    exact ⟨rfl, rfl⟩

private theorem prevails_flag {given : Bool} {meaning one other : α}
    (on : given = true → one = meaning ∧ other = meaning) :
    Prevails (givenFlag given meaning) one other := by
  intro value known
  cases given with
  | true =>
    cases known
    exact on rfl
  | false => cases known

end

def targetsOf (options : Instrument.Options) : TargetLists :=
  ⟨options.archives, options.archiveSets, options.classDirectories⟩

/-- The targets that were given, all three kinds as one. -/
def givenTargets (arguments : InstrumentArguments) : Option TargetLists :=
  if (TargetLists.ofArguments arguments).isEmpty then none else some (.ofArguments arguments)

/-- Everything but the output directory prevails. -/
structure InstrumentPrevails (arguments : InstrumentArguments) (one other : Instrument.Options)
    (program program' : Program) : Prop where
  rewriter : Prevails arguments.rewriter program.path program'.path
  rewriterArguments :
    Prevails (givenList arguments.rewriterArguments) program.arguments program'.arguments
  targets : Prevails (givenTargets arguments) (targetsOf one) (targetsOf other)
  inPlace : Prevails (givenFlag arguments.inPlace none) one.outputDirectory other.outputDirectory
  metadataFile : Prevails arguments.metadataFile one.metadataFile other.metadataFile
  merge : Prevails (givenFlag arguments.noMerge false) one.merge other.merge
  keepDirectoryEntries :
    Prevails (givenFlag arguments.keepDirectoryEntries true) one.keepDirectoryEntries
      other.keepDirectoryEntries
  jobs : Prevails arguments.jobs one.jobs other.jobs

structure MergePrevails (arguments : MergeArguments) (one other : MergeOptions) : Prop where
  searchPath : Prevails arguments.searchPath one.searchPath other.searchPath
  fileName : Prevails arguments.fileName one.fileName other.fileName
  output : Prevails arguments.output one.output other.output

structure CheckPrevails (arguments : CheckArguments) (one other : Check.Options) : Prop where
  metadataFile : Prevails arguments.metadataFile one.metadataFile other.metadataFile
  dataFiles : Prevails (givenList arguments.dataFiles) one.dataFiles other.dataFiles
  minimumLine : Prevails (arguments.minimumLine.map some) one.minimums.line other.minimums.line
  minimumBranch : Prevails (arguments.minimumBranch.map some) one.minimums.branch
    other.minimums.branch

/-- A name that was given for the dispatch is the name of the dispatch that comes out. -/
structure ReportPrevails (arguments : ReportArguments) (one other : Report.Options) : Prop where
  metadataFile : Prevails arguments.metadataFile one.metadataFile other.metadataFile
  sourceRoots : Prevails (givenList arguments.sourceRoots) one.sourceRoots other.sourceRoots
  outputDirectory : Prevails arguments.outputDirectory one.outputDirectory other.outputDirectory
  formats : Prevails (givenList arguments.formats) one.formats other.formats
  encoding : Prevails arguments.encoding one.encoding other.encoding
  dispatch : Prevails (arguments.dispatch.map Report.Dispatch.ofName)
    (.ok one.dispatch) (.ok other.dispatch)

private theorem program_of_rewriterProgram {arguments : InstrumentArguments}
    {settings : InstrumentSettings} {program : Program}
    (made : rewriterProgram arguments settings = .ok program) :
    arguments.rewriter.or settings.rewriter = some program.path ∧
      program.arguments = chosen arguments.rewriterArguments settings.rewriterArguments := by
  unfold rewriterProgram at made
  split at made
  · rename_i path found
    cases made
    exact ⟨found, rfl⟩
  · cases made

private theorem prevails_instrument {arguments : InstrumentArguments} {one other : Settings}
    {program program' : Program} (made : rewriterProgram arguments one.instrument = .ok program)
    (made' : rewriterProgram arguments other.instrument = .ok program') :
    InstrumentPrevails arguments (instrumentOptions arguments one)
      (instrumentOptions arguments other) program
      program' where
  rewriter := by
    intro path given
    have found := (program_of_rewriterProgram made).1
    have found' := (program_of_rewriterProgram made').1
    rw [given] at found found'
    exact ⟨(Option.some.inj found).symm, (Option.some.inj found').symm⟩
  rewriterArguments := by
    rw [(program_of_rewriterProgram made).2, (program_of_rewriterProgram made').2]
    exact prevails_chosen _ _ _
  targets := by
    intro lists given
    unfold givenTargets at given
    split at given
    · cases given
    · rename_i named
      cases given
      have first (fallback : TargetLists) :
          (TargetLists.ofArguments arguments).orElse fallback = .ofArguments arguments :=
          if_neg named
      simp only [targetsOf, instrumentOptions, first, and_self]
  inPlace := prevails_flag fun given => by
    simp only [instrumentOptions, given, Bool.true_or, ↓reduceIte, and_self]
  metadataFile := prevails_or _ _ _ _ _
  merge := prevails_flag fun given => by
    simp only [instrumentOptions, given, Bool.not_true, Bool.false_and, and_self]
  keepDirectoryEntries := prevails_flag fun given => by
    simp only [instrumentOptions, given, Bool.true_or, and_self]
  jobs := prevails_or _ _ _ _ _

private theorem prevails_merge (arguments : MergeArguments) (one other : Settings) :
    MergePrevails arguments (mergeOptions arguments one) (mergeOptions arguments other) where
  searchPath := prevails_or _ _ _ _ _
  fileName := prevails_or _ _ _ _ _
  output := prevails_or _ _ _ _ _

private theorem prevails_check (arguments : CheckArguments) (one other : Settings) :
    CheckPrevails arguments (checkOptions arguments one) (checkOptions arguments other) where
  metadataFile := prevails_or _ _ _ _ _
  dataFiles := prevails_chosen _ _ _
  minimumLine := prevails_some _ _ _
  minimumBranch := prevails_some _ _ _

private theorem dispatch_of_reportOptions {arguments : ReportArguments} {settings : Settings}
    {options : Report.Options} (made : reportOptions arguments settings = .ok options)
    {name : String} (given : arguments.dispatch = some name) :
    Report.Dispatch.ofName name = .ok options.dispatch := by
  unfold reportOptions at made
  simp only [given, Option.some_or] at made
  obtain ⟨dispatch, read, answered⟩ := bind_ok made
  cases answered
  exact read

/-- Only the dispatch depends on more than the first value there is. -/
theorem fields_of_reportOptions {arguments : ReportArguments} {settings : Settings}
    {options : Report.Options} (made : reportOptions arguments settings = .ok options) :
    options.metadataFile = metadataFile arguments.metadataFile settings ∧
      options.sourceRoots =
        chosen arguments.sourceRoots
          (chosen settings.report.sourceRoots ({} : Report.Options).sourceRoots) ∧
      options.outputDirectory =
        (arguments.outputDirectory.or settings.report.outputDirectory).getD
          ({} : Report.Options).outputDirectory ∧
      options.formats = chosen arguments.formats settings.report.formats ∧
      options.encoding = (arguments.encoding.or settings.report.encoding).getD
        ({} : Report.Options).encoding := by
  unfold reportOptions at made
  simp only at made
  split at made
  · obtain ⟨dispatch, -, answered⟩ := bind_ok made
    cases answered
    exact ⟨rfl, rfl, rfl, rfl, rfl⟩
  · cases made
    exact ⟨rfl, rfl, rfl, rfl, rfl⟩

private theorem prevails_report {arguments : ReportArguments} {one other : Settings}
    {options options' : Report.Options} (made : reportOptions arguments one = .ok options)
    (made' : reportOptions arguments other = .ok options') :
    ReportPrevails arguments options options' := by
  obtain ⟨metadata, roots, directory, formats, encoding⟩ := fields_of_reportOptions made
  obtain ⟨metadata', roots', directory', formats', encoding'⟩ := fields_of_reportOptions made'
  constructor
  case metadataFile =>
    rw [metadata, metadata']
    exact prevails_or _ _ _ _ _
  case sourceRoots =>
    rw [roots, roots']
    exact prevails_chosen _ _ _
  case outputDirectory =>
    rw [directory, directory']
    exact prevails_or _ _ _ _ _
  case formats =>
    rw [formats, formats']
    exact prevails_chosen _ _ _
  case encoding =>
    rw [encoding, encoding']
    exact prevails_or _ _ _ _ _
  case dispatch =>
    intro value given
    obtain ⟨name, named, rfl⟩ := Option.map_eq_some_iff.mp given
    exact ⟨(dispatch_of_reportOptions made named).symm,
      (dispatch_of_reportOptions made' named).symm⟩

/-- Of a command line that names it, the output directory is taken away by a setting that asks for
rewriting in place. -/
theorem outputDirectory_eq {arguments : InstrumentArguments} {path : Path}
    (given : arguments.outputDirectory = some path) (elsewhere : arguments.inPlace = false)
    (settings : Settings) :
    (instrumentOptions arguments settings).outputDirectory =
      if settings.instrument.inPlace = some true then none else some path := by
  cases asked : settings.instrument.inPlace with
  | none => simp [instrumentOptions, given, elsewhere, asked]
  | some inPlace => cases inPlace <;> simp [instrumentOptions, given, elsewhere, asked]

private theorem prevails_outputDirectory_iff {arguments : InstrumentArguments}
    (single : arguments.inPlace = true → arguments.outputDirectory = none) (one other : Settings) :
    Prevails (arguments.outputDirectory.map some) (instrumentOptions arguments one).outputDirectory
        (instrumentOptions arguments other).outputDirectory ↔
      (arguments.outputDirectory ≠ none →
        one.instrument.inPlace ≠ some true ∧ other.instrument.inPlace ≠ some true) := by
  cases given : arguments.outputDirectory with
  | none => exact ⟨fun _ own => absurd rfl own, fun _ => nofun⟩
  | some path =>
    have elsewhere : arguments.inPlace = false := by
      cases inPlace : arguments.inPlace with
      | true => exact absurd (single inPlace) (by simp [given])
      | false => rfl
    rw [outputDirectory_eq given elsewhere, outputDirectory_eq given elsewhere]
    constructor
    · intro prevails _
      obtain ⟨kept, kept'⟩ := prevails (some path) rfl
      refine ⟨fun asked => ?_, fun asked => ?_⟩
      · rw [if_pos asked] at kept
        cases kept
      · rw [if_pos asked] at kept'
        cases kept'
    · intro allowed value known
      cases known
      obtain ⟨free, free'⟩ := allowed (Option.some_ne_none path)
      exact ⟨if_neg free, if_neg free'⟩

/-- What the arguments of a command say prevails under any two settings. Only an output directory
that is given does not prevail, and just then, when one of the settings asks for rewriting in
place. -/
theorem given_arguments_prevail {words : List String} {invocation : Invocation}
    (parsed : Invocation.ofArguments words = .ok invocation) (one other : Settings) :
    match invocation.command with
    | .instrument arguments => ∀ program program',
        rewriterProgram arguments one.instrument = .ok program →
        rewriterProgram arguments other.instrument = .ok program' →
        InstrumentPrevails arguments (instrumentOptions arguments one)
          (instrumentOptions arguments other) program
          program' ∧
        (Prevails (arguments.outputDirectory.map some)
          (instrumentOptions arguments one).outputDirectory
            (instrumentOptions arguments other).outputDirectory ↔
          (arguments.outputDirectory ≠ none →
            one.instrument.inPlace ≠ some true ∧ other.instrument.inPlace ≠ some true))
    | .merge arguments =>
      MergePrevails arguments (mergeOptions arguments one) (mergeOptions arguments other)
    | .check arguments =>
      CheckPrevails arguments (checkOptions arguments one) (checkOptions arguments other)
    | .report arguments => ∀ options options',
        reportOptions arguments one = .ok options → reportOptions arguments other = .ok options' →
        ReportPrevails arguments options options' := by
  have single := @destination_of_parsed words invocation
  cases command : invocation.command with
  | instrument arguments =>
    intro program program' made made'
    exact ⟨prevails_instrument made made',
      prevails_outputDirectory_iff (single parsed command) one other⟩
  | merge arguments => exact prevails_merge arguments one other
  | check arguments => exact prevails_check arguments one other
  | report arguments =>
    intro options options' made made'
    exact prevails_report made made'

private def words : List String :=
  ["instrument", "--rewriter", "rw", "--classes", "build", "--output-dir", "out", "--no-merge"]

private def arguments : InstrumentArguments where
  rewriter := some ⟨"rw"⟩
  classDirectories := [⟨"build"⟩]
  outputDirectory := some ⟨"out"⟩
  noMerge := true

private theorem parsed_words :
    Invocation.ofArguments words = .ok { command := .instrument arguments } := rfl

/-- Settings that name other targets and another output directory. -/
private def elsewhere : Settings :=
  { instrument := {
    archives := [⟨"a.jar"⟩], outputDirectory := some ⟨"away"⟩, merge := some true } }

private def inPlace : Settings := { instrument := { inPlace := some true } }

theorem given_arguments_prevail_of_instrument :
    InstrumentPrevails arguments (instrumentOptions arguments elsewhere)
      (instrumentOptions arguments {})
        ⟨⟨"rw"⟩, []⟩ ⟨⟨"rw"⟩, []⟩ ∧
      (instrumentOptions arguments elsewhere).outputDirectory = some ⟨"out"⟩ ∧
      (instrumentOptions arguments elsewhere).classDirectories = [⟨"build"⟩] := by
  obtain ⟨prevails, destination⟩ := given_arguments_prevail parsed_words elsewhere {} ⟨⟨"rw"⟩,
    []⟩ ⟨⟨"rw"⟩, []⟩ rfl rfl
  have out := destination.mpr (fun _ => ⟨nofun, nofun⟩) (some ⟨"out"⟩) rfl
  have targets := (prevails.targets _ rfl).1
  exact ⟨prevails, out.1, congrArg TargetLists.classDirectories targets⟩

/-- An output directory that was given can be lost to a setting. -/
theorem outputDirectory_overruled :
    ¬ ∀ (words : List String) (invocation : Invocation) (arguments : InstrumentArguments)
      (one other : Settings) (program program' : Program),
      Invocation.ofArguments words = .ok invocation → invocation.command = .instrument arguments →
      rewriterProgram arguments one.instrument = .ok program →
      rewriterProgram arguments other.instrument = .ok program' →
      Prevails (arguments.outputDirectory.map some)
        (instrumentOptions arguments one).outputDirectory
        (instrumentOptions arguments other).outputDirectory := by
  intro claim
  have prevails := claim words _ arguments {} inPlace ⟨⟨"rw"⟩, []⟩ ⟨⟨"rw"⟩,
    []⟩ parsed_words rfl rfl rfl
  exact absurd (prevails (some ⟨"out"⟩) rfl).2 nofun

end ClassCoverage.CommandLine
