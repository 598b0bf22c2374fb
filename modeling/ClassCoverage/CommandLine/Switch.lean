import ClassCoverage.Text

/-! Switches of a command line. A switch is written with two dashes and its name, or with one dash
and its letter; its value is attached to it or is the next argument. A switch waits until the next
one is met before it takes effect, so that of two faults the later one can be found first. -/
namespace ClassCoverage.CommandLine

/-- Why arguments are not run as a command. -/
inductive Refusal where
  | unknownArgument
  | unknownCommand
  | noCommand
  | nothingGiven
  | noValue
  | badValue
  | surplusValue
  | conflict
  | help
  | version
  deriving DecidableEq, Repr

/-- What a switch does to what the arguments are read into. -/
inductive Effect (α : Type) where
  | flag (apply : α → α)
  | single (apply : String → α → Except Refusal α)
  | repeated (apply : String → α → Except Refusal α)
  | stop (refusal : Refusal)

/-- Values may start with a dash only if `takesDashes` is set. -/
structure Switch (α : Type) where
  name : String
  letter : Option Char := none
  effect : Effect α
  takesDashes : Bool := false

namespace Switch

variable {α : Type}

def takesValue (switch : Switch α) : Bool :=
  match switch.effect with
  | .single _ => true
  | .repeated _ => true
  | _ => false

def isRepeatable (switch : Switch α) : Bool :=
  match switch.effect with
  | .repeated _ => true
  | _ => false

/-- The effect of a switch that was met with a value, or without one. -/
def run (switch : Switch α) (value : Option String) (built : α) : Except Refusal α :=
  match switch.effect, value with
  | .stop refusal, _ => .error refusal
  | .flag apply, _ => .ok (apply built)
  | .single apply, some value => apply value built
  | .repeated apply, some value => apply value built
  | _, none => .error .noValue

end Switch

/-- A switch that has not taken effect, with its value if that was met. -/
structure Waiting (α : Type) where
  switch : Switch α
  value : Option String := none

/-- Arguments as far as they have been read. -/
structure Reading (α : Type) where
  built : α
  given : List String := []
  waiting : Option (Waiting α) := none

namespace Reading

variable {α : Type}

/-- Lets a switch take effect. Only some switches may be given again. -/
def apply (switch : Switch α) (value : Option String) (reading : Reading α) :
    Except Refusal (Reading α) := do
  if switch.takesValue && value.isNone then throw .noValue
  if switch.name ∈ reading.given ∧ !switch.isRepeatable then throw .conflict
  return { built := ← switch.run value reading.built, given := switch.name :: reading.given }

/-- Lets the waiting switch take effect. -/
def settle (reading : Reading α) : Except Refusal (Reading α) :=
  match reading.waiting with
  | some waiting => apply waiting.switch waiting.value { reading with waiting := none }
  | none => .ok reading

/-- Meets a switch and the value that is attached to it. -/
def meet (switch : Switch α) (attached : Option String) (reading : Reading α) :
    Except Refusal (Reading α) := do
  if attached.isSome && !switch.takesValue then throw .surplusValue
  let settled ← reading.settle
  if switch.takesValue &&
    attached.isNone then return { settled with waiting := some ⟨switch, none⟩ }
  else apply switch attached settled

/-- The switch whose value is the next argument. -/
def wanting (reading : Reading α) : Option (Switch α) :=
  match reading.waiting with
  | some ⟨switch, none⟩ => some switch
  | _ => none

/-- Meets what stands behind two dashes. -/
def meetName (switches : List (Switch α)) (body : List Char) (reading : Reading α) :
    Except Refusal (Reading α) :=
  let name := String.ofList (body.takeWhile (· ≠ '='))
  let attached := match body.dropWhile (· ≠ '=') with
    | _ :: value => some (String.ofList value)
    | [] => none
  match switches.find? fun switch => switch.name = name with
  | some switch => reading.meet switch attached
  | none => .error .unknownArgument

def attachedToLetter : List Char → Option String
  | [] => none
  | '=' :: value => some (String.ofList value)
  | value => some (String.ofList value)

/-- Meets the letters behind one dash. What follows a letter that takes a value is its value. -/
def meetLetters (switches : List (Switch α)) : List Char → Reading α → Except Refusal (Reading α)
  | [], reading => .ok reading
  | letter :: rest, reading =>
    match switches.find? fun switch => switch.letter = some letter with
    | some switch =>
      if switch.takesValue then reading.meet switch (attachedToLetter rest)
      else do meetLetters switches rest (← reading.meet switch none)
    | none => .error .unknownArgument

/-- Is the next argument a value whatever it starts with? -/
def takesAnything (reading : Reading α) : Bool :=
  match reading.wanting with
  | some switch => switch.takesDashes
  | none => false

/-- Meets an argument that is not the name of a command. One that belongs nowhere is `stray`. -/
def meetArgument (switches : List (Switch α)) (stray : Refusal) (argument : String)
    (reading : Reading α) : Except Refusal (Reading α) :=
  match reading.takesAnything, argument.toList with
  | false, '-' :: '-' :: body => reading.meetName switches body
  | false, '-' :: letter :: letters => reading.meetLetters switches (letter :: letters)
  | _, _ =>
    match reading.wanting with
    | some switch => .ok { reading with waiting := some ⟨switch, some argument⟩ }
    | none => .error stray

end Reading

/-- Arguments up to the name of a command, and the command with what follows it. -/
structure Division (α : Type) where
  reading : Reading α
  command : Option (String × List String) := none

/-- What an argument is that is neither a switch nor a value nor one of the commands. -/
def strayAmong (commands : List String) : Refusal :=
  if commands.isEmpty then .unknownArgument else .unknownCommand

variable {α : Type}

/-- Reads arguments up to the name of a command. Behind two lone dashes nothing may follow. -/
def divide (switches : List (Switch α)) (commands : List String) :
    List String → Reading α → Except Refusal (Division α)
  | [], reading => .ok { reading := reading }
  | argument :: rest, reading =>
    if reading.wanting.isNone ∧ argument ∈ commands then
      .ok { reading := reading, command := some (argument, rest) }
    else if argument = "--" ∧ !reading.takesAnything then
      match rest with
      | [] => .ok { reading := reading }
      | stray :: _ => .error (if stray ∈ commands then .unknownArgument else strayAmong commands)
    else do
      divide switches commands rest (← reading.meetArgument switches (strayAmong commands) argument)

/-- Reads the arguments of a command. Switches of one of the `exclusive` pairs are not given
both. -/
def readAll (switches : List (Switch α)) (exclusive : List (String × String)) (start : α)
    (arguments : List String) : Except Refusal α := do
  let division ← divide switches [] arguments { built := start }
  let reading ← division.reading.settle
  if exclusive.any fun (one, other) => one ∈ reading.given ∧
    other ∈ reading.given then throw .conflict
  return reading.built

end ClassCoverage.CommandLine
