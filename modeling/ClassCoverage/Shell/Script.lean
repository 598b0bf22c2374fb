import ClassCoverage.Bytes

/-! Shell scripts as lists of simple commands. Quotes, variables, redirections and the separators
between commands are understood; there are no pipes and no compound commands. -/
namespace ClassCoverage.Shell

/-- A part of a word. Only what unquoted variables hold is cut at blanks. -/
inductive Piece where
  | literal (bytes : Bytes)
  | variable (name : String) (quoted : Bool)
  deriving DecidableEq, Repr

abbrev Word := List Piece

inductive Stream where
  | output
  | errors
  deriving DecidableEq, Repr

/-- What decides whether a command is run after the ones before it. -/
inductive Condition where
  | always
  | afterSuccess
  | afterFailure
  deriving DecidableEq, Repr

inductive Token where
  | word (word : Word)
  | separator (condition : Condition)
  | toFile (stream : Stream) (append : Bool)
  | toStream (source target : Stream)
  deriving DecidableEq, Repr

inductive Redirection where
  | toFile (stream : Stream) (append : Bool) (file : Word)
  | toStream (source target : Stream)
  deriving DecidableEq, Repr

structure Command where
  condition : Condition := .always
  words : List Word := []
  redirections : List Redirection := []
  deriving DecidableEq, Repr

abbrev Script := List Command

inductive Quoting where
  | bare
  | single
  | double
  deriving DecidableEq

def isNameChar (char : Char) : Bool := char.isAlphanum || char == '_'

/-- The name of the variable at the head of a text, if there is one, and what follows it. -/
def variableName? (text : List Char) : Option (String × List Char) :=
  match text with
  | '\x7b' :: rest =>
    let name := rest.takeWhile (· != '\x7d')
    if name.isEmpty || rest.length = name.length then none
    else some (String.ofList name, rest.drop (name.length + 1))
  | char :: rest =>
    if char.isDigit || char == '$' || char == '#' || char == '?' || char == '@' || char == '*' then
      some (String.singleton char, rest)
    else if isNameChar char then
      let name := text.takeWhile isNameChar
      some (String.ofList name, text.drop name.length)
    else none
  | [] => none

def literal (char : Char) : Piece := .literal (String.utf8EncodeChar char)

/-- Adds a piece to the word at the end, starting one if need be. -/
def extend (word : Option Word) (pieces : Word) : Option Word := some (word.getD [] ++ pieces)

def finished (word : Option Word) : List Token := (word.map Token.word).toList

/-- Ends the word before a redirection, unless it is the number of the stream. -/
def streamBefore (word : Option Word) : List Token × Stream :=
  if word = some [literal '1'] then ([], .output)
  else if word = some [literal '2'] then ([], .errors)
  else (finished word, .output)

def isEscapable (char : Char) : Bool :=
  char == '$' || char == '\x60' || char == '\x22' || char == '\\'

/-- Cuts a script into tokens. The room bounds the number of steps; there is no answer if a quote
is not closed. -/
def tokens : (room : Nat) → Quoting → Option Word → List Char → Option (List Token)
  | 0, _, _, _ => none
  | _, .bare, word, [] => some (finished word)
  | _, _, _, [] => none
  | room + 1, .single, word, char :: rest =>
    if char = '\x27' then tokens room .bare word rest
    else tokens room .single (extend word [literal char]) rest
  | room + 1, .double, word, '\\' :: char :: rest =>
    if char = '\n' then tokens room .double word rest
    else if isEscapable char then tokens room .double (extend word [literal char]) rest
    else tokens room .double (extend word [literal '\\']) (char :: rest)
  | room + 1, .double, word, '$' :: rest =>
    match variableName? rest with
    | some (name, rest) => tokens room .double (extend word [.variable name true]) rest
    | none => tokens room .double (extend word [literal '$']) rest
  | room + 1, .double, word, char :: rest =>
    if char = '\x22' then tokens room .bare word rest
    else tokens room .double (extend word [literal char]) rest
  | room + 1, .bare, word, '\\' :: char :: rest =>
    if char = '\n' then tokens room .bare word rest
    else tokens room .bare (extend word [literal char]) rest
  | room + 1, .bare, word, '$' :: rest =>
    match variableName? rest with
    | some (name, rest) => tokens room .bare (extend word [.variable name false]) rest
    | none => tokens room .bare (extend word [literal '$']) rest
  | room + 1, .bare, word, '&' :: '&' :: rest => do
    return finished word ++ .separator .afterSuccess :: (← tokens room .bare none rest)
  | room + 1, .bare, word, '|' :: '|' :: rest => do
    return finished word ++ .separator .afterFailure :: (← tokens room .bare none rest)
  | room + 1, .bare, word, '>' :: '&' :: '1' :: rest => do
    let (before, stream) := streamBefore word
    return before ++ .toStream stream .output :: (← tokens room .bare none rest)
  | room + 1, .bare, word, '>' :: '&' :: '2' :: rest => do
    let (before, stream) := streamBefore word
    return before ++ .toStream stream .errors :: (← tokens room .bare none rest)
  | room + 1, .bare, word, '>' :: '>' :: rest => do
    let (before, stream) := streamBefore word
    return before ++ .toFile stream true :: (← tokens room .bare none rest)
  | room + 1, .bare, word, '>' :: rest => do
    let (before, stream) := streamBefore word
    return before ++ .toFile stream false :: (← tokens room .bare none rest)
  | room + 1, .bare, word, char :: rest =>
    if char = '\x27' then tokens room .single (extend word []) rest
    else if char = '\x22' then tokens room .double (extend word []) rest
    else if char = ' ' ∨ char = '\t' then return finished word ++ (← tokens room .bare none rest)
    else if char = ';' ∨ char = '\n' then
      return finished word ++ .separator .always :: (← tokens room .bare none rest)
    else if char = '#' ∧ word.isNone then tokens room .bare none (rest.dropWhile (· != '\n'))
    else tokens room .bare (extend word [literal char]) rest

/-- Adds a token to the command that is being put together. A file name is missing if there is no
answer. -/
def gather : Command → List Token → Option Script
  | command, [] => some [command]
  | command, .word word :: rest => gather { command with words := command.words ++ [word] } rest
  | command, .separator condition :: rest => do
    return command :: (← gather { condition := condition } rest)
  | command, .toStream source target :: rest =>
    gather { command with redirections := command.redirections ++ [.toStream source target] } rest
  | command, .toFile stream append :: .word file :: rest =>
    gather { command with redirections := command.redirections ++
      [.toFile stream append file] } rest
  | _, .toFile .. :: _ => none

/-- Is there nothing to do? -/
def Command.isIdle (command : Command) : Bool :=
  command.words.isEmpty && command.redirections.isEmpty

def Script.ofText? (text : String) : Option Script := do
  let tokens ← tokens (text.length + 1) .bare none text.toList
  return (← gather {} tokens).filter fun command => !command.isIdle

end ClassCoverage.Shell
