import ClassCoverage.Text.Utf8
import ClassCoverage.Toml.Scalar
import ClassCoverage.Toml.Tree

/-! Reading TOML documents. A document is read as a whole or not at all; its tables keep their keys
in the order in which they appear. -/
namespace ClassCoverage.Toml

/-- How deep values may be nested, and how many parts a key may have. -/
def depthLimit : Nat := 80

def isBareChar (char : Char) : Bool := char.isAlphanum || char == '_' || char == '-'

def readSimpleKey (text : List Char) : Option (String × List Char) :=
  match text with
  | '\x22' :: rest => readLine '\x22' true rest
  | '\x27' :: rest => readLine '\x27' false rest
  | _ =>
    let name := text.takeWhile isBareChar
    if name.isEmpty then none else some (String.ofList name, text.drop name.length)

/-- The parts of a key, between which dots stand. The room bounds their number. -/
def readParts : (room : Nat) → List Char → Option (List String × List Char)
  | 0, _ => none
  | room + 1, text => do
    let (part, rest) ← readSimpleKey (skipBlanks text)
    match skipBlanks rest with
    | '.' :: rest =>
      let (parts, rest) ← readParts room rest
      return (part :: parts, rest)
    | rest => return ([part], rest)

/-- The path to a key and the key itself. -/
def readKey (text : List Char) : Option ((List String × String) × List Char) := do
  let (parts, rest) ← readParts (depthLimit - 1) text
  return ((parts.dropLast, ← parts.getLast?), rest)

/-- Everything in a line behind a number sign. -/
def skipComment : List Char → List Char
  | '#' :: rest => rest.dropWhile isTextChar
  | text => text

/-- Skips blanks, line ends and comments, each of which ends with its line. -/
def skipLines : (room : Nat) → List Char → Option (List Char)
  | 0, _ => none
  | room + 1, text =>
    match skipBlanks text with
    | '\n' :: rest => skipLines room rest
    | '#' :: rest =>
      match skipComment ('#' :: rest) with
      | '\n' :: rest => skipLines room rest
      | _ => none
    | rest => some rest

/-- Skips a comma. Only the closing mark, which stays, may be in its place. -/
def skipComma : List Char → Option (List Char)
  | ',' :: rest => some rest
  | ']' :: rest => some (']' :: rest)
  | _ => none

mutual

/-- A value at a depth of nesting. -/
def readValue : (room : Nat) → (depth : Nat) → List Char → Option (Dynamic × List Char)
  | 0, _, _ => none
  | room + 1, depth, text =>
    match text with
    | '[' :: rest =>
      if depth + 1 < depthLimit then do
        let (items, rest) ← readItems room (depth + 1) rest
        return (.list items none, rest)
      else none
    | '\x7b' :: rest =>
      if depth + 1 < depthLimit then do
        let (fields, rest) ← readPairs room (depth + 1) true [] rest
        return (.table (finish fields) none, rest)
      else none
    | _ => readScalar text

/-- The items of a list up to its end. A comma may follow the last of them. -/
def readItems : (room : Nat) → (depth : Nat) → List Char → Option (List Dynamic × List Char)
  | 0, _, _ => none
  | room + 1, depth, text => do
    match ← skipLines (text.length + 1) text with
    | ']' :: rest => return ([], rest)
    | start =>
      let (item, rest) ← readValue room depth start
      let rest ← skipComma (← skipLines (rest.length + 1) rest)
      let (items, rest) ← readItems room depth rest
      return (item :: items, rest)

/-- The pairs of a table on one line. No comma may follow the last of them. -/
def readPairs : (room : Nat) → (depth : Nat) → (first : Bool) → Fields → List Char →
    Option (Fields × List Char)
  | 0, _, _, _, _ => none
  | room + 1, depth, first, fields, text =>
    match skipBlanks text, first with
    | '\x7d' :: rest, true => some (fields, rest)
    | start, _ => do
      let ((path, key), rest) ← readKey start
      let (value, rest) ← readValue room depth (skipBlanks (← skipChar '=' rest))
      let fields ← fields.assign path key value
      match skipBlanks rest with
      | ',' :: rest => readPairs room depth false fields rest
      | '\x7d' :: rest => return (fields, rest)
      | _ => none

end

/-- What follows the end of a line on which nothing more may stand but a comment. -/
def endLine (text : List Char) : Option (List Char) :=
  match skipComment (skipBlanks text) with
  | [] => some []
  | '\n' :: rest => some rest
  | _ => none

/-- Reads the lines that follow the header with the given path. -/
def readLines : (room : Nat) → (header : List String) → Fields → List Char → Option Fields
  | 0, _, _, _ => none
  | room + 1, header, fields, text =>
    match skipBlanks text with
    | [] => some fields
    | '\n' :: rest => readLines room header fields rest
    | '#' :: rest => do readLines room header fields (← endLine ('#' :: rest))
    | '[' :: '[' :: rest => do
      let ((path, key), rest) ← readKey rest
      let rest ← endLine (← skipChar ']' (← skipChar ']' rest))
      readLines room (path ++ [key]) (← fields.openElement path key) rest
    | '[' :: rest => do
      let ((path, key), rest) ← readKey rest
      let rest ← endLine (← skipChar ']' rest)
      readLines room (path ++ [key]) (← fields.openTable path key) rest
    | start => do
      let ((path, key), rest) ← readKey start
      let rest := skipBlanks (← skipChar '=' rest)
      let (value, rest) ← readValue (2 * rest.length + 2) 0 rest
      readLines room header (← fields.assignWithin header path key value) (← endLine rest)

/-- Makes one line feed of every carriage return that stands before one. -/
def joinLineEnds : List Char → List Char
  | '\r' :: '\n' :: rest => '\n' :: joinLineEnds rest
  | char :: rest => char :: joinLineEnds rest
  | [] => []

/-- A mark of the byte order may stand before the document. -/
def dropOrderMark : List Char → List Char
  | '\uFEFF' :: rest => rest
  | text => text

/-- The table a document describes. -/
def read? (text : List Char) : Option Dynamic := do
  let lines := joinLineEnds (dropOrderMark text)
  return .table (finish (← readLines (lines.length + 1) [] [] lines)) none

end ClassCoverage.Toml
