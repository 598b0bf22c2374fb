import ClassCoverage.Store
import ClassCoverage.Checksum
import ClassCoverage.Text.Utf8

/-! The metadata format: eight magic bytes, the digest of the payload, and the payload, which
lists every record of a store under its class name. Reading undoes writing. -/
namespace ClassCoverage.Metadata

/-- Why a payload cannot be read. -/
inductive PayloadFault where
  | cutShort
  | overrun
  | tag (found : Nat)
  | bool (found : Nat)
  | text (fault : Utf8.Fault)
  deriving DecidableEq, Repr

def PayloadFault.message : PayloadFault → String
  | .cutShort => "io error: unexpected end of file"
  | .overrun => "io error: "
  | .tag found => s!"tag for enum is not valid, found {found}"
  | .bool found => s!"invalid u8 while decoding bool, expected 0 or 1, found {found}"
  | .text fault => s!"string is not valid utf8: {fault.message}"

/-- Why a file is not a metadata file. -/
inductive Problem where
  | short (size : Nat)
  | magic
  | checksum
  | payload (fault : PayloadFault)
  | misplaced (key name : String)
  deriving DecidableEq, Repr

def Problem.message : Problem → String
  | .short size => s!"file is {size} bytes, shorter than the header"
  | .magic => "not a jarcov metadata file (bad magic)"
  | .checksum => "checksum mismatch, the file is truncated or damaged"
  | .payload fault => s!"Failed to decode coverage data: {fault.message}"
  | .misplaced key name => s!"record stored under '{key}' is for class '{name}'"

/-- The last byte of the magic is the version of the format. -/
def magic : Bytes := [0x4A, 0x41, 0x52, 0x43, 0x4F, 0x56, 0x00, 0x01]

def writeNumber (number : Nat) : Bytes := Bytes.ofNat 8 number

def writeText (text : String) : Bytes :=
  let bytes := Utf8.encode text.toList
  writeNumber bytes.length ++ bytes

def writeList {α : Type} (item : α → Bytes) (items : List α) : Bytes :=
  writeNumber items.length ++ items.flatMap item

def writeOption {α : Type} (item : α → Bytes) : Option α → Bytes
  | none => [0]
  | some value => 1 :: item value

def writeLine (counter : LineCounter) : Bytes :=
  Bytes.ofNat 4 counter.line.toNat ++ Bytes.ofNat 8 counter.hits.toNat

def writeBranch (counter : BranchCounter) : Bytes :=
  Bytes.ofNat 4 counter.line.toNat ++ Bytes.ofNat 4 counter.arm.toNat ++
    [if counter.taken then 1 else 0]

def writeRecord (record : Record) : Bytes :=
  writeText record.name ++ writeOption writeText record.sourceFile ++
    writeList writeLine record.lines ++ writeList writeBranch record.branches

def payload (store : Store) : Bytes :=
  writeList (fun record => writeText record.name ++ writeRecord record) store.records

def encode (store : Store) : Bytes :=
  magic ++ Sha256.digest (payload store) ++ payload store

/-- Takes what it reads from the front of the bytes that are left. -/
abbrev Reader := StateT Bytes (Except PayloadFault)

def readBytes (fault : PayloadFault) (size : Nat) : Reader Bytes := fun bytes =>
  let front := bytes.take size
  if front.length = size then .ok (front, bytes.drop size) else .error fault

def readNumber (width : Nat) : Reader Nat := Bytes.toNat <$> readBytes .cutShort width

def readText : Reader String := do
  let bytes ← readBytes .overrun (← readNumber 8)
  match Utf8.decode bytes with
  | .ok chars => return String.ofList chars
  | .error fault => throw (.text fault)

def readTimes {α : Type} (item : Reader α) : Nat → Reader (List α)
  | 0 => return []
  | count + 1 => do
    let value ← item
    let values ← readTimes item count
    return value :: values

def readList {α : Type} (item : Reader α) : Reader (List α) := do readTimes item (← readNumber 8)

def readOption {α : Type} (item : Reader α) : Reader (Option α) := do
  match ← readNumber 1 with
  | 0 => return none
  | 1 => return some (← item)
  | tag => throw (.tag tag)

def readBool : Reader Bool := do
  match ← readNumber 1 with
  | 0 => return false
  | 1 => return true
  | byte => throw (.bool byte)

def readLine : Reader LineCounter := do
  let line ← readNumber 4
  let hits ← readNumber 8
  return { line := .ofNat line, hits := .ofNat hits }

def readBranch : Reader BranchCounter := do
  let line ← readNumber 4
  let arm ← readNumber 4
  let taken ← readBool
  return { line := .ofNat line, arm := .ofNat arm, taken := taken }

def readRecord : Reader Record := do
  let name ← readText
  let sourceFile ← readOption readText
  let lines ← readList readLine
  let branches ← readList readBranch
  return { name := name, sourceFile := sourceFile, lines := lines, branches := branches }

/-- The records with the keys they are stored under, in the order of the file. -/
def readPairs : Reader (List (String × Record)) :=
  readList do
    let key ← readText
    let record ← readRecord
    return (key, record)

/-- Puts a record under its key, in the place of an earlier one, in key order. -/
def keep (pair : String × Record) : List (String × Record) → List (String × Record)
  | [] => [pair]
  | other :: rest =>
    if pair.1 < other.1 then pair :: other :: rest
    else if other.1 = pair.1 then pair :: rest
    else other :: keep pair rest

/-- The last record of each key, in key order. -/
def lastOfEach (pairs : List (String × Record)) : List (String × Record) :=
  pairs.foldl (fun kept pair => keep pair kept) []

def storeOfPairs (pairs : List (String × Record)) : Except Problem Store :=
  let kept := lastOfEach pairs
  match kept.find? fun pair => pair.1 ≠ pair.2.name with
  | some (key, record) => .error (.misplaced key record.name)
  | none => .ok (Store.ofList (kept.map Prod.snd))

/-- What follows the last record of the payload is ignored. -/
def decode (bytes : Bytes) : Except Problem Store :=
  let rest := bytes.drop magic.length
  let payload := rest.drop 32
  if bytes.length < magic.length + 32 then .error (.short bytes.length)
  else if bytes.take magic.length ≠ magic then .error .magic
  else if Sha256.digest payload ≠ rest.take 32 then .error .checksum
  else match readPairs.run payload with
    | .error fault => .error (.payload fault)
    | .ok (pairs, _) => storeOfPairs pairs

end ClassCoverage.Metadata
