import ClassCoverage.Archive
import ClassCoverage.Text.Utf8

/-! The byte format of archives. A record at the end tells where the directory lies, the directory
lists the entries, and each entry has its content behind a header of its own. Bytes in front of the
first entry are passed over. -/
namespace ClassCoverage.Archive

/-- The upper half of the code page of names that are not marked as UTF-8. -/
def oldPage : List Char :=
  ("ÇüéâäàåçêëèïîìÄÅÉæÆôöòûùÿÖÜ¢£¥₧ƒáíóúñÑªº¿⌐¬½¼¡«»░▒▓│┤╡╢╖╕╣║╗╝╜╛┐└┴┬├─┼╞╟╚╔╩╦╠═╬╧╨╤╥╙╘╒╓╫╪┘┌█▄▌▐▀" ++
    "αßΓπΣσµτΦΘΩδ∞φε∩≡±≥≤⌠⌡÷≈°∙·√ⁿ²■\u00a0").toList

def oldChar (byte : UInt8) : Char :=
  if byte < 128 then Char.ofNat byte.toNat else oldPage.getD (byte.toNat - 128) '\uFFFD'

def decodeName (isUtf8 : Bool) (bytes : Bytes) : String :=
  String.ofList (if isUtf8 then Utf8.decodeLossy bytes else bytes.map oldChar)

def isPlain (name : String) : Bool := name.toList.all fun char => char.val < 128

def localSignature : Bytes := [0x50, 0x4b, 3, 4]

def directorySignature : Bytes := [0x50, 0x4b, 1, 2]

def endSignature : Bytes := [0x50, 0x4b, 5, 6]

/-- The number in a field of `width` bytes behind `offset` bytes. -/
def field (bytes : Bytes) (offset width : Nat) : Nat := Bytes.toNat ((bytes.drop offset).take width)

/-- What the record at the end says. -/
structure EndRecord where
  position : Nat
  disk : Nat
  directoryDisk : Nat
  count : Nat
  directoryOffset : Nat

/-- Reads the record at a position. Its comment must not be cut off. -/
def endRecord? (archive : Bytes) (position : Nat) : Option EndRecord :=
  let record := archive.drop position
  if record.length < 22 + field record 20 2 then none
  else some {
    position := position
    disk := field record 4 2
    directoryDisk := field record 6 2
    count := field record 8 2
    directoryOffset := field record 16 4 }

/-- The positions of a signature, in increasing order. -/
def positions (signature : Bytes) : (position : Nat) → Bytes → List Nat
  | _, [] => []
  | position, byte :: rest =>
    let later := positions signature (position + 1) rest
    if signature.isPrefixOf (byte :: rest) then position :: later else later

/-- How many bytes stand in front of the archive, according to where its directory is found. -/
def archiveOffset? (archive : Bytes) (record : EndRecord) : Option Nat :=
  if record.count = 0 then some (record.position - record.directoryOffset)
  else
    let region := (archive.take record.position).drop record.directoryOffset
    (positions directorySignature 0 region).head?

inductive Origin where
  | unix
  | dos
  | other
  deriving DecidableEq

def Origin.ofCode (code : Nat) :
    Origin := if code = 3 then .unix else if code = 0 then .dos else .other

/-- The mode that the attributes of an entry stand for. -/
def modeOf (origin : Origin) (attributes : Nat) : Option Nat :=
  let high := attributes / 65536
  if attributes = 0 then none
  else if high ≠ 0 then some high
  else match origin with
    | .unix => some 0
    | .dos =>
      let mode := if attributes.testBit 4 then 0o40775 else 0o100664
      some (if attributes.testBit 0 then mode - 0o220 else mode)
    | .other => none

/-- An entry of the directory: its head, the size of its content as it is stored, and where its own
header starts. -/
structure Listed where
  head : EntryHead
  storedSize : Nat
  offset : Nat

def stampOf (date time : Nat) : Option Stamp :=
  let stamp : Stamp := ⟨date, time⟩
  if stamp.isValid then some stamp else none

/-- Reads one entry of the directory. -/
def readListed (bytes : Bytes) : Option (Listed × Bytes) :=
  let nameSize := field bytes 28 2
  let size := 46 + nameSize + field bytes 30 2 + field bytes 32 2
  if !directorySignature.isPrefixOf bytes || bytes.length < size then none
  else
    let flags := field bytes 8 2
    some ({
      head := {
        name := decodeName (flags.testBit 11) ((bytes.drop 46).take nameSize)
        method := .ofCode (field bytes 10 2)
        encrypted := flags.testBit 0
        mode := modeOf (.ofCode (field bytes 5 1)) (field bytes 38 4)
        stamp := stampOf (field bytes 14 2) (field bytes 12 2)
        checksum := .ofNat (field bytes 16 4)
        size := field bytes 24 4 }
      storedSize := field bytes 20 4
      offset := field bytes 42 4 }, bytes.drop size)

def readDirectory : (count : Nat) → Bytes → Option (List Listed)
  | 0, _ => some []
  | count + 1, bytes => do
    let (listed, rest) ← readListed bytes
    return listed :: (← readDirectory count rest)

/-- The content behind the header of an entry, as it is stored. -/
def storedContent? (archive : Bytes) (start : Nat) (listed : Listed) : Option Bytes :=
  let header := archive.drop (start + listed.offset)
  if !localSignature.isPrefixOf header || header.length < 30 then none
  else some ((header.drop (30 + field header 26 2 + field header 28 2)).take listed.storedSize)

/-- Of several entries of one name the last counts, at the place of the first. -/
def addListed (entries : List Entry) (entry : Entry) : List Entry :=
  if entries.any fun other => other.name = entry.name then
    entries.map fun other => if other.name = entry.name then entry else other
  else entries ++ [entry]

/-- The entries of the archive that a record at the end belongs to. -/
def readWith? (archive : Bytes) (record : EndRecord) : Option (List Entry) := do
  if record.disk ≠ record.directoryDisk then none
  if record.count ≠ 0 ∧ record.position ≤ record.directoryOffset then none
  let start ← archiveOffset? archive record
  let listed ← readDirectory record.count (archive.drop (start + record.directoryOffset))
  return (listed.map fun listed =>
    { head := listed.head, stored := storedContent? archive start listed : Entry }).foldl addListed
      []

/-- The entries of an archive. The last record that makes sense is taken. -/
def read? (archive : Bytes) : Option (List Entry) :=
  ((positions endSignature 0 archive).reverse.filterMap
    (endRecord? archive)).findSome? (readWith? archive)

/-- The bytes a name is written in. -/
def encodeName (name : String) : Bytes := Utf8.encode name.toList

def nameFlags (name : String) : Nat := if isPlain name then 0 else 2 ^ (11 : Nat)

/-- The fields that the directory and the header of an entry have in common. -/
def sharedFields (head : EntryHead) (storedSize : Nat) : Bytes :=
  let stamp := head.stamp.getD .earliest
  Bytes.ofNat 2 20 ++ Bytes.ofNat 2 (nameFlags head.name) ++ Bytes.ofNat 2 head.method.code ++
    Bytes.ofNat 2 stamp.time ++ Bytes.ofNat 2 stamp.date ++ Bytes.ofNat 4 head.checksum.toNat ++
    Bytes.ofNat 4 storedSize ++ Bytes.ofNat 4 head.size ++
    Bytes.ofNat 2 (encodeName head.name).length ++ Bytes.ofNat 2 0

def writeEntry (entry : Entry) : Bytes :=
  let stored := entry.stored.getD []
  localSignature ++ sharedFields entry.head stored.length ++ encodeName entry.name ++ stored

/-- The attributes of an entry that stand for its mode. -/
def attributesOf (mode : Option Nat) : Nat := 65536 * mode.getD 0

def writeListed (entry : Entry) (offset : Nat) : Bytes :=
  directorySignature ++ Bytes.ofNat 1 20 ++ Bytes.ofNat 1 3 ++
    sharedFields entry.head (entry.stored.getD []).length ++ Bytes.ofNat 2 0 ++ Bytes.ofNat 2 0 ++
    Bytes.ofNat 2 0 ++ Bytes.ofNat 4 (attributesOf entry.head.mode) ++ Bytes.ofNat 4 offset ++
    encodeName entry.name

/-- The entries with their headers, one behind the other. -/
def writeEntries (entries : List Entry) : Bytes := entries.flatMap writeEntry

def writeDirectory : (offset : Nat) → List Entry → Bytes
  | _, [] => []
  | offset, entry :: entries =>
    writeListed entry offset ++ writeDirectory (offset + (writeEntry entry).length) entries

def write (entries : List Entry) : Bytes :=
  let contents := writeEntries entries
  let directory := writeDirectory 0 entries
  contents ++ directory ++ endSignature ++ Bytes.ofNat 2 0 ++ Bytes.ofNat 2 0 ++
    Bytes.ofNat 2 entries.length ++ Bytes.ofNat 2 entries.length ++
      Bytes.ofNat 4 directory.length ++
    Bytes.ofNat 4 contents.length ++ Bytes.ofNat 2 0

/-- Does every number of the written archive have room in its field? -/
def fits (entries : List Entry) : Bool :=
  decide (entries.length < 2 ^ (16 : Nat)) && decide ((write entries).length < 2 ^ (32 : Nat)) &&
    entries.all fun entry =>
      decide ((encodeName entry.name).length < 2 ^ (16 : Nat)) &&
        decide (entry.head.size < 2 ^ (32 : Nat))

/-- A library for this format. It knows no further methods. -/
@[reducible] def plainLibrary : Library where
  read? := read?
  write := write
  fits := fits
  usualStamp := .earliest
  expander? _ := none

end ClassCoverage.Archive
