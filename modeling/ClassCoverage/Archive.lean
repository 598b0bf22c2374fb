import ClassCoverage.Archive.Deflate
import ClassCoverage.Checksum
import ClassCoverage.Disk

/-! Archives as lists of entries. An entry keeps its content in the form in which it is stored, so
that it can be carried over without being expanded. -/
namespace ClassCoverage

inductive Method where
  | stored
  | deflated
  | other (code : Nat)
  deriving DecidableEq, Repr

namespace Method

def code : Method → Nat
  | stored => 0
  | deflated => 8
  | other code => code

def ofCode (code : Nat) :
    Method := if code = 0 then stored else if code = 8 then deflated else other code

@[simp] theorem ofCode_code_stored : ofCode stored.code = stored := rfl

@[simp] theorem ofCode_code_deflated : ofCode deflated.code = deflated := rfl

end Method

/-- A date and a time of day as two words of bit fields, with steps of two seconds. -/
structure Stamp where
  date : Nat
  time : Nat
  deriving DecidableEq, Repr

namespace Stamp

def year (stamp : Stamp) : Nat := 1980 + stamp.date / 512

def month (stamp : Stamp) : Nat := stamp.date / 32 % 16

def day (stamp : Stamp) : Nat := stamp.date % 32

def hour (stamp : Stamp) : Nat := stamp.time / 2048

def minute (stamp : Stamp) : Nat := stamp.time / 32 % 64

/-- A leap second is counted as the one before it. -/
def second (stamp : Stamp) : Nat := min (2 * (stamp.time % 32)) 58

def daysOfMonth (stamp : Stamp) : Nat :=
  let leap := stamp.year % 4 = 0 ∧ (stamp.year % 100 ≠ 0 ∨ stamp.year % 400 = 0)
  if stamp.month = 2 then if leap then 29 else 28
  else if stamp.month ∈ [4, 6, 9, 11] then 30
  else 31

def isValid (stamp : Stamp) : Bool :=
  1 ≤ stamp.month && stamp.month ≤ 12 && 1 ≤ stamp.day && stamp.day ≤ stamp.daysOfMonth &&
    stamp.hour ≤ 23 && stamp.minute ≤ 59 && stamp.time % 32 ≤ 30

/-- The first moment that can be written. -/
def earliest : Stamp := ⟨33, 0⟩

end Stamp

/-- An entry without its content. The size and checksum are those of the expanded content. -/
structure EntryHead where
  name : String
  method : Method := .stored
  encrypted : Bool := false
  mode : Option Nat := none
  stamp : Option Stamp := none
  checksum : UInt32 := 0
  size : Nat := 0
  deriving DecidableEq, Repr

/-- An entry with its content as it is stored, unless that cannot be found. -/
structure Entry where
  head : EntryHead
  stored : Option Bytes
  deriving DecidableEq, Repr

/-- What reads archives from their bytes and writes them. Besides the two methods of the format
itself it may expand others, which it knows by their codes. Not every list of entries fits, and an
entry without a time is written with the usual one. -/
class Archive.Library where
  read? : Bytes → Option (List Entry)
  write : List Entry → Bytes
  fits : List Entry → Bool
  usualStamp : Stamp
  expander? : (code : Nat) → Option (Bytes → Except Fault Bytes)

namespace Entry

def name (entry : Entry) : String := entry.head.name

/-- Directories have names that end in a slash of either kind. -/
def isDirectory (entry : Entry) : Bool :=
  entry.name.toList.getLast? == some '/' || entry.name.toList.getLast? == some '\\'

/-- What undoes a method, unless the method is not known. -/
def expander? [Archive.Library] : Method → Option (Bytes → Except Fault Bytes)
  | .stored => some .ok
  | .deflated => some fun stored =>
    match Deflate.expand? stored with
    | some content => .ok content
    | none => .error (.described "corrupt deflate stream")
  | .other code => Archive.Library.expander? code

/-- Can the content be expanded at all? -/
def isReadable [Archive.Library] (head : EntryHead) : Bool :=
  !head.encrypted && (expander? head.method).isSome

def expand [Archive.Library] (method : Method) (stored : Bytes) : Except Fault Bytes :=
  match expander? method with
  | some expander => expander stored
  | none => .error (.described "unknown method")

@[simp] theorem expand_stored [Archive.Library] (stored : Bytes) :
    expand .stored stored = .ok stored := rfl

/-- The expanded content, which has to have the checksum of the entry. -/
def content [Archive.Library] (head : EntryHead) (stored : Bytes) : Except Fault Bytes := do
  let content ← expand head.method stored
  if Crc32.checksum content = head.checksum then return content else throw .invalidChecksum

def regularFile : Nat := 0o100000

def plainPermissions : Nat := 0o644

/-- The mode of a regular file with the permissions of an entry. -/
def writtenMode (mode : Option Nat) : Nat := regularFile + mode.getD plainPermissions % 0o1000

/-- An entry with new content. Content that was stored as it is stays so. -/
def withContent (head : EntryHead) (content : Bytes) : Entry :=
  let method := if head.method = .stored then Method.stored else .deflated
  { head := { head with
      method := method
      encrypted := false
      mode := some (writtenMode head.mode)
      checksum := Crc32.checksum content
      size := content.length }
    stored := some (if method = .stored then content else Deflate.pack content) }

/-- The entry as it is carried over into another archive. -/
def carriedOver (entry : Entry) : Entry :=
  { entry with head := { entry.head with encrypted := false, mode := some (writtenMode
    entry.head.mode) } }

end Entry
end ClassCoverage
