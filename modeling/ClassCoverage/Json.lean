import ClassCoverage.Decimal
import ClassCoverage.Dynamic
import ClassCoverage.Text.Utf8

/-! Reading JSON texts. A text is read as far as it goes; what is wrong with it is kept at the place
where reading stopped. -/
namespace ClassCoverage.Json

inductive Fault where
  | endInList
  | endInObject
  | endInText
  | endInValue
  | colon
  | listSeparator
  | objectSeparator
  | word
  | value
  | escape
  | number
  | outOfRange
  | codePoint
  | control
  | keyText
  | surrogate
  | unfinishedEscape
  | trailingComma
  | trailingText
  deriving DecidableEq, Repr

def Fault.message : Fault → String
  | endInList => "EOF while parsing a list"
  | endInObject => "EOF while parsing an object"
  | endInText => "EOF while parsing a string"
  | endInValue => "EOF while parsing a value"
  | colon => "expected \x60:\x60"
  | listSeparator => "expected \x60,\x60 or \x60]\x60"
  | objectSeparator => "expected \x60,\x60 or \x60\x7d\x60"
  | word => "expected ident"
  | value => "expected value"
  | escape => "invalid escape"
  | number => "invalid number"
  | outOfRange => "number out of range"
  | codePoint => "invalid unicode code point"
  | control => "control character (\\u0000-\\u001F) found while parsing a string"
  | keyText => "key must be a string"
  | surrogate => "lone leading surrogate in hex escape"
  | unfinishedEscape => "unexpected end of hex escape"
  | trailingComma => "trailing comma"
  | trailingText => "trailing characters"

def isBlank (byte : UInt8) : Bool := byte == 32 || byte == 9 || byte == 10 || byte == 13

def skipBlanks (bytes : Bytes) : Bytes := bytes.dropWhile isBlank

def isDigit (byte : UInt8) : Bool := 48 ≤ byte && byte ≤ 57

def hexValue? (byte : UInt8) : Option Nat :=
  if isDigit byte then some (byte.toNat - 48)
  else if 97 ≤ byte && byte ≤ 102 then some (byte.toNat - 87)
  else if 65 ≤ byte && byte ≤ 70 then some (byte.toNat - 55)
  else none

/-- Four hexadecimal digits. -/
def readUnit : Bytes → Except Fault (Nat × Bytes)
  | a :: b :: c :: d :: rest =>
    match hexValue? a, hexValue? b, hexValue? c, hexValue? d with
    | some a, some b, some c, some d => .ok (4096 * a + 256 * b + 16 * c + d, rest)
    | _, _, _, _ => .error .escape
  | _ => .error .endInText

/-- The second half of a pair of units that make one character. -/
def readSecondUnit (first : Nat) : Bytes → Except Fault (Nat × Bytes)
  | [] => .error .endInText
  | 92 :: [] => .error .endInText
  | 92 :: 117 :: rest => do
    let (second, rest) ← readUnit rest
    if 0xDC00 ≤ second ∧ second < 0xE000 then
      return (0x10000 + (first - 0xD800) * 0x400 + (second - 0xDC00), rest)
    else throw .surrogate
  | _ => .error .unfinishedEscape

def readUnicode (bytes : Bytes) : Except Fault (Nat × Bytes) := do
  let (unit, rest) ← readUnit bytes
  if 0xDC00 ≤ unit ∧ unit < 0xE000 then throw .surrogate
  else if 0xD800 ≤ unit ∧ unit < 0xDC00 then readSecondUnit unit rest
  else return (unit, rest)

/-- What an escape stands for, given what follows the backslash. -/
def readEscape : Bytes → Except Fault (Bytes × Bytes)
  | [] => .error .endInText
  | 117 :: rest => do
    let (code, rest) ← readUnicode rest
    return (String.utf8EncodeChar (Char.ofNat code), rest)
  | byte :: rest =>
    match byte with
    | 34 => .ok ([34], rest)
    | 92 => .ok ([92], rest)
    | 47 => .ok ([47], rest)
    | 98 => .ok ([8], rest)
    | 102 => .ok ([12], rest)
    | 110 => .ok ([10], rest)
    | 114 => .ok ([13], rest)
    | 116 => .ok ([9], rest)
    | _ => .error .escape

/-- The bytes of a text up to its closing quote. The room bounds the bytes that are left. -/
def readTextBytes : (room : Nat) → Bytes → Except Fault (Bytes × Bytes)
  | 0, _ => .error .endInText
  | room + 1, bytes =>
    match bytes with
    | [] => .error .endInText
    | 34 :: rest => .ok ([], rest)
    | 92 :: rest => do
      let (piece, rest) ← readEscape rest
      let (tail, rest) ← readTextBytes room rest
      return (piece ++ tail, rest)
    | byte :: rest => do
      if byte < 32 then throw .control
      let (tail, rest) ← readTextBytes room rest
      return (byte :: tail, rest)

def readText (bytes : Bytes) : Except Fault (Except Fault String × Bytes) := do
  let (text, rest) ← readTextBytes (bytes.length + 1) bytes
  match Utf8.decode text with
  | .ok chars => return (.ok (String.ofList chars), rest)
  | .error _ => return (.error .codePoint, rest)

def digitsValue (digits : Bytes) :
    Nat := digits.foldl (fun sum digit => 10 * sum + (digit.toNat - 48)) 0

/-- Takes up digits as long as the number they make stays below `2 ^ 64`, and counts them. -/
def takeDigits (count : Nat) (sum : Nat) : Bytes → Nat × Nat
  | [] => (sum, count)
  | digit :: rest =>
    let more := 10 * sum + (digit.toNat - 48)
    if more < 2 ^ (64 : Nat) then takeDigits (count + 1) more rest else (sum, count)

/-- How numbers are shown in messages. -/
def floatLimits : Decimal.Limits := ⟨-4, 16⟩

/-- The largest power of ten that a number is multiplied with or divided by at once. -/
def largestPower : Nat := 308

def powerOfTen (exponent : Nat) : Float := Float.ofScientific 1 false exponent

/-- A number times a power of ten, rounded at each step, or nothing if it is too large. -/
def scale? : (steps : Nat) → Float → Int → Option Float
  | steps + 1, number, exponent =>
    if number == 0 then some number
    else if exponent < -largestPower then scale? steps (number / powerOfTen largestPower)
      (exponent + largestPower)
    else if exponent < 0 then some (number / powerOfTen exponent.natAbs)
    else if exponent ≤ largestPower then
      let scaled := number * powerOfTen exponent.natAbs
      if scaled.isInf then none else some scaled
    else none
  | 0, _, _ => some 0

def floatOf (negative : Bool) (significand : Nat) (exponent : Int) : Dynamic :=
  match scale? 4 (Float.ofNat significand) exponent with
  | some size => .float (Decimal.write (some floatLimits) (if negative then -size else size))
  | none => .flawed Fault.outOfRange.message

/-- The digits after a point, of which there is at least one. -/
def readFraction (bytes : Bytes) : Except Fault (Bytes × Bytes) :=
  let digits := bytes.takeWhile isDigit
  let rest := bytes.drop digits.length
  if digits.isEmpty then .error (if rest.isEmpty then .endInValue else .number)
    else .ok (digits, rest)

def readPower (bytes : Bytes) : Except Fault (Int × Bytes) :=
  let (negative, unsigned) := match bytes with
    | 43 :: rest => (false, rest)
    | 45 :: rest => (true, rest)
    | _ => (false, bytes)
  let digits := unsigned.takeWhile isDigit
  let rest := unsigned.drop digits.length
  if digits.isEmpty then .error (if rest.isEmpty then .endInValue else .number)
  else
    let power := Int.ofNat (digitsValue digits)
    .ok (if negative then -power else power, rest)

def isPowerMark (byte : UInt8) : Bool := byte == 101 || byte == 69

/-- A number after its sign. Digits that have no room in the significand only count as places. -/
def readNumber (negative : Bool) (bytes : Bytes) : Except Fault (Dynamic × Bytes) := do
  let whole := bytes.takeWhile isDigit
  let rest := bytes.drop whole.length
  match whole with
  | [] => throw (if rest.isEmpty then .endInValue else .number)
  | 48 :: _ :: _ => throw .number
  | _ =>
    let (fraction, rest) ← match rest with
      | 46 :: behind => readFraction behind
      | _ => pure ([], rest)
    let (power, after) ← match rest with
      | mark :: behind => if isPowerMark mark then readPower behind else pure (0, rest)
      | [] => pure (0, rest)
    let (front, taken) := takeDigits 0 0 whole
    let (significand, places) := takeDigits 0 front fraction
    let plain := after.length + whole.length = bytes.length ∧ taken = whole.length
    let signed := if negative then -Int.ofNat significand else Int.ofNat significand
    let fits := !negative || (significand ≠ 0 && significand ≤ 2 ^ (63 : Nat))
    if plain ∧ fits then return (.integer signed, after)
    else
      let exponent := power + Int.ofNat (whole.length - taken) - Int.ofNat places
      return (floatOf negative significand exponent, after)

/-- Passes over what follows a backslash in a text. -/
def skipEscape : Bytes → Except Fault Bytes
  | [] => .error .endInText
  | 117 :: rest => Prod.snd <$> readUnit rest
  | mark :: rest => if mark ∈ [34, 92, 47, 98, 102, 110, 114, 116] then .ok rest else .error .escape

/-- Passes over a text up to its closing quote. Nothing is asked of the characters it stands for. -/
def skipText : (room : Nat) → Bytes → Except Fault Bytes
  | 0, _ => .error .endInText
  | room + 1, bytes =>
    match bytes with
    | [] => .error .endInText
    | 34 :: rest => .ok rest
    | 92 :: rest => do skipText room (← skipEscape rest)
    | byte :: rest => if byte < 32 then .error .control else skipText room rest

/-- Passes over digits, of which there is at least one. -/
def skipDigits (bytes : Bytes) : Except Fault Bytes :=
  let digits := bytes.takeWhile isDigit
  if digits.isEmpty then .error .number else .ok (bytes.drop digits.length)

def skipPower (bytes : Bytes) : Except Fault Bytes :=
  match bytes with
  | mark :: rest =>
    if !isPowerMark mark then .ok bytes
    else match rest with
      | 43 :: digits => skipDigits digits
      | 45 :: digits => skipDigits digits
      | digits => skipDigits digits
  | [] => .ok []

/-- Passes over a number after its sign, whatever its size. -/
def skipNumber (bytes : Bytes) : Except Fault Bytes := do
  let rest ← skipDigits bytes
  if bytes.head? = some 48 ∧ rest.length + 1 < bytes.length then throw .number
  match rest with
  | 46 :: fraction => skipPower (← skipDigits fraction)
  | rest => skipPower rest

def skipWord (word : List UInt8) (bytes : Bytes) : Except Fault Bytes :=
  match word, bytes with
  | [], _ => .ok bytes
  | _ :: _, [] => .error .endInValue
  | letter :: word, byte :: rest => if letter = byte then skipWord word rest else .error .word

def skipLeaf (bytes : Bytes) : Except Fault Bytes :=
  match bytes with
  | 110 :: rest => skipWord [117, 108, 108] rest
  | 116 :: rest => skipWord [114, 117, 101] rest
  | 102 :: rest => skipWord [97, 108, 115, 101] rest
  | 45 :: rest => skipNumber rest
  | 34 :: rest => skipText (rest.length + 1) rest
  | byte :: _ => if isDigit byte then skipNumber bytes else .error .value
  | [] => .error .endInValue

mutual

/-- Passes over a value. Less is asked of it than of a value that is read. -/
def skipValue : (room : Nat) → Bytes → Except Fault Bytes
  | 0, _ => .error .endInValue
  | room + 1, bytes =>
    match skipBlanks bytes with
    | 91 :: rest => skipItems room true rest
    | 123 :: rest => skipFields room true rest
    | start => skipLeaf start

def skipItems : (room : Nat) → Bool → Bytes → Except Fault Bytes
  | 0, _, _ => .error .endInList
  | room + 1, first, bytes =>
    match skipBlanks bytes with
    | [] => .error .endInList
    | 93 :: rest => .ok rest
    | start =>
      if first then do skipItems room false (← skipValue room start)
      else match start with
        | 44 :: rest => do skipItems room false (← skipValue room rest)
        | _ => .error .listSeparator

def skipFields : (room : Nat) → Bool → Bytes → Except Fault Bytes
  | 0, _, _ => .error .endInObject
  | room + 1, first, bytes =>
    match skipBlanks bytes with
    | [] => .error .endInObject
    | 125 :: rest => .ok rest
    | start =>
      if first then skipField room start
      else match start with
        | 44 :: rest => skipField room (skipBlanks rest)
        | _ => .error .objectSeparator

def skipField : (room : Nat) → Bytes → Except Fault Bytes
  | 0, _ => .error .endInObject
  | room + 1, bytes =>
    match bytes with
    | [] => .error .endInObject
    | 34 :: key => do
      match skipBlanks (← skipText (key.length + 1) key) with
      | [] => throw .endInObject
      | 58 :: value => skipFields room false (← skipValue room value)
      | _ => throw .colon
    | _ => .error .keyText

end

/-- A word that has to stand at the head. -/
def readWord (word : List UInt8) (meaning : Dynamic) (bytes : Bytes) :
    Except Fault (Dynamic × Bytes) :=
  (skipWord word bytes).map fun rest => (meaning, rest)

def readLeaf (bytes : Bytes) : Except Fault (Dynamic × Bytes) :=
  match bytes with
  | 110 :: rest => readWord [117, 108, 108] .null rest
  | 116 :: rest => readWord [114, 117, 101] (.boolean true) rest
  | 102 :: rest => readWord [97, 108, 115, 101] (.boolean false) rest
  | 45 :: rest => readNumber true rest
  | 34 :: rest => do
    let (text, rest) ← readText rest
    match text with
    | .ok text => return (.text text, rest)
    | .error fault => return (.flawed fault.message, rest)
  | byte :: _ => if isDigit byte then readNumber false bytes else .error .value
  | [] => .error .endInValue

/-- Where the next item of a list starts, or what stands in its place. -/
def nextItem (first : Bool) (bytes : Bytes) : Except (Option Fault × Bytes) Bytes :=
  match skipBlanks bytes with
  | [] => .error (some .endInList, [])
  | 93 :: rest => .error (none, rest)
  | 44 :: rest =>
    if first then .ok (44 :: rest)
    else match skipBlanks rest with
      | [] => .error (some .endInValue, [])
      | 93 :: _ => .error (some .trailingComma, [])
      | start => .ok start
  | start => if first then .ok start else .error (some .listSeparator, [])

/-- Where the next key of an object starts, or what stands in its place. -/
def nextKey (first : Bool) (bytes : Bytes) : Except (Option Fault × Bytes) Bytes :=
  let key (start : Bytes) : Except (Option Fault × Bytes) Bytes :=
    match start with
    | [] => .error (some .endInValue, [])
    | 34 :: rest => .ok rest
    | 125 :: _ => .error (some .trailingComma, [])
    | _ => .error (some .keyText, [])
  match skipBlanks bytes with
  | [] => .error (some .endInObject, [])
  | 125 :: rest => .error (none, rest)
  | 44 :: rest => if first then key (44 :: rest) else key (skipBlanks rest)
  | start => if first then key start else .error (some .objectSeparator, [])

/-- The key at the head and the start of its value. -/
def readKey (bytes : Bytes) : Except Fault (String × Bytes) := do
  let (key, rest) ← readText bytes
  match key with
  | .error fault => throw fault
  | .ok key => return (key, rest)

def skipColon (bytes : Bytes) : Except Fault Bytes :=
  match skipBlanks bytes with
  | [] => .error .endInObject
  | 58 :: rest => .ok rest
  | _ => .error .colon

/-- A value that could not be read further, and nothing behind it. -/
def unread (fault : Fault) : Dynamic × Bytes := (.unread fault.message, [])

/-- How much room is needed to pass over a value. -/
def roomFor (bytes : Bytes) : Nat := 3 * bytes.length + 3

mutual

/-- A value and the text behind it. Where the value ends is decided by passing over it. -/
def readValue : (room : Nat) → Bytes → Dynamic × Bytes
  | 0, _ => unread .endInValue
  | room + 1, bytes =>
    match skipBlanks bytes with
    | 91 :: rest =>
      let (items, fault, rest) := readItems room true rest
      (.list items (fault.map Fault.message), rest)
    | 123 :: rest =>
      let (fields, fault, rest) := readFields room true rest
      (.table fields (fault.map Fault.message), rest)
    | start =>
      match readLeaf start with
      | .ok (value, rest) => (value, rest)
      | .error fault => unread fault

def readItems : (room : Nat) → Bool → Bytes → List Dynamic × Option Fault × Bytes
  | 0, _, _ => ([], some .endInList, [])
  | room + 1, first, bytes =>
    match nextItem first bytes with
    | .error (fault, rest) => ([], fault, rest)
    | .ok start =>
      let item := (readValue room start).1
      match skipValue (roomFor start) start with
      | .error fault => ([item], some fault, [])
      | .ok rest =>
        let (items, fault, rest) := readItems room false rest
        (item :: items, fault, rest)

def readFields : (room : Nat) → Bool → Bytes → List (String × Dynamic) × Option Fault × Bytes
  | 0, _, _ => ([], some .endInObject, [])
  | room + 1, first, bytes =>
    match nextKey first bytes with
    | .error (fault, rest) => ([], fault, rest)
    | .ok start =>
      match readKey start with
      | .error fault => ([], some fault, [])
      | .ok (key, rest) =>
        match skipColon rest with
        | .error fault => ([(key, .unread fault.message)], some fault, [])
        | .ok start =>
          let value := (readValue room start).1
          match skipValue (roomFor start) start with
          | .error fault => ([(key, value)], some fault, [])
          | .ok rest =>
            let (fields, fault, rest) := readFields room false rest
            ((key, value) :: fields, fault, rest)

end

/-- Reads a whole text at one shape. -/
def read {α : Type} (reader : Dynamic.Reader α) (bytes : Bytes) : Except ShapeFault α := do
  let (value, rest) := readValue (2 * bytes.length + 2) bytes
  let read ← reader value
  if (skipBlanks rest).isEmpty then return read
  else throw (.unreadable Fault.trailingText.message)

/-- What may follow the last field of a structure written as a list. -/
def surplus (items : List Dynamic) (fault : Option String) : Option String :=
  if !items.isEmpty then some Fault.trailingText.message
  else fault.map fun words =>
    if words = Fault.endInList.message ∨ words = Fault.trailingComma.message then words
    else Fault.trailingText.message

end ClassCoverage.Json
