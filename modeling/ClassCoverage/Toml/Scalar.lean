import ClassCoverage.Decimal
import ClassCoverage.Dynamic

/-! The TOML values that hold no others: texts, numbers, truth values and moments in time. Every
reader takes its value off the front of a text, whose lines end in single line feeds, and answers
with the text behind it. -/
namespace ClassCoverage.Toml

/-- Tabs count as text, other controls do not. -/
def isTextChar (char : Char) : Bool := char == '\t' || (0x20 ≤ char.val && char.val != 0x7F)

def isBlank (char : Char) : Bool := char == ' ' || char == '\t'

def skipBlanks (text : List Char) : List Char := text.dropWhile isBlank

def isHexDigit (char : Char) : Bool :=
  char.isDigit || ('a' ≤ char && char ≤ 'f') || ('A' ≤ char && char ≤ 'F')

def digitValue (char : Char) : Nat :=
  if char.isDigit then char.toNat - 48
  else if 'a' ≤ char then char.toNat - 87
  else char.toNat - 55

def numeral (base : Nat) (digits : List Char) : Nat :=
  digits.foldl (fun sum digit => base * sum + digitValue digit) 0

/-- The character a code point in hexadecimal digits stands for. -/
def codePoint? (digits : List Char) : Option Char :=
  let code := numeral 16 digits
  if digits.all isHexDigit && (code < 0xD800 || (0xDFFF < code && code < 0x110000)) then
    some (Char.ofNat code)
  else none

def escape? : Char → Option Char
  | 'b' => some '\x08'
  | 't' => some '\t'
  | 'n' => some '\n'
  | 'f' => some '\x0c'
  | 'r' => some '\r'
  | '\x22' => some '\x22'
  | '\\' => some '\\'
  | _ => none

def endsLine (text : List Char) : Bool := (skipBlanks text).head? == some '\n'

/-- Puts characters in the place of escapes. A backslash at the end of a line takes everything up
to the next visible character away. -/
def unescape : (skipping : Bool) → List Char → Option (List Char)
  | _, [] => some []
  | _, '\\' :: 'u' :: a :: b :: c :: d :: rest =>
    return (← codePoint? [a, b, c, d]) :: (← unescape false rest)
  | _, '\\' :: 'U' :: a :: b :: c :: d :: e :: f :: g :: h :: rest =>
    return (← codePoint? [a, b, c, d, e, f, g, h]) :: (← unescape false rest)
  | _, '\\' :: mark :: rest =>
    if endsLine (mark :: rest) then unescape true rest
    else return (← escape? mark) :: (← unescape false rest)
  | skipping, char :: rest =>
    if char = '\\' then none
    else if skipping && (isBlank char || char == '\n') then unescape true rest
    else return char :: (← unescape false rest)

/-- The characters up to a closing mark on the same line. -/
def lineContent (mark : Char) (escapes : Bool) : List Char → Option (List Char × List Char)
  | [] => none
  | '\\' :: char :: rest =>
    if escapes then do
      if !isTextChar char then none
      let (content, rest) ← lineContent mark escapes rest
      return ('\\' :: char :: content, rest)
    else do
      let (content, rest) ← lineContent mark escapes (char :: rest)
      return ('\\' :: content, rest)
  | char :: rest =>
    if char = mark then some ([], rest)
    else if isTextChar char then do
      let (content, rest) ← lineContent mark escapes rest
      return (char :: content, rest)
    else none

/-- Does a text start with `count` marks? -/
def startsWith (mark : Char) (count : Nat) (text : List Char) : Bool :=
  (List.replicate count mark).isPrefixOf text

/-- The characters up to three closing marks. Up to two more marks before them are text. -/
def blockContent (mark : Char) (escapes : Bool) : List Char → Option (List Char × List Char)
  | [] => none
  | '\\' :: char :: rest =>
    if escapes then do
      if !(isTextChar char || char == '\n') then none
      let (content, rest) ← blockContent mark escapes rest
      return ('\\' :: char :: content, rest)
    else do
      let (content, rest) ← blockContent mark escapes (char :: rest)
      return ('\\' :: content, rest)
  | char :: rest =>
    let text := char :: rest
    if startsWith mark 5 text then some ([mark, mark], text.drop 5)
    else if startsWith mark 4 text then some ([mark], text.drop 4)
    else if startsWith mark 3 text then some ([], text.drop 3)
    else if isTextChar char || char == '\n' then do
      let (content, rest) ← blockContent mark escapes rest
      return (char :: content, rest)
    else none

/-- Finishes the content of a text. -/
def finishText (escapes : Bool) (content : List Char) : Option String :=
  if escapes then (unescape false content).map String.ofList else some (String.ofList content)

def readLine (mark : Char) (escapes : Bool) (text : List Char) : Option (String × List Char) := do
  let (content, rest) ← lineContent mark escapes text
  return (← finishText escapes content, rest)

/-- A line feed right behind the opening marks is not part of a block. -/
def readBlock (mark : Char) (escapes : Bool) (text : List Char) : Option (String × List Char) := do
  let inner := match text with
    | '\n' :: rest => rest
    | _ => text
  let (content, rest) ← blockContent mark escapes inner
  return (← finishText escapes content, rest)

def readText (text : List Char) : Option (String × List Char) :=
  match text with
  | '\x22' :: '\x22' :: '\x22' :: rest => readBlock '\x22' true rest
  | '\x27' :: '\x27' :: '\x27' :: rest => readBlock '\x27' false rest
  | '\x22' :: rest => readLine '\x22' true rest
  | '\x27' :: rest => readLine '\x27' false rest
  | _ => none

def isOctalDigit (char : Char) : Bool := '0' ≤ char && char ≤ '7'

def isBinaryDigit (char : Char) : Bool := char == '0' || char == '1'

/-- Digits, between which single underscores may stand. -/
def moreDigits (isDigit : Char → Bool) : List Char → List Char × List Char
  | '_' :: digit :: rest =>
    if isDigit digit then
      let (digits, rest) := moreDigits isDigit rest
      (digit :: digits, rest)
    else ([], '_' :: digit :: rest)
  | digit :: rest =>
    if isDigit digit then
      let (digits, rest) := moreDigits isDigit rest
      (digit :: digits, rest)
    else ([], digit :: rest)
  | [] => ([], [])

def readDigits (isDigit : Char → Bool) : List Char → Option (List Char × List Char)
  | digit :: rest =>
    if isDigit digit then
      let (digits, rest) := moreDigits isDigit rest
      some (digit :: digits, rest)
    else none
  | [] => none

/-- The digits before a point: a leading zero stands alone. -/
def readWhole : List Char → Option (List Char × List Char)
  | '0' :: rest => some (['0'], rest)
  | text => readDigits Char.isDigit text

def readSign : List Char → Option Bool × List Char
  | '+' :: rest => (some false, rest)
  | '-' :: rest => (some true, rest)
  | text => (none, text)

def ofInt? (number : Int) : Option Dynamic :=
  if -2 ^ (63 : Nat) ≤ number ∧ number < 2 ^ (63 : Nat) then some (.integer number) else none

def readRadix (base : Nat) (isDigit : Char → Bool) (text : List Char) :
    Option (Dynamic × List Char) := do
  let (digits, rest) ← readDigits isDigit text
  return (← ofInt? (Int.ofNat (numeral base digits)), rest)

/-- Numbers too large are refused, unless they are negative. -/
def ofScientific? (negative : Bool) (digits : Nat) (exponent : Int) : Option Dynamic :=
  let size :=
    if digits = 0 then 0.0
    else if 400 < exponent then 1.0 / 0.0
    else Float.ofScientific digits (exponent < 0) exponent.natAbs
  if size.isInf && !negative then none
  else some (.float (Decimal.write none (if negative then -size else size)))

def readFraction : List Char → Option (List Char × List Char)
  | '.' :: rest => readDigits Char.isDigit rest
  | text => some ([], text)

def readPower (text : List Char) : Option (Int × List Char) :=
  match text with
  | mark :: rest =>
    if mark = 'e' ∨ mark = 'E' then do
      let (sign, rest) := readSign rest
      let (digits, rest) ← readDigits Char.isDigit rest
      let power := Int.ofNat (numeral 10 digits)
      return (if sign = some true then -power else power, rest)
    else some (0, text)
  | [] => some (0, text)

def specialWords : List (String × String) := [("inf", "inf"), ("nan", "NaN")]

def readSpecial (negative : Bool) (text : List Char) : Option (Dynamic × List Char) := do
  let (word, shown) ← specialWords.find? fun (word, _) => word.toList.isPrefixOf text
  let sign := if negative && shown == "inf" then "-" else ""
  return (.float (sign ++ shown), text.drop word.length)

/-- A number in tens. Any part behind the whole digits makes it a fraction. -/
def readDecimal (negative : Bool) (text : List Char) : Option (Dynamic × List Char) := do
  let (whole, behind) ← readWhole text
  let (fraction, rest) ← readFraction behind
  let (power, rest) ← readPower rest
  if rest.length = behind.length then
    let size := Int.ofNat (numeral 10 whole)
    return (← ofInt? (if negative then -size else size), rest)
  else
    let digits := whole ++ fraction
    let exponent := max (power - Int.ofNat fraction.length) (-2000 - Int.ofNat digits.length)
    return (← ofScientific? negative (numeral 10 digits) exponent, rest)

def readNumber (text : List Char) : Option (Dynamic × List Char) :=
  match text with
  | '0' :: 'x' :: rest => readRadix 16 isHexDigit rest
  | '0' :: 'o' :: rest => readRadix 8 isOctalDigit rest
  | '0' :: 'b' :: rest => readRadix 2 isBinaryDigit rest
  | _ =>
    let (sign, unsigned) := readSign text
    let negative := sign == some true
    (readSpecial negative unsigned).or (readDecimal negative unsigned)

/-- Exactly `count` digits. -/
def readFixed (count : Nat) (text : List Char) : Option (Nat × List Char) :=
  let digits := text.take count
  if digits.length = count ∧ digits.all Char.isDigit then some (numeral 10 digits, text.drop count)
  else none

def skipChar (expected : Char) : List Char → Option (List Char)
  | char :: rest => if char = expected then some rest else none
  | [] => none

def daysOfMonth (year month : Nat) : Nat :=
  if month = 2 then if year % 4 = 0 ∧ (year % 100 ≠ 0 ∨ year % 400 = 0) then 29 else 28
  else if month ∈ [4, 6, 9, 11] then 30
  else 31

/-- What stands behind a date. -/
def skipDate (text : List Char) : Option (List Char) := do
  let (year, rest) ← readFixed 4 text
  let (month, rest) ← readFixed 2 (← skipChar '-' rest)
  let (day, rest) ← readFixed 2 (← skipChar '-' rest)
  if 1 ≤ month ∧ month ≤ 12 ∧ 1 ≤ day ∧ day ≤ daysOfMonth year month then return rest else none

def skipSecondFraction : List Char → List Char
  | '.' :: digit :: rest => if digit.isDigit then rest.dropWhile Char.isDigit
    else '.' :: digit :: rest
  | text => text

/-- What stands behind hours and minutes. -/
def skipMinutes (text : List Char) : Option (List Char) := do
  let (hour, rest) ← readFixed 2 text
  let (minute, rest) ← readFixed 2 (← skipChar ':' rest)
  if hour < 24 ∧ minute < 60 then return rest else none

/-- What stands behind a time of day, which may have a leap second. -/
def skipTime (text : List Char) : Option (List Char) := do
  let (second, rest) ← readFixed 2 (← skipChar ':' (← skipMinutes text))
  if second ≤ 60 then return skipSecondFraction rest else none

def skipOffset (text : List Char) : List Char :=
  match text with
  | 'Z' :: rest => rest
  | 'z' :: rest => rest
  | '+' :: rest => (skipMinutes rest).getD text
  | '-' :: rest => (skipMinutes rest).getD text
  | _ => text

/-- What stands behind the time that may follow a date. -/
def skipTimeOfDate (text : List Char) : List Char :=
  match text with
  | mark :: rest =>
    if mark = 'T' ∨ mark = 't' ∨ mark = ' ' then ((skipTime rest).map skipOffset).getD text
      else text
  | [] => text

/-- The name of the only field of a moment. -/
def momentField : String := "$__toml_private_datetime"

def readMoment (text : List Char) : Option (Dynamic × List Char) := do
  let rest ← ((skipDate text).map skipTimeOfDate).or (skipTime text)
  let spelling := String.ofList (text.take (text.length - rest.length))
  return (.table [(momentField, .text spelling)] none, rest)

def readWord (text : List Char) : Option (Dynamic × List Char) :=
  if "true".toList.isPrefixOf text then some (.boolean true, text.drop 4)
  else if "false".toList.isPrefixOf text then some (.boolean false, text.drop 5)
  else none

def readScalar (text : List Char) : Option (Dynamic × List Char) :=
  match text.head? with
  | some '\x22' => (readText text).map fun (value, rest) => (.text value, rest)
  | some '\x27' => (readText text).map fun (value, rest) => (.text value, rest)
  | _ => (readMoment text).or ((readNumber text).or (readWord text))

end ClassCoverage.Toml
