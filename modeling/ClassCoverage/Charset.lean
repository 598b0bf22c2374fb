import ClassCoverage.Charset.SingleByte
import ClassCoverage.Failure

/-! Character sets and the labels they are known by. Every set that can hold a report contains
ASCII; characters it lacks are written as decimal references. -/
namespace ClassCoverage

/-- How a set writes characters. A set that is `unfit` cannot hold the ASCII markup of a report. -/
inductive Charset.Coding where
  | utf8
  | singleByte (upper : String)
  | multiByte
  | unfit
  deriving DecidableEq, Repr

structure Charset where
  name : String
  coding : Charset.Coding
  labels : List String
  deriving DecidableEq, Repr

namespace Charset

def all : List Charset := [
  { name := "UTF-8", coding := .utf8, labels := [
      "unicode-1-1-utf-8", "unicode11utf8", "unicode20utf8", "utf-8", "utf8",
      "x-unicode20utf8"] },
  { name := "IBM866", coding := .singleByte SingleByte.ibm866, labels := [
      "866", "cp866", "csibm866", "ibm866"] },
  { name := "ISO-8859-2", coding := .singleByte SingleByte.iso8859_2, labels := [
      "csisolatin2", "iso-8859-2", "iso-ir-101", "iso8859-2", "iso88592", "iso_8859-2",
      "iso_8859-2:1987", "l2", "latin2"] },
  { name := "ISO-8859-3", coding := .singleByte SingleByte.iso8859_3, labels := [
      "csisolatin3", "iso-8859-3", "iso-ir-109", "iso8859-3", "iso88593", "iso_8859-3",
      "iso_8859-3:1988", "l3", "latin3"] },
  { name := "ISO-8859-4", coding := .singleByte SingleByte.iso8859_4, labels := [
      "csisolatin4", "iso-8859-4", "iso-ir-110", "iso8859-4", "iso88594", "iso_8859-4",
      "iso_8859-4:1988", "l4", "latin4"] },
  { name := "ISO-8859-5", coding := .singleByte SingleByte.iso8859_5, labels := [
      "csisolatincyrillic", "cyrillic", "iso-8859-5", "iso-ir-144", "iso8859-5", "iso88595",
      "iso_8859-5", "iso_8859-5:1988"] },
  { name := "ISO-8859-6", coding := .singleByte SingleByte.iso8859_6, labels := [
      "arabic", "asmo-708", "csiso88596e", "csiso88596i", "csisolatinarabic", "ecma-114",
      "iso-8859-6", "iso-8859-6-e", "iso-8859-6-i", "iso-ir-127", "iso8859-6", "iso88596",
      "iso_8859-6", "iso_8859-6:1987"] },
  { name := "ISO-8859-7", coding := .singleByte SingleByte.iso8859_7, labels := [
      "csisolatingreek", "ecma-118", "elot_928", "greek", "greek8", "iso-8859-7",
      "iso-ir-126", "iso8859-7", "iso88597", "iso_8859-7", "iso_8859-7:1987", "sun_eu_greek"] },
  { name := "ISO-8859-8", coding := .singleByte SingleByte.iso8859_8, labels := [
      "csiso88598e", "csisolatinhebrew", "hebrew", "iso-8859-8", "iso-8859-8-e", "iso-ir-138",
      "iso8859-8", "iso88598", "iso_8859-8", "iso_8859-8:1988", "visual"] },
  { name := "ISO-8859-8-I", coding := .singleByte SingleByte.iso8859_8, labels := [
      "csiso88598i", "iso-8859-8-i", "logical"] },
  { name := "ISO-8859-10", coding := .singleByte SingleByte.iso8859_10, labels := [
      "csisolatin6", "iso-8859-10", "iso-ir-157", "iso8859-10", "iso885910", "l6", "latin6"] },
  { name := "ISO-8859-13", coding := .singleByte SingleByte.iso8859_13, labels := [
      "iso-8859-13", "iso8859-13", "iso885913"] },
  { name := "ISO-8859-14", coding := .singleByte SingleByte.iso8859_14, labels := [
      "iso-8859-14", "iso8859-14", "iso885914"] },
  { name := "ISO-8859-15", coding := .singleByte SingleByte.iso8859_15, labels := [
      "csisolatin9", "iso-8859-15", "iso8859-15", "iso885915", "iso_8859-15", "l9"] },
  { name := "ISO-8859-16", coding := .singleByte SingleByte.iso8859_16, labels := [
      "iso-8859-16"] },
  { name := "KOI8-R", coding := .singleByte SingleByte.koi8r, labels := [
      "cskoi8r", "koi", "koi8", "koi8-r", "koi8_r"] },
  { name := "KOI8-U", coding := .singleByte SingleByte.koi8u, labels := [
      "koi8-ru", "koi8-u"] },
  { name := "macintosh", coding := .singleByte SingleByte.macintosh, labels := [
      "csmacintosh", "mac", "macintosh", "x-mac-roman"] },
  { name := "windows-874", coding := .singleByte SingleByte.windows874, labels := [
      "dos-874", "iso-8859-11", "iso8859-11", "iso885911", "tis-620", "windows-874"] },
  { name := "windows-1250", coding := .singleByte SingleByte.windows1250, labels := [
      "cp1250", "windows-1250", "x-cp1250"] },
  { name := "windows-1251", coding := .singleByte SingleByte.windows1251, labels := [
      "cp1251", "windows-1251", "x-cp1251"] },
  { name := "windows-1252", coding := .singleByte SingleByte.windows1252, labels := [
      "ansi_x3.4-1968", "ascii", "cp1252", "cp819", "csisolatin1", "ibm819", "iso-8859-1",
      "iso-ir-100", "iso8859-1", "iso88591", "iso_8859-1", "iso_8859-1:1987", "l1", "latin1",
      "us-ascii", "windows-1252", "x-cp1252"] },
  { name := "windows-1253", coding := .singleByte SingleByte.windows1253, labels := [
      "cp1253", "windows-1253", "x-cp1253"] },
  { name := "windows-1254", coding := .singleByte SingleByte.windows1254, labels := [
      "cp1254", "csisolatin5", "iso-8859-9", "iso-ir-148", "iso8859-9", "iso88599",
      "iso_8859-9", "iso_8859-9:1989", "l5", "latin5", "windows-1254", "x-cp1254"] },
  { name := "windows-1255", coding := .singleByte SingleByte.windows1255, labels := [
      "cp1255", "windows-1255", "x-cp1255"] },
  { name := "windows-1256", coding := .singleByte SingleByte.windows1256, labels := [
      "cp1256", "windows-1256", "x-cp1256"] },
  { name := "windows-1257", coding := .singleByte SingleByte.windows1257, labels := [
      "cp1257", "windows-1257", "x-cp1257"] },
  { name := "windows-1258", coding := .singleByte SingleByte.windows1258, labels := [
      "cp1258", "windows-1258", "x-cp1258"] },
  { name := "x-mac-cyrillic", coding := .singleByte SingleByte.macCyrillic, labels := [
      "x-mac-cyrillic", "x-mac-ukrainian"] },
  { name := "GBK", coding := .multiByte, labels := [
      "chinese", "csgb2312", "csiso58gb231280", "gb2312", "gb_2312", "gb_2312-80", "gbk",
      "iso-ir-58", "x-gbk"] },
  { name := "gb18030", coding := .multiByte, labels := [
      "gb18030"] },
  { name := "Big5", coding := .multiByte, labels := [
      "big5", "big5-hkscs", "cn-big5", "csbig5", "x-x-big5"] },
  { name := "EUC-JP", coding := .multiByte, labels := [
      "cseucpkdfmtjapanese", "euc-jp", "x-euc-jp"] },
  { name := "ISO-2022-JP", coding := .multiByte, labels := [
      "csiso2022jp", "iso-2022-jp"] },
  { name := "Shift_JIS", coding := .multiByte, labels := [
      "csshiftjis", "ms932", "ms_kanji", "shift-jis", "shift_jis", "sjis", "windows-31j",
      "x-sjis"] },
  { name := "EUC-KR", coding := .multiByte, labels := [
      "cseuckr", "csksc56011987", "euc-kr", "iso-ir-149", "korean", "ks_c_5601-1987",
      "ks_c_5601-1989", "ksc5601", "ksc_5601", "windows-949"] },
  { name := "replacement", coding := .unfit, labels := [
      "csiso2022kr", "hz-gb-2312", "iso-2022-cn", "iso-2022-cn-ext", "iso-2022-kr",
      "replacement"] },
  { name := "UTF-16BE", coding := .unfit, labels := [
      "unicodefffe", "utf-16be"] },
  { name := "UTF-16LE", coding := .unfit, labels := [
      "csunicode", "iso-10646-ucs-2", "ucs-2", "unicode", "unicodefeff", "utf-16", "utf-16le"] },
  { name := "x-user-defined", coding := .singleByte SingleByte.userDefined, labels := [
      "x-user-defined"] }]

def isAsciiBlank (char : Char) : Bool :=
  char == ' ' || char == '\t' || char == '\n' || char == '\r' || char.toNat == 12

/-- Labels are compared without the blanks around them and without letter case. -/
def ofLabel? (label : String) : Option Charset :=
  let sought := Text.lower (Text.onChars (Text.trim isAsciiBlank) label)
  all.find? fun charset => sought ∈ charset.labels

def defaultLabel : String := "UTF-8"

def isFit (charset : Charset) : Bool := charset.coding != .unfit

/-- The set a report label stands for. A blank label stands for the default. -/
def ofReportLabel (label : String) : Except Failure Charset :=
  let trimmed := Text.onChars (Text.trim Text.isBlank) label
  let label := if trimmed.isEmpty then defaultLabel else trimmed
  match ofLabel? label with
  | some charset =>
    if charset.isFit then .ok charset
    else .error (.setting s!"Encoding '{label}' cannot be used for reports")
  | none => .error (.setting s!"Unknown encoding '{label}'")

/-- How texts are written in the multi-byte sets, by the name of the set. -/
class Coders where
  write (name : String) (text : List Char) : Bytes

/-- The bytes of a character the set holds. Of a multi-byte set only ASCII is known here. -/
def encodeChar? (charset : Charset) (char : Char) : Option Bytes :=
  if char.toNat < 128 then some [UInt8.ofNat char.toNat]
  else match charset.coding with
    | .utf8 => some (String.utf8EncodeChar char)
    | .singleByte upper =>
      if char = '\uFFFD' then none
      else (upper.toList.idxOf? char).map fun index => [UInt8.ofNat (128 + index)]
    | .multiByte => none
    | .unfit => none

def reference (char : Char) : List Char := "&#".toList ++ (toString char.toNat).toList ++ [';']

/-- Writes one character after the other. -/
def encodeEach (charset : Charset) (text : List Char) : Bytes :=
  text.flatMap fun char => (charset.encodeChar? char).getD (Utf8.encode (reference char))

def encode [Coders] (charset : Charset) (text : List Char) : Bytes :=
  match charset.coding with
  | .multiByte => Coders.write charset.name text
  | _ => charset.encodeEach text

/-- Coders that have nothing but ASCII in their tables. -/
@[reducible] def asciiCoders : Coders where
  write name := encodeEach { name, coding := .multiByte, labels := [] }

end Charset
end ClassCoverage
