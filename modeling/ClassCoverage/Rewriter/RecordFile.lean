import ClassCoverage.Json
import ClassCoverage.Record

/-! The record of one class as a JSON text, as rewriter programs write it. Unknown names are passed
over; the source file and the counters may be left out. -/
namespace ClassCoverage.RecordFile

open ClassCoverage.Dynamic

variable {σ : Type}

def readLineNumber : Reader UInt32 := fun value => UInt32.ofNat <$> readNat 32 "u32" value

def readHits : Reader UInt64 := fun value => UInt64.ofNat <$> readNat 64 "u64" value

def tolerant (title : String) (start : σ) (fields : List (Slot σ)) : Shape σ where
  title := "struct " ++ title
  fields := fields
  start := start
  refusesUnknown := false
  surplus := Json.surplus

def lineShape : Shape LineCounter := tolerant "LineCounter" { line := 0 } [
  ⟨"line", .required, fun built value => ({ built with line := · }) <$> readLineNumber value⟩,
  ⟨"hits", .required, fun built value => ({ built with hits := · }) <$> readHits value⟩]

def branchShape : Shape BranchCounter := tolerant "BranchCounter" { line := 0, arm := 0 } [
  ⟨"line", .required, fun built value => ({ built with line := · }) <$> readLineNumber value⟩,
  ⟨"arm", .required, fun built value => ({ built with arm := · }) <$> readLineNumber value⟩,
  ⟨"taken", .required, fun built value => ({ built with taken := · }) <$> readBool value⟩]

def shape : Shape Record := tolerant "ClassRecord" { name := "" } [
  ⟨"name", .required, fun built value => ({ built with name := · }) <$> readText "a string" value⟩,
  ⟨"source_file", .optional, fun built value =>
    ({ built with sourceFile := · }) <$> readOption (readText "a string") value⟩,
  ⟨"lines", .defaulted, fun built value =>
    ({ built with lines := · }) <$> readList lineShape.read value⟩,
  ⟨"branches", .defaulted, fun built value =>
    ({ built with branches := · }) <$> readList branchShape.read value⟩]

def read (bytes : Bytes) : Except ShapeFault Record := Json.read shape.read bytes

def isBlank (byte : UInt8) : Bool :=
  byte == 32 || byte == 9 || byte == 10 || byte == 12 || byte == 13

end ClassCoverage.RecordFile
