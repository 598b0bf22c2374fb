import ClassCoverage.Text

/-! Classes by their names, and the counters of one class. Nested classes belong to the source file
of their outermost class. Two records of a class can be added only if their layouts, the lines and
arms their counters stand for, are equal. -/
namespace ClassCoverage

namespace ClassName

def sourceExtension : String := ".java"

def isClassFile (entry : String) : Bool := ".class".toList.isSuffixOf entry.toList

def dotToSlash (char : Char) : Char := if char = '.' then '/' else char

def slashToDot (char : Char) : Char := if char = '/' || char = '\\' then '.' else char

/-- The source file of a class below its root. -/
def sourceFile (name extension : String) : String :=
  String.ofList ((name.toList.takeWhile (· != '$')).map dotToSlash) ++ extension

/-- The name of the class in a class file, if the file name holds one. -/
def ofEntry? (entry : String) : Option String := do
  let stem ← Text.stripSuffix? ".class".toList entry.toList
  let stem := Text.trimLeft (· == '/') stem
  if stem.isEmpty then none else return String.ofList (stem.map slashToDot)

end ClassName

/-- How often a source line ran. -/
structure LineCounter where
  line : UInt32
  hits : UInt64 := 0
  deriving DecidableEq, Repr

/-- Whether one arm of the branch on a line was taken. -/
structure BranchCounter where
  line : UInt32
  arm : UInt32
  taken : Bool := false
  deriving DecidableEq, Repr

structure Record where
  name : String
  sourceFile : Option String := none
  lines : List LineCounter := []
  branches : List BranchCounter := []
  deriving DecidableEq, Repr

/-- The first respect in which two layouts differ. -/
inductive Mismatch where
  | lineCount (ours theirs : Nat)
  | branchCount (ours theirs : Nat)
  | line (index : Nat) (ours theirs : UInt32)
  | branch (index : Nat) (ours theirs : UInt32 × UInt32)
  deriving DecidableEq, Repr

def Mismatch.message : Mismatch → String
  | .lineCount ours theirs => s!"line counter count {ours} != {theirs}"
  | .branchCount ours theirs => s!"branch counter count {ours} != {theirs}"
  | .line index ours theirs => s!"line counter {index} maps to line {ours} vs {theirs}"
  | .branch index ours theirs =>
    s!"branch counter {index} maps to {ours.1}:{ours.2} vs {theirs.1}:{theirs.2}"

/-- Hit counts stop at the largest number they can hold. -/
def saturatingAdd (a b : UInt64) : UInt64 :=
  if a.toNat + b.toNat < 2 ^ (64 : Nat) then a + b else UInt64.ofNat (2 ^ (64 : Nat) - 1)

/-- The smaller of two file names in byte order, or the only one there is. -/
def smallerHint : Option String → Option String → Option String
  | some ours, some theirs => some (if theirs < ours then theirs else ours)
  | some ours, none => some ours
  | none, theirs => theirs

/-- The first index at which two lists differ, with what they hold there. -/
def firstDifference {α : Type} [DecidableEq α] (index : Nat) :
    List α → List α → Option (Nat × α × α)
  | a :: as, b :: bs => if a = b then firstDifference (index + 1) as bs else some (index, a, b)
  | _, _ => none

namespace LineCounter

def add (ours theirs : LineCounter) : LineCounter :=
  { ours with hits := saturatingAdd ours.hits theirs.hits }

def covered (counter : LineCounter) : Bool := decide (0 < counter.hits)

end LineCounter

namespace BranchCounter

def site (counter : BranchCounter) : UInt32 × UInt32 := (counter.line, counter.arm)

def add (ours theirs : BranchCounter) : BranchCounter :=
  { ours with taken := ours.taken || theirs.taken }

end BranchCounter

namespace Record

/-- A record of counters that have not counted yet. -/
def fresh (name : String) (lines : List UInt32) (arms : List (UInt32 × UInt32))
    (sourceFile : Option String) : Record where
  name := name
  sourceFile := sourceFile
  lines := lines.map fun line => { line := line }
  branches := arms.map fun (line, arm) => { line := line, arm := arm }

/-- The name up to its last dot. Classes of the default package have the empty package name. -/
def packageName (record : Record) : String :=
  match Text.splitLast? '.' record.name.toList with
  | some (package, _) => String.ofList package
  | none => ""

def linesCovered (record : Record) : Nat := record.lines.countP LineCounter.covered

def branchesCovered (record : Record) : Nat := record.branches.countP BranchCounter.taken

def lineNumbers (record : Record) : List UInt32 := record.lines.map LineCounter.line

def sites (record : Record) : List (UInt32 × UInt32) := record.branches.map BranchCounter.site

def SameLayout (a b : Record) : Prop := a.lineNumbers = b.lineNumbers ∧ a.sites = b.sites

def mismatch? (ours theirs : Record) : Option Mismatch :=
  if ours.lines.length ≠ theirs.lines.length then
    some (.lineCount ours.lines.length theirs.lines.length)
  else if ours.branches.length ≠ theirs.branches.length then
    some (.branchCount ours.branches.length theirs.branches.length)
  else match firstDifference 0 ours.lineNumbers theirs.lineNumbers with
    | some (index, a, b) => some (.line index a b)
    | none => (firstDifference 0 ours.sites theirs.sites).map fun (index, a, b) =>
        .branch index a b

/-- Adds the counters of a record of the same layout. -/
def add (ours theirs : Record) : Record where
  name := ours.name
  sourceFile := smallerHint ours.sourceFile theirs.sourceFile
  lines := List.zipWith LineCounter.add ours.lines theirs.lines
  branches := List.zipWith BranchCounter.add ours.branches theirs.branches

@[simp] theorem name_add (ours theirs : Record) : (ours.add theirs).name = ours.name := rfl

theorem firstDifference_eq_none_iff {α : Type} [DecidableEq α] (index : Nat) (as bs : List α)
    (size : as.length = bs.length) : firstDifference index as bs = none ↔ as = bs := by
  induction as generalizing bs index with
  | nil => cases bs with
    | nil => simp [firstDifference]
    | cons b bs => simp at size
  | cons a as ih => cases bs with
    | nil => simp at size
    | cons b bs =>
      by_cases same : a = b
      · simp [firstDifference, same, ih (index + 1) bs (by simpa using size)]
      · simp [firstDifference, same]

/-- There is nothing to report exactly when the layouts are equal. -/
theorem mismatch?_eq_none_iff (ours theirs : Record) :
    ours.mismatch? theirs = none ↔ ours.SameLayout theirs := by
  unfold mismatch? SameLayout
  by_cases lines : ours.lines.length = theirs.lines.length
  · by_cases branches : ours.branches.length = theirs.branches.length
    · have sized : ours.lineNumbers.length = theirs.lineNumbers.length := by
        simpa [lineNumbers] using lines
      have armed : ours.sites.length = theirs.sites.length := by simpa [sites] using branches
      simp only [ne_eq, lines, not_true_eq_false, ↓reduceIte, branches]
      cases found : firstDifference 0 ours.lineNumbers theirs.lineNumbers with
      | some difference =>
        have different : ours.lineNumbers ≠ theirs.lineNumbers := fun same => by
          simp [(firstDifference_eq_none_iff 0 _ _ sized).mpr same] at found
        simp [different]
      | none =>
        have same := (firstDifference_eq_none_iff 0 _ _ sized).mp found
        simp [same, firstDifference_eq_none_iff 0 _ _ armed]
    · have different : ours.sites ≠ theirs.sites := fun same => branches <| by
        simpa [sites] using congrArg List.length same
      simp [lines, branches, different]
  · have different : ours.lineNumbers ≠ theirs.lineNumbers := fun same => lines <| by
      simpa [lineNumbers] using congrArg List.length same
    simp [lines, different]

end Record
end ClassCoverage
