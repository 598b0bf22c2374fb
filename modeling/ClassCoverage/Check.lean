import ClassCoverage.Metadata.File
import ClassCoverage.Store

/-! Minimum coverage. The line minimum is looked at before the branch minimum, and minimums above
100 are refused before any data is read. -/
namespace ClassCoverage.Check

structure Minimums where
  line : Option UInt8 := none
  branch : Option UInt8 := none
  deriving DecidableEq, Repr

structure Options where
  metadataFile : Path
  dataFiles : List Path := []
  minimums : Minimums := {}
  deriving DecidableEq, Repr

inductive Outcome where
  | skipped
  | passed (line branch : Nat)
  deriving DecidableEq, Repr

/-- The failure of a metric below its minimum. -/
def shortfall? (metric : String) (minimum : Option UInt8) (actual : Nat) : Option Failure :=
  minimum.bind fun minimum =>
    if actual < minimum.toNat then some (.threshold metric minimum.toNat actual) else none

def checkStore (store : Store) (minimums : Minimums) : Except Failure Outcome :=
  let line := percent store.lineRate
  let branch := percent store.branchRate
  match (shortfall? "line" minimums.line line).or (shortfall? "branch" minimums.branch branch) with
  | some failure => .error failure
  | none => .ok (.passed line branch)

def excess? (metric : String) (minimum : Option UInt8) : Option Failure :=
  minimum.bind fun minimum =>
    if 100 < minimum.toNat then
      some (.setting s!"Minimum {metric} coverage must be between 0 and 100, got {minimum.toNat}")
    else none

def run (options : Options) : Action Outcome := do
  match (excess? "line" options.minimums.line).or (excess? "branch" options.minimums.branch) with
  | some failure => throw failure
  | none =>
    let store ← Metadata.mergeFiles (options.metadataFile :: options.dataFiles)
    if store.isEmpty then return .skipped
    match checkStore store options.minimums with
    | .ok outcome => return outcome
    | .error failure => throw failure

end ClassCoverage.Check
