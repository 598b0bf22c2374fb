import ClassCoverage.Metadata.File
import ClassCoverage.Scan

/-! Adding up every metadata file of one name below a directory. The file the sum is written to
never counts as one of the summands. -/
namespace ClassCoverage

inductive Aggregate where
  | nothing
  | merged (files classes : Nat)
  deriving DecidableEq, Repr

namespace Aggregate

/-- Do two paths lead to the same existing file? -/
def sameFile (disk : Disk) (a b : Path) : Bool :=
  match disk.canonical? a, disk.canonical? b with
  | some a, some b => a == b
  | _, _ => false

def run (root : Path) (fileName : String) (output : Path) : Action Aggregate := do
  unless (← get).isDirectory root do
    throw (.configuration (some root) "Search path is not a directory" none)
  let found ← Scan.discover fileName root
  let disk ← get
  let summands := found.filter fun path => !sameFile disk path output
  if summands.isEmpty then return .nothing
  let sum ← Metadata.mergeFiles summands
  Metadata.save sum output
  return .merged summands.length sum.size

end Aggregate
end ClassCoverage
