import ClassCoverage.Rewriter

/-! A rewriter for trials. It marks classes at their end and knows its own mark, so that it leaves
the classes it transformed before alone. Its memory is the number of classes it was offered. -/
namespace ClassCoverage

/-- The record a marking rewriter registers. Without a name it is one of the entry. -/
structure MarkingRecord where
  name : Option String := none
  sourceFile : Option String := none
  lines : List LineCounter := [{ line := 1 }, { line := 2 }, { line := 3 }]
  branches : List BranchCounter := [{ line := 2, arm := 0 }, { line := 2, arm := 1 }]
  deriving DecidableEq, Repr

/-- How a marking rewriter behaves: the entry it fails on, and how many classes it looks at for
each one it transforms. -/
structure Marking where
  failOn : Option String := none
  every : Nat := 1
  record : MarkingRecord := {}
  deriving DecidableEq, Repr

namespace Marking

def mark : Bytes := Bytes.ofString "\x00jarcov"

def isMarked (bytes : Bytes) : Bool := mark.isSuffixOf bytes

def recordFor (marking : Marking) (entry : String) : Rewriting Nat Record := do
  let name ← match marking.record.name with
    | some name => pure name
    | none => Rewriting.classNameOf entry
  return {
    name := name
    sourceFile := marking.record.sourceFile
    lines := marking.record.lines
    branches := marking.record.branches }

def rewriter (marking : Marking) : Rewriter Nat := fun entry bytes => do
  let offered := (← get).memory
  modify fun bench => { bench with memory := offered + 1 }
  if marking.failOn = some entry then throw (.rewriter entry "unsupported class version")
  if isMarked bytes || offered % marking.every ≠ 0 then return ⟨bytes, false⟩
  Rewriting.register (← marking.recordFor entry)
  return ⟨bytes ++ mark, true⟩

end Marking
end ClassCoverage
