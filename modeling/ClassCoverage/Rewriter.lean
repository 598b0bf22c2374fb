import ClassCoverage.Record
import ClassCoverage.Failure

/-! Class rewriters. A rewriter is offered one class file after another. It answers with the bytes
the class has from now on, and registers a record of every class it transforms. -/
namespace ClassCoverage

structure Rewritten where
  bytes : Bytes
  transformed : Bool
  deriving DecidableEq, Repr

/-- What a rewriter works with: the store its records go to, and a memory of its own. -/
structure Bench (σ : Type) where
  store : Store
  memory : σ

/-- A step of a rewriter. Records it registered before a failure stay registered. -/
abbrev Rewriting (σ : Type) := ExceptT Failure (StateM (Bench σ))

/-- A rewriter takes the name of an entry and the bytes of its class file. -/
abbrev Rewriter (σ : Type) := String → Bytes → Rewriting σ Rewritten

namespace Rewriting

variable {σ : Type}

/-- Adds a record to the store, unless its layout differs from what is known of the class. -/
def register (record : Record) : Rewriting σ Unit := do
  match (← get).store.insert record with
  | .ok store => modify fun bench => { bench with store := store }
  | .error conflict => throw (.ofConflict conflict)

/-- The name a class file says its class has. -/
def classNameOf (entry : String) : Rewriting σ String :=
  match ClassName.ofEntry? entry with
  | some name => return name
  | none => throw (.rewriter entry "cannot derive class name from entry")

end Rewriting

/-- A disk on which classes are rewritten, and the bench of their rewriter. -/
structure Workshop (σ : Type) where
  disk : Disk
  bench : Bench σ

/-- A step that rewrites classes on a disk. What it did before a failure stays done. -/
abbrev Work (σ : Type) := ExceptT Failure (StateM (Workshop σ))

namespace Work

variable {σ α : Type}

/-- Runs a step that touches nothing but the disk. -/
def onDisk (action : Action α) : Work σ α := do
  let (result, disk) := action.run.run (← get).disk
  modify fun shop => { shop with disk := disk }
  match result with
  | .ok value => return value
  | .error failure => throw failure

end Work
end ClassCoverage
