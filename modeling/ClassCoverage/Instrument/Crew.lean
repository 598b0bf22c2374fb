import ClassCoverage.Archive.Rewrite
import ClassCoverage.ClassTree
import ClassCoverage.Instrument.Target
import ClassCoverage.Metadata.File

/-! Workers that share the targets of an instrumentation. The targets are dealt out in turn. Every
worker has a store of its own and stops at its first failure; the others go on. All of them work on
one disk, and in every turn one of them takes one step. The order of the turns is given by a list of
their numbers. -/
namespace ClassCoverage.Instrument

structure Options where
  archives : List Path := []
  archiveSets : List ArchiveSet := []
  classDirectories : List Path := []
  outputDirectory : Option Path := none
  metadataFile : Path := Metadata.usualFile
  merge : Bool := true
  keepDirectoryEntries : Bool := false
  jobs : Nat := 1
  deriving DecidableEq, Repr

structure Summary where
  archives : Nat := 0
  directories : Nat := 0
  classes : Nat := 0
  transformed : Nat := 0
  deriving DecidableEq, Repr

def Summary.add (one other : Summary) : Summary where
  archives := one.archives + other.archives
  directories := one.directories + other.directories
  classes := one.classes + other.classes
  transformed := one.transformed + other.transformed

/-- Rewrites one target. Class directories are rewritten in place if there is no other place. -/
def course [Archive.Library] (options : Options) : Target → Course Summary
  | .archive path => do
    let done ← Archive.course path { keepDirectoryEntries := options.keepDirectoryEntries }
    return { archives := 1, classes := done.classes, transformed := done.transformed }
  | .directory path => do
    let done ← ClassTree.course path (options.outputDirectory.getD path)
    return { directories := 1, classes := done.classes, transformed := done.transformed }

variable {σ : Type}

def rewriteTarget [Archive.Library] (options : Options) (rewriter : Rewriter σ)
    (target : Target) : Work σ Summary :=
  (course options target).carryOut rewriter

/-- Rewrites targets one after another, up to the first failure. -/
def courseOfAll [Archive.Library] (options : Options) (targets : List Target) : Course Summary :=
  targets.foldlM (fun summary target => return summary.add (← course options target)) {}

/-- A worker with the steps that it has not yet taken. -/
structure Worker where
  course : Course Summary
  store : Store := .empty

abbrev Crew := List Worker

namespace Worker

/-- Takes the next step, if there is one. -/
def step (rewriter : Rewriter σ) (worker : Worker) : StateM (Workshop σ) Worker := do
  let shop ← get
  let (course, after) :=
    (worker.course.step rewriter {}).run { shop with bench.store := worker.store }
  set after
  return ⟨course, after.bench.store⟩

/-- Takes all steps that are left. Answers what the worker has done, or its failure. -/
def finish (rewriter : Rewriter σ) (worker : Worker) :
    StateM (Workshop σ) (Except Failure (Store × Summary)) := do
  let shop ← get
  let (result, after) :=
    (worker.course.carryOut rewriter).run.run { shop with bench.store := worker.store }
  set after
  return result.map fun summary => (after.bench.store, summary)

end Worker

namespace Crew

/-- The targets of the worker with a number, when they are dealt out to `count` workers. -/
def share (count number : Nat) (targets : List Target) : List Target :=
  targets.zipIdx.filterMap fun (target, index) =>
    if index % count = number then some target else none

def ofTargets [Archive.Library] (options : Options) (count : Nat) (targets : List Target) : Crew :=
  (List.range count).map fun number =>
    { course := courseOfAll options (share count number targets) }

/-- The turn of the worker with a number. Turns of workers with nothing to do change nothing. -/
def turn (rewriter : Rewriter σ) (crew : Crew) (number : Nat) : StateM (Workshop σ) Crew := do
  match crew[number]? with
  | some worker => return crew.set number (← worker.step rewriter)
  | none => return crew

/-- Lets the workers take the given turns, and then one after another all that they have left. -/
def finish (rewriter : Rewriter σ) (turns : List Nat) (crew : Crew) :
    StateM (Workshop σ) (List (Except Failure (Store × Summary))) := do
  (← turns.foldlM (turn rewriter) crew).mapM (Worker.finish rewriter)

end Crew
end ClassCoverage.Instrument
