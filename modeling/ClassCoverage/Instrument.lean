import ClassCoverage.Instrument.Crew

/-! Instrumentation: targets are collected, rewritten by a crew of workers, and the records of their
classes are saved once all of them are done. -/
namespace ClassCoverage.Instrument

/-- What the machine decides about a run: the number of its processors, and the order in which the
workers take turns. -/
structure Machine where
  processors : Nat := 4
  turns : List Nat := []
  deriving DecidableEq, Repr

/-- How many workers there are. Zero jobs ask for one for each processor; there is never a worker
without a target. -/
def crewSize (machine : Machine) (jobs targets : Nat) : Nat :=
  max 1 (min (if jobs = 0 then machine.processors else jobs) targets)

def total (summaries : List Summary) : Summary := summaries.foldl Summary.add {}

def collectTargets (options : Options) : Action (List Target) :=
  Target.collect options.archives options.archiveSets options.classDirectories

variable {σ : Type}

/-- Rewrites the targets, and answers the records of their classes. -/
def rewriteAll [Archive.Library] (machine : Machine) (options : Options) (rewriter : Rewriter σ)
    (targets : List Target) : Work σ (Store × Summary) := do
  let crew := Crew.ofTargets options (crewSize machine options.jobs targets.length) targets
  let (results, shop) := (crew.finish rewriter machine.turns).run (← get)
  set shop
  match results.mapM id with
  | .error failure => throw failure
  | .ok results =>
    match Store.fold (results.map Prod.fst) with
    | .error conflict => throw (.ofConflict conflict)
    | .ok store => return (store, total (results.map Prod.snd))

/-- Instruments all targets. Without a target nothing is saved. -/
def run [Archive.Library] (machine : Machine) (options : Options)
    (rewriter : Rewriter σ) : Work σ Summary := do
  let targets ← Work.onDisk (collectTargets options)
  if targets.isEmpty then return {}
  let (store, summary) ← rewriteAll machine options rewriter targets
  let _ ← Work.onDisk (Metadata.persist store options.metadataFile options.merge)
  return summary

end ClassCoverage.Instrument
