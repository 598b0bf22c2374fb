import ClassCoverage.Rewriter

/-! Work on classes, cut into its steps. Every step looks at the disk, changes it by one operation,
or offers one class to the rewriter. Others can work on the same disk between two steps. -/
namespace ClassCoverage

/-- A course of steps that depend on what the steps before them came to. An operation that is
carried out hands on the disk it was carried out on, and a change of the store the store it
changed. -/
inductive Course (α : Type) where
  | done (outcome : Except Failure α)
  | watch (next : Disk → Course α)
  | act (operation : String) (path : Path) (change : Disk → Except Fault Disk)
      (next : Except Fault Disk → Course α)
  | keep (change : Store → Store) (next : Store → Course α)
  | offer (name : String) (content : Bytes) (next : Except Failure Rewritten → Course α)

/-- What operates a disk. It can refuse any operation, such as on a disk that is full. -/
structure System where
  refuses : (operation : String) → Path → Disk → Option Fault := fun _ _ _ => none

def System.attempt (system : System) (operation : String) (path : Path)
    (change : Disk → Except Fault Disk) (disk : Disk) : Except Fault Disk :=
  match system.refuses operation path disk with
  | some fault => .error fault
  | none => change disk

namespace Course
variable {α β σ : Type}

protected def bind : Course α → (α → Course β) → Course β
  | done (.ok value), next => next value
  | done (.error failure), _ => done (.error failure)
  | watch rest, next => watch fun disk => (rest disk).bind next
  | act operation path change rest, next =>
    act operation path change fun result => (rest result).bind next
  | keep change rest, next => keep change fun store => (rest store).bind next
  | offer name content rest, next => offer name content fun result => (rest result).bind next

instance : Monad Course where
  pure value := done (.ok value)
  bind := Course.bind

/-- Goes on with the handler where a course fails. -/
protected def tryCatch : Course α → (Failure → Course α) → Course α
  | done (.ok value), _ => done (.ok value)
  | done (.error failure), handler => handler failure
  | watch rest, handler => watch fun disk => (rest disk).tryCatch handler
  | act operation path change rest, handler =>
    act operation path change fun result => (rest result).tryCatch handler
  | keep change rest, handler => keep change fun store => (rest store).tryCatch handler
  | offer name content rest, handler =>
    offer name content fun result => (rest result).tryCatch handler

instance : MonadExcept Failure Course where
  throw failure := done (.error failure)
  tryCatch := Course.tryCatch

/-- What the disk is like now. -/
def disk : Course Disk := watch pure

/-- Takes over the answer of an operation, naming the operation and path if it failed. -/
def ofAnswer (operation : String) (path : Path) : Except Fault α → Course α
  | .ok value => pure value
  | .error fault => throw (.io operation (some path) (some fault))

/-- Changes the disk by one operation. -/
def change (operation : String) (path : Path) (step : Disk → Except Fault Disk) : Course Unit :=
  act operation path step fun result => ofAnswer operation path (result.map fun _ => ())

/-- Changes the disk if that is possible. -/
def changeIfPossible (operation : String) (path : Path) (step : Disk → Except Fault Disk) :
    Course Unit :=
  act operation path step fun _ => pure ()

/-- Looks at the disk by one operation. -/
def see (operation : String) (path : Path) (view : Disk → Except Fault α) : Course α :=
  act operation path (fun disk => (view disk).map fun _ => disk) fun result =>
    ofAnswer operation path (result.bind view)

def store : Course Store := keep id pure

def setStore (store : Store) : Course Unit := keep (fun _ => store) fun _ => pure ()

/-- Asks the rewriter what becomes of a class. -/
def ask (name : String) (content : Bytes) : Course Rewritten := offer name content done

/-- Writes a file: it is emptied or created first, and then filled. -/
def write (operation : String) (path : Path) (content : Bytes) : Course Unit := do
  change operation path (·.write path [])
  change operation path (·.fill path content)

/-- One step, by a rewriter that works on a disk. -/
def step (rewriter : Rewriter σ) (system : System) : Course α → StateM (Workshop σ) (Course α)
  | done outcome => return done outcome
  | watch next => return next (← get).disk
  | act operation path change next => do
    let shop ← get
    match system.attempt operation path change shop.disk with
    | .ok disk =>
      set { shop with disk := disk }
      return next (.ok shop.disk)
    | .error fault => return next (.error fault)
  | keep change next => do
    let shop ← get
    set { shop with bench := { shop.bench with store := change shop.bench.store } }
    return next shop.bench.store
  | offer name content next => do
    let shop ← get
    let (result, bench) := (rewriter name content).run.run shop.bench
    set { shop with bench := bench }
    return next result

/-- All steps, one right after another. -/
def carryOut (course : Course α) (rewriter : Rewriter σ) (system : System := {}) : Work σ α :=
  match course with
  | done outcome => .mk (pure outcome)
  | watch next => do (next (← get).disk).carryOut rewriter system
  | act operation path change next => do
    let shop ← get
    match system.attempt operation path change shop.disk with
    | .ok disk =>
      set { shop with disk := disk }
      (next (.ok shop.disk)).carryOut rewriter system
    | .error fault => (next (.error fault)).carryOut rewriter system
  | keep change next => do
    let shop ← get
    set { shop with bench := { shop.bench with store := change shop.bench.store } }
    (next shop.bench.store).carryOut rewriter system
  | offer name content next => do
    let shop ← get
    let (result, bench) := (rewriter name content).run.run shop.bench
    set { shop with bench := bench }
    (next result).carryOut rewriter system

end Course
end ClassCoverage
