import ClassCoverage.Proofs.RebuildRun
import ClassCoverage.Proofs.TreeDeeds

/-! Trees of classes that are taken to another place, by any rewriter. Every file of the source is
written once, with what the rewriter made of it or as it was, and all other files stay. -/
namespace ClassCoverage
open ClassCoverage.Path ClassCoverage.Archive

theorem Disk.Placed.unique {disk a b : Disk} {above : List Place} {place : Place} {content : Bytes}
    (one : disk.Placed a above place content) (other : disk.Placed b above place content) :
    a = b := by
  apply eq_of_kinds (one.workPlace.trans other.workPlace.symm)
  intro place
  rw [one.kinds, other.kinds]

theorem Puts.ok_iff {σ : Type} {course : Course Unit} {disk : Disk} {above : List Place}
    {place : Place} {content : Bytes} (puts : Puts course disk above place content)
    (rewriter : Rewriter σ) (bench : Bench σ) {shop' : Workshop σ} :
    (course.carryOut rewriter).run.run ⟨disk, bench⟩ = (.ok (), shop') ↔
      shop'.bench = bench ∧ disk.Open above place ∧ disk.Placed shop'.disk above place content := by
  constructor
  · intro ran
    by_cases open_ : disk.Open above place
    · obtain ⟨other, leads, placed⟩ := puts.opened open_
      rw [leads.run] at ran
      cases ran
      exact ⟨rfl, open_, placed⟩
    · obtain ⟨failure, other, refused⟩ := puts.closed open_
      rw [refused.run] at ran
      cases ran
  · rintro ⟨same, open_, placed⟩
    obtain ⟨other, leads, placed'⟩ := puts.opened open_
    obtain ⟨disk', bench⟩ := shop'
    cases same
    rw [leads.run, placed'.unique placed]

namespace ClassTree
variable {σ : Type} {rewriter : Rewriter σ} {disk now now' : Disk}
  {source destination : Path} {below : Place}
  {files : List Place} {content : Bytes} {summary summary' : Summary}

/-- What can become of one file. -/
inductive FileStep (rewriter : Rewriter σ) (name : String) (content : Bytes) (bench : Bench σ)
    (summary : Summary) :
    Bytes → Bench σ → Summary → Prop where
  | copied (off : isOffered name content.length = false) :
      FileStep rewriter name content bench summary content bench
        { summary with copied := summary.copied + 1 }
  | untouched {answer : Rewritten} {bench' : Bench σ} (on : isOffered name content.length = true)
      (answered : (rewriter name content).run.run bench = (.ok answer, bench'))
      (same : answer.transformed = false) :
      FileStep rewriter name content bench summary answer.bytes bench'
        { summary with classes := summary.classes + 1, copied := summary.copied + 1 }
  | transformed {answer : Rewritten} {bench' : Bench σ} (on : isOffered name content.length = true)
      (answered : (rewriter name content).run.run bench = (.ok answer, bench'))
      (new : answer.transformed = true) :
      FileStep rewriter name content bench summary answer.bytes bench'
        { summary with classes := summary.classes + 1, transformed := summary.transformed + 1 }

theorem rewriteClass_ok_iff {inPlace : Bool} {name : String} {target : Path} {answer : Rewritten}
    {shop shop' : Workshop σ} :
    ((rewriteClass inPlace name target content).carryOut rewriter).run.run shop =
      (.ok answer, shop') ↔
      ∃ bench, (rewriter name content).run.run shop.bench = (.ok answer, bench) ∧
        ((if answer.transformed ||
          !inPlace then writeClass target answer.bytes else pure ()).carryOut
          rewriter).run.run { shop with bench := bench } = (.ok (), shop') := by
  have tail (answer : Rewritten) : (do
      if answer.transformed || !inPlace then writeClass target answer.bytes
      return answer : Course Rewritten) =
        (if answer.transformed || !inPlace then writeClass target answer.bytes else pure ()) >>=
          fun _ => pure answer := by
    split
    · rfl
    · rfl
  unfold rewriteClass
  constructor
  · intro run
    obtain ⟨answer', middle, asked, rest⟩ := Course.run_bind_ok run
    rw [tail] at rest
    obtain ⟨_, last, wrote, given⟩ := Course.run_bind_ok rest
    cases given
    rw [Course.run_ask] at asked
    obtain ⟨answered, rfl⟩ := Prod.mk.inj asked
    exact ⟨_, Prod.ext answered rfl, wrote⟩
  · rintro ⟨bench, answered, wrote⟩
    rw [Course.run_bind, Course.run_ask, answered]
    simp only [tail]
    rw [Course.run_bind, wrote]
    rfl

/-- A file is taken to its place by the course that puts it there. -/
theorem rewriteFile_ok_iff {shop shop' : Workshop σ} {inPlace : Bool} {file : Path} {name : String}
    {above : List Place} {place : Place} (relative : file.relativeTo source = name)
    (read : shop.disk.read file = .ok content)
    (copies : isOffered name content.length = false →
      Puts (if inPlace then pure () else copyFile file (destination.join ⟨name⟩))
        shop.disk above place content)
    (writes : ∀ answer bench, (rewriter name content).run.run shop.bench = (.ok answer, bench) →
      Puts (if answer.transformed || !inPlace then writeClass (destination.join ⟨name⟩) answer.bytes
        else pure ()) shop.disk above place answer.bytes) :
    ((rewriteFile source destination inPlace summary file).carryOut rewriter).run.run shop =
        (.ok summary', shop') ↔
      ∃ bytes, FileStep rewriter name content shop.bench summary bytes shop'.bench summary' ∧
        shop.disk.Open above place ∧ shop.disk.Placed shop'.disk above place bytes := by
  have size : shop.disk.size file = .ok content.length := by
    unfold Disk.size
    rw [read]
    rfl
  unfold rewriteFile
  simp only [relative]
  rw [Course.run_bind, Course.run_see, size]
  simp only [Except.mapError]
  split
  · rename_i on
    rw [Course.run_bind, Course.run_see, read]
    simp only [Except.mapError]
    constructor
    · intro run
      obtain ⟨answer, middle, first, rest⟩ := Course.run_bind_ok run
      obtain rfl : shop' = middle := by
        split at rest <;> (cases rest; rfl)
      obtain ⟨bench, answered, wrote⟩ := rewriteClass_ok_iff.mp first
      obtain ⟨same, put⟩ := ((writes _ _ answered).ok_iff rewriter bench).mp wrote
      cases same
      refine ⟨answer.bytes, ?_, put⟩
      cases new : answer.transformed with
      | true =>
        simp only [new, ↓reduceIte] at rest
        cases rest
        exact .transformed on answered new
      | false =>
        simp only [new, Bool.false_eq_true, ↓reduceIte] at rest
        cases rest
        exact .untouched on answered new
    · rintro ⟨bytes, step, put⟩
      obtain ⟨now, bench⟩ := shop'
      have taken {answer : Rewritten}
          (answered : (rewriter name content).run.run shop.bench = (.ok answer, bench))
          (put : shop.disk.Open above place ∧ shop.disk.Placed now above place answer.bytes) :
          ((rewriteClass inPlace name (destination.join ⟨name⟩) content).carryOut
            rewriter).run.run shop =
            (.ok answer, ⟨now, bench⟩) :=
        rewriteClass_ok_iff.mpr ⟨bench, answered,
          ((writes _ _ answered).ok_iff rewriter bench).mpr ⟨rfl, put⟩⟩
      generalize bench = after at step taken ⊢
      cases step with
      | copied off => exact absurd on (by simp [off])
      | untouched _ answered same =>
        rw [Course.run_bind, taken answered put]
        simp only [same, Bool.false_eq_true, ↓reduceIte]
        rfl
      | transformed _ answered new =>
        rw [Course.run_bind, taken answered put]
        simp only [new, ↓reduceIte]
        rfl
  · rename_i off
    rw [Bool.not_eq_true] at off
    have same : (do
        if !inPlace then copyFile file (destination.join ⟨name⟩)
        return { summary with copied := summary.copied + 1 } : Course Summary) =
          (if inPlace then pure () else copyFile file (destination.join ⟨name⟩)) >>=
            fun _ => pure { summary with copied := summary.copied + 1 } := by
      cases inPlace <;> rfl
    rw [same]
    constructor
    · intro run
      obtain ⟨_, middle, copied, given⟩ := Course.run_bind_ok run
      cases given
      obtain ⟨bench, put⟩ := ((copies off).ok_iff rewriter shop.bench).mp copied
      rw [bench]
      exact ⟨content, .copied off, put⟩
    · rintro ⟨bytes, step, placed⟩
      obtain ⟨now, bench⟩ := shop'
      have ran (held : shop.disk.Open above place ∧ shop.disk.Placed now above place content) :
          ((if inPlace then pure () else copyFile file
            (destination.join ⟨name⟩) : Course Unit).carryOut
            rewriter).run.run shop = (.ok (), ⟨now, shop.bench⟩) :=
        ((copies off).ok_iff rewriter shop.bench).mpr ⟨rfl, held⟩
      generalize same : bench = after at step ⊢
      cases step with
      | copied =>
        rw [Course.run_bind, ran placed]
        rfl
      | untouched on => exact absurd on (by simp [off])
      | transformed on => exact absurd on (by simp [off])

/-- Away from the source every file is written that the rewriter does not fail on. -/
theorem rewriteFile_away_iff {shop shop' : Workshop σ} {top : Place} {file : Path}
    (rooted : shop.disk.Rooted) (inside : below ≠ []) (named : ∀ name ∈ below, IsName name)
    (relative : file.relativeTo source = Text.join "/" below)
    (lands : shop.disk.Lands file (top ++ below))
    (held : shop.disk.kind? (top ++ below) = some (.file content))
    (apart : shop.disk.aim destination ++ below ≠ top ++ below) :
    ((rewriteFile source destination false summary file).carryOut rewriter).run.run shop =
      (.ok summary', shop') ↔
      ∃ bytes, FileStep rewriter (Text.join "/" below) content shop.bench summary bytes
        shop'.bench summary' ∧
        shop.disk.Open (shop.disk.wayTo destination below) (shop.disk.aim destination ++ below) ∧
        shop.disk.Placed shop'.disk (shop.disk.wayTo destination below)
          (shop.disk.aim destination ++ below) bytes := by
  have aims := Disk.aims_join shop.disk destination inside named
  apply rewriteFile_ok_iff relative (lands.read held)
  · intro _
    have copies := puts_copyFile rooted aims lands held
    rwa [ClassTree.copied, if_neg (Ne.symm apart)] at copies
  · intro answer _ _
    rw [Bool.not_false, Bool.or_true, if_pos rfl]
    exact puts_writeClass rooted aims answer.bytes

/-- Files that are still as they were at the start, and are not in the way of each other. -/
structure Pending (disk : Disk) (source destination : Path) (files : List Place) (now : Disk) :
    Prop where
  rooted : now.Rooted
  workPlace : now.workPlace = disk.workPlace
  resolved : now.resolve source = .ok (disk.aim source)
  directory : now.kind? (disk.aim source) = some .directory
  held : ∀ below ∈ files, ∃ content, disk.kind? (disk.aim source ++ below) = some (.file content) ∧
    now.kind? (disk.aim source ++ below) = some (.file content)
  named : ∀ below ∈ files, below ≠ [] ∧ ∀ name ∈ below, IsName name
  apart : ∀ below ∈ files, ∀ later ∈ files, disk.aim destination ++ below ≠ disk.aim source ++ later

namespace Pending

theorem head (pending : Pending disk source destination (below :: files) now) :
    ∃ content, disk.kind? (disk.aim source ++ below) = some (.file content) ∧
      now.kind? (disk.aim source ++ below) = some (.file content) ∧
      now.Lands (Scan.pathTo source below) (disk.aim source ++ below) ∧
      (Scan.pathTo source below).relativeTo source = Text.join "/" below := by
  obtain ⟨content, before, held⟩ := pending.held below (List.mem_cons_self ..)
  obtain ⟨inside, named⟩ := pending.named below (List.mem_cons_self ..)
  exact ⟨content, before, held,
    Scan.lands_pathTo pending.resolved pending.directory inside named held,
    relativeTo_pathTo (Disk.spelling_of_resolve pending.resolved) named⟩

/-- The next file has been taken where it goes. -/
theorem next {bytes : Bytes} {above : List Place}
    (pending : Pending disk source destination (below :: files) now)
    (open_ : now.Open above (disk.aim destination ++ below))
    (placed : now.Placed now' above (disk.aim destination ++ below) bytes) :
    Pending disk source destination files now' where
  rooted := pending.rooted.keep (placed.keeps open_)
  workPlace := placed.workPlace.trans pending.workPlace
  resolved := Disk.resolve_keep (placed.keeps open_) pending.resolved pending.directory
  directory := (placed.keeps open_).directory _ pending.directory
  held later member := by
    obtain ⟨content, before, held⟩ := pending.held later (List.mem_cons_of_mem below member)
    have other :=
      pending.apart below (List.mem_cons_self ..) later (List.mem_cons_of_mem below member)
    exact ⟨content, before, (placed.file_iff open_ (Ne.symm other) content).mpr held⟩
  named later member := pending.named later (List.mem_cons_of_mem below member)
  apart one member other member' :=
    pending.apart one (List.mem_cons_of_mem below member) other (List.mem_cons_of_mem below member')

/-- What becomes of the next file. -/
theorem step_iff {shop shop' : Workshop σ}
    (pending : Pending disk source destination (below :: files) shop.disk) :
    ((rewriteFile source destination false summary (Scan.pathTo source below)).carryOut
      rewriter).run.run shop =
        (.ok summary', shop') ↔
      ∃ content bytes, shop.disk.kind? (disk.aim source ++ below) = some (.file content) ∧
        FileStep rewriter (Text.join "/" below) content shop.bench summary bytes
          shop'.bench summary' ∧
        shop.disk.Open (disk.wayTo destination below) (disk.aim destination ++ below) ∧
        shop.disk.Placed shop'.disk (disk.wayTo destination below)
          (disk.aim destination ++ below) bytes := by
  obtain ⟨content, before, held, lands, relative⟩ := pending.head
  obtain ⟨inside, named⟩ := pending.named below (List.mem_cons_self ..)
  have aim : shop.disk.aim destination = disk.aim destination :=
    Disk.aim_keep pending.workPlace destination
  have way : shop.disk.wayTo destination below = disk.wayTo destination below :=
    Disk.wayTo_keep pending.workPlace destination below
  have apart := pending.apart below (List.mem_cons_self ..) below (List.mem_cons_self ..)
  rw [← aim] at apart
  rw [rewriteFile_away_iff pending.rooted inside named relative lands held apart, aim, way]
  constructor
  · rintro ⟨bytes, step, put⟩
    exact ⟨content, bytes, held, step, put⟩
  · rintro ⟨_, bytes, again, step, put⟩
    cases held.symm.trans again
    exact ⟨bytes, step, put⟩

end Pending

/-- What a run comes to that takes files from below one place to below another. -/
inductive Passed (rewriter : Rewriter σ) (top goal : Place) (ways : Place → List Place) :
    List Place → Workshop σ → Summary → List Bytes → Workshop σ → Summary → Prop where
  | nil {shop summary} : Passed rewriter top goal ways [] shop summary [] shop summary
  | cons {below files content bytes written summary next summary'} {shop middle shop' : Workshop σ}
      (held : shop.disk.kind? (top ++ below) = some (.file content))
      (step : FileStep rewriter (Text.join "/" below) content shop.bench summary
        bytes middle.bench next)
      (open_ : shop.disk.Open (ways below) (goal ++ below))
      (placed : shop.disk.Placed middle.disk (ways below) (goal ++ below) bytes)
      (rest : Passed rewriter top goal ways files middle next written shop' summary') :
      Passed rewriter top goal ways (below :: files) shop summary (bytes :: written) shop' summary'

/-- A run is known by its steps, as long as each of them finds what it needs. -/
theorem passed_iff {top goal : Place} {ways : Place → List Place} {ready : List Place → Disk → Prop}
    {take : Summary → Place → Course Summary}
    (steps : ∀ {below files summary summary'} {shop shop' : Workshop σ},
      ready (below :: files) shop.disk →
      (((take summary below).carryOut rewriter).run.run shop = (.ok summary', shop') ↔
      ∃ content bytes, shop.disk.kind? (top ++ below) = some (.file content) ∧
        FileStep rewriter (Text.join "/" below) content shop.bench summary bytes shop'.bench
          summary' ∧ shop.disk.Open (ways below) (goal ++ below) ∧
          shop.disk.Placed shop'.disk (ways below) (goal ++ below) bytes))
    (next : ∀ {below files bytes} {now now' : Disk}, ready (below :: files) now →
      now.Open (ways below) (goal ++ below) → now.Placed now' (ways below) (goal ++ below) bytes →
      ready files now') {shop shop' : Workshop σ} (start : ready files shop.disk) :
    ((files.foldlM take summary).carryOut rewriter).run.run shop = (.ok summary', shop') ↔
      ∃ written, Passed rewriter top goal ways files shop summary written shop' summary' := by
  induction files generalizing summary shop with
  | nil =>
    constructor
    · intro run
      cases run
      exact ⟨[], .nil⟩
    · rintro ⟨_, passed⟩
      cases passed
      rfl
  | cons below files ih =>
    rw [List.foldlM_cons]
    constructor
    · intro run
      obtain ⟨_, middle, first, rest⟩ := Course.run_bind_ok run
      obtain ⟨content, bytes, held, step, open_, placed⟩ := (steps start).mp first
      obtain ⟨written, passed⟩ := (ih (next start open_ placed)).mp rest
      exact ⟨bytes :: written, .cons held step open_ placed passed⟩
    · rintro ⟨_, passed⟩
      cases passed with
      | cons held step open_ placed rest =>
        rw [Course.run_bind, (steps start).mpr ⟨_, _, held, step, open_, placed⟩]
        exact (ih (next start open_ placed)).mpr ⟨_, rest⟩

theorem Pending.passed_iff {shop shop' : Workshop σ}
    (pending : Pending disk source destination files shop.disk) :
    ((files.foldlM (fun summary below =>
        rewriteFile source destination false summary (Scan.pathTo source below)) summary).carryOut
          rewriter).run.run shop = (.ok summary', shop') ↔
      ∃ written, Passed rewriter (disk.aim source) (disk.aim destination)
        (disk.wayTo destination) files shop summary
        written shop' summary' :=
  ClassTree.passed_iff (fun pending => pending.step_iff) (fun pending => pending.next) pending

/-- What was written for the files of a tree, with the answers that were given for its classes, all
in order. -/
inductive Taken (disk : Disk) (top : Place) : List Place → List Rewritten → List Bytes → Prop where
  | nil : Taken disk top [] [] []
  | copied {below content files answers written} (held : disk.kind? (top ++ below) =
    some (.file content))
      (off : isOffered (Text.join "/" below) content.length = false)
        (rest : Taken disk top files answers written) :
      Taken disk top (below :: files) answers (content :: written)
  | offered {below content answer files answers written} (held : disk.kind? (top ++ below) =
    some (.file content))
      (on : isOffered (Text.join "/" below) content.length = true)
        (rest : Taken disk top files answers written) :
      Taken disk top (below :: files) (answer :: answers) (answer.bytes :: written)

/-- What a run adds to the counts. -/
structure Counted (start : Summary) (files : List Place) (calls : List Call)
    (answers : List Rewritten) (summary : Summary) : Prop where
  classes : summary.classes = start.classes + calls.length
  transformed : summary.transformed =
    start.transformed + (answers.filter Rewritten.transformed).length
  written : summary.transformed + summary.copied = start.transformed + start.copied + files.length

namespace Counted
variable {start : Summary} {calls : List Call} {answers : List Rewritten}
  {call : Call} {answer : Rewritten}

private theorem copied_cons
    (counted : Counted { start with copied := start.copied + 1 } files calls answers summary) :
    Counted start (below :: files) calls answers summary where
  classes := counted.classes
  transformed := counted.transformed
  written := by
    rw [counted.written]
    simp only [List.length_cons]
    omega

private theorem untouched_cons (same : answer.transformed = false)
    (counted : Counted { start with classes := start.classes + 1, copied := start.copied + 1 } files
      calls answers
      summary) : Counted start (below :: files) (call :: calls) (answer :: answers) summary where
  classes := by
    rw [counted.classes]
    simp only [List.length_cons]
    omega
  transformed := by
    rw [List.filter_cons_of_neg (by simp [same])]
    exact counted.transformed
  written := by
    rw [counted.written]
    simp only [List.length_cons]
    omega

private theorem transformed_cons (new : answer.transformed = true)
    (counted : Counted { start with classes := start.classes + 1, transformed := start.transformed +
      1 } files calls
      answers summary) : Counted start (below :: files) (call :: calls) (answer :: answers) summary
        where
  classes := by
    rw [counted.classes]
    simp only [List.length_cons]
    omega
  transformed := by
    rw [counted.transformed, List.filter_cons_of_pos new]
    simp only [List.length_cons]
    omega
  written := by
    rw [counted.written]
    simp only [List.length_cons]
    omega

end Counted

theorem class?_of_held {top : Place} (held : disk.kind? (top ++ below) = some (.file content)) :
    class? disk top below =
      if isOffered (Text.join "/" below) content.length then some (Text.join "/" below, content)
      else none := by
  unfold class?
  rw [held]

/-- The files of a tree after they were taken to another place. -/
structure TakenOver (rewriter : Rewriter σ) (disk : Disk) (source destination : Path)
    (files : List Place) (start : Summary) (shop : Workshop σ) (answers : List Rewritten)
    (written : List Bytes) (summary : Summary) (shop' : Workshop σ) : Prop where
  taken : Taken disk (disk.aim source) files answers written
  answered : (offerAll rewriter
    (files.filterMap (class? disk (disk.aim source)))).run.run shop.bench =
    (.ok answers, shop'.bench)
  lies : List.Forall₂ (fun below bytes =>
    shop'.disk.kind? (disk.aim destination ++ below) = some (.file bytes))
    files written
  counted : Counted start files (files.filterMap (class? disk (disk.aim source))) answers summary
  workPlace : shop'.disk.workPlace = shop.disk.workPlace
  kept : ∀ place, place ∉ files.map (disk.aim destination ++ ·) → ∀ content,
    shop'.disk.kind? place = some (.file content) ↔ shop.disk.kind? place = some (.file content)

/-- Files that were still as they were when they were taken have been taken over. -/
theorem takenOver_of_passed {shop shop' : Workshop σ} {written : List Bytes}
    (distinct : files.Nodup) (home : shop.disk.workPlace = disk.workPlace)
    (held : ∀ below ∈ files, ∃ content, disk.kind? (disk.aim source ++ below) =
      some (.file content) ∧ shop.disk.kind? (disk.aim source ++ below) = some (.file content))
    (apart : files.Pairwise fun below later => disk.aim destination ++ below ≠ disk.aim source ++
      later)
    (passed : Passed rewriter (disk.aim source) (disk.aim destination) (disk.wayTo destination)
      files shop summary written shop' summary') :
    ∃ answers, TakenOver rewriter disk source destination files summary shop answers written
      summary' shop' := by
  induction passed with
  | nil => exact ⟨[], .nil, rfl, .nil, ⟨rfl, rfl, rfl⟩, rfl, fun _ _ _ => .rfl⟩
  | @cons below files content bytes written summary next summary' shop middle shop' now step open_
    placed rest ih =>
    obtain ⟨fresh, distinct⟩ := List.nodup_cons.mp distinct
    obtain ⟨others, apart⟩ := List.pairwise_cons.mp apart
    rw [List.forall_mem_cons] at held
    obtain ⟨⟨content', before, again⟩, held⟩ := held
    cases now.symm.trans again
    have left : ∀ later ∈ files, ∃ content, disk.kind? (disk.aim source ++ later) =
        some (.file content) ∧
        middle.disk.kind? (disk.aim source ++ later) = some (.file content) := by
      intro later member
      obtain ⟨content, before, now⟩ := held later member
      exact ⟨content, before,
        (placed.file_iff open_ (Ne.symm (others later member)) content).mpr now⟩
    obtain ⟨answers, taken, answered, lies, counted, workPlace, kept⟩ :=
      ih distinct (placed.workPlace.trans home) left apart
    have absent : disk.aim destination ++ below ∉ files.map (disk.aim destination ++ ·) := by
      simpa using fresh
    have here := (kept _ absent bytes).mpr placed.here
    have stay : ∀ place, place ∉ (below :: files).map (disk.aim destination ++ ·) → ∀ content,
        shop'.disk.kind? place = some (.file content) ↔
        shop.disk.kind? place = some (.file content) := by
      intro place other bytes'
      rw [List.map_cons, List.mem_cons, not_or] at other
      rw [kept place other.2, placed.file_iff open_ other.1]
    have whole := workPlace.trans placed.workPlace
    have own := class?_of_held before
    generalize middle.bench = bench at step answered
    cases step with
    | copied off =>
      rw [off] at own
      rw [← List.filterMap_cons_none own] at answered counted
      exact ⟨answers, .copied before off taken, answered, .cons here lies,
        counted.copied_cons, whole, stay⟩
    | @untouched answer _ on ran same =>
      rw [if_pos on] at own
      refine ⟨answer :: answers, .offered before on taken, ?_, .cons here lies, ?_, whole, stay⟩
      · rw [List.filterMap_cons_some own]
        exact run_offerAll_cons ran answered
      · rw [List.filterMap_cons_some own]
        exact counted.untouched_cons same
    | @transformed answer _ on ran new =>
      rw [if_pos on] at own
      refine ⟨answer :: answers, .offered before on taken, ?_, .cons here lies, ?_, whole, stay⟩
      · rw [List.filterMap_cons_some own]
        exact run_offerAll_cons ran answered
      · rw [List.filterMap_cons_some own]
        exact counted.transformed_cons new

/-- No file of the source is looked for where a file is written. -/
def Elsewhere (disk : Disk) (source destination : Path) : Prop :=
  ∀ place ∈ goals disk source destination, ¬ Reached (disk.aim source) place

theorem aim_of_sameDirectory (same : sameDirectory disk source destination = true) :
    disk.aim source = disk.aim destination := by
  unfold sameDirectory samePlace Disk.canonical? at same
  cases first : disk.resolve source with
  | error fault => exact Disk.aim_of_parts (by simpa [first, Except.toOption] using same) disk
  | ok place => cases second : disk.resolve destination with
    | error fault =>
      exact Disk.aim_of_parts (by simpa [first, second, Except.toOption] using same) disk
    | ok place' =>
      have places : place = place' := by simpa [first, second, Except.toOption] using same
      rw [Disk.aim_of_resolve first, Disk.aim_of_resolve second, places]

theorem aim_ne_of_elsewhere (elsewhere : Elsewhere disk source destination) {below later : Place}
    (member : below ∈ filesBelow disk (disk.aim source))
    (member' : later ∈ filesBelow disk (disk.aim source)) :
    disk.aim destination ++ below ≠ disk.aim source ++ later := by
  intro same
  obtain ⟨inside, kept, -⟩ := mem_filesBelow_iff.mp member'
  exact elsewhere _ (List.mem_map_of_mem member) ⟨later, inside, kept, same⟩

theorem sameDirectory_of_elsewhere (elsewhere : Elsewhere disk source destination)
    (member : below ∈ filesBelow disk (disk.aim source)) :
    sameDirectory disk source destination = false := by
  rw [Bool.eq_false_iff]
  intro same
  exact aim_ne_of_elsewhere elsewhere member member (by rw [aim_of_sameDirectory same])

theorem pending_filesBelow (rooted : disk.Rooted)
    (named : ∀ below ∈ filesBelow disk (disk.aim source), ∀ name ∈ below, IsName name)
    (resolved : disk.resolve source = .ok (disk.aim source))
    (directory : disk.kind? (disk.aim source) = some .directory)
    (elsewhere : Elsewhere disk source destination) :
    Pending disk source destination (filesBelow disk (disk.aim source)) disk where
  rooted := rooted
  workPlace := rfl
  resolved := resolved
  directory := directory
  held below member := by
    obtain ⟨-, -, content, held⟩ := mem_filesBelow_iff.mp member
    exact ⟨content, held, held⟩
  named below member := ⟨(mem_filesBelow_iff.mp member).1, named below member⟩
  apart _ member _ member' := aim_ne_of_elsewhere elsewhere member member'

/-- A tree that was rewritten to another place has been taken over. -/
theorem takenOver_of_rewrite {origin shop' : Workshop σ} (rooted : origin.disk.Rooted)
    (named : ∀ below ∈ filesBelow origin.disk (origin.disk.aim source), ∀ name ∈ below, IsName name)
    (found : Found origin.disk source) (elsewhere : Elsewhere origin.disk source destination)
    (run : (rewrite source destination rewriter).run.run origin = (.ok summary, shop')) :
    ∃ answers written, TakenOver rewriter origin.disk source destination
      (filesBelow origin.disk (origin.disk.aim source))
        {} origin answers written summary shop' := by
  by_cases none : filesBelow origin.disk (origin.disk.aim source) = []
  · rw [rewrite, run_course_of_no_files fun _ => none] at run
    cases run
    rw [none]
    exact ⟨[], [], .nil, rfl, .nil, ⟨rfl, rfl, rfl⟩, rfl, fun _ _ _ => .rfl⟩
  · have directory := kind?_of_filesBelow none
    obtain ⟨listing, here⟩ := Disk.at?_eq_directory_iff.mpr directory
    obtain ⟨below, member⟩ := List.exists_mem_of_ne_nil _ none
    rw [rewrite, run_course_of_files (found none) here,
      sameDirectory_of_elsewhere elsewhere member] at run
    have distinct := (increasing_filesBelow origin.disk (origin.disk.aim source)).nodup
    have pending := pending_filesBelow rooted named (found none) directory elsewhere
    obtain ⟨written, passed⟩ := pending.passed_iff.mp run
    obtain ⟨answers, takenOver⟩ := takenOver_of_passed distinct rfl pending.held
      (List.pairwise_of_forall_mem_list pending.apart) passed
    exact ⟨answers, written, takenOver⟩

end ClassTree
end ClassCoverage
