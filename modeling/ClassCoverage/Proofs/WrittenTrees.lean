import ClassCoverage.Proofs.SettledTrees
import ClassCoverage.Proofs.TreeRuns
import Mathlib.Data.List.Nodup

/-! Trees of classes that are written as they were read. Rewriting a tree in place, or to a place
apart from it, puts every file where it belongs, leaves all other places as they were, and never
looks at excluded files. -/
namespace ClassCoverage
open ClassCoverage.Path ClassCoverage.Archive

variable {σ : Type}

/-- A class that is not transformed comes back as it is. -/
def Rewriter.KeepsOthers (rewriter : Rewriter σ) : Prop :=
  ∀ {name content bench answer bench'}, (rewriter name content).run.run bench =
    (.ok answer, bench') →
    answer.transformed = false → answer.bytes = content

theorem Marking.keepsOthers (marking : Marking) : marking.rewriter.KeepsOthers := by
  intro name content bench answer bench' run same
  unfold Marking.rewriter at run
  rw [Steps.run_bind, Steps.run_get] at run
  simp only at run
  rw [Steps.run_bind, Steps.run_modify] at run
  simp only at run
  split at run
  · rw [Steps.run_bind, Steps.run_throw] at run
    cases run
  · split at run
    · cases run
      rfl
    · obtain ⟨_, _, -, run⟩ := Steps.run_bind_ok run
      obtain ⟨_, _, -, run⟩ := Steps.run_bind_ok run
      cases run
      cases same

namespace Disk

/-- Two disks that differ only in what is in hidden files. -/
structure SameBut (hidden : Place → Prop) (disk other : Disk) : Prop where
  alike : disk.Alike other
  shown : ∀ place, ¬ hidden place → other.kind? place = disk.kind? place

namespace SameBut
variable {hidden : Place → Prop} {disk disk' other other' : Disk}
  {above : List Place} {place : Place}
  {content : Bytes}

private theorem isOpen (same : SameBut hidden disk other) (open_ : disk.Open above place) :
    other.Open above place where
  clear stop member bytes file := by
    obtain ⟨bytes', before⟩ := (same.alike.file stop).mp ⟨bytes, file⟩
    exact open_.clear stop member bytes' before
  free directory := open_.free ((same.alike.directory place).mp directory)
  apart := open_.apart

/-- The same file makes the same difference to both. -/
theorem placed (same : SameBut hidden disk other) (one : disk.Placed disk' above place content)
    (two : other.Placed other' above place content) : SameBut hidden disk' other' where
  alike := {
    workPlace := two.workPlace.trans (same.alike.workPlace.trans one.workPlace.symm)
    directory := fun stop => by
      rw [two.kinds, one.kinds]
      split
      · rfl
      · split
        · rfl
        · exact same.alike.directory stop
    file := fun stop => by
      rw [two.kinds, one.kinds]
      split
      · rfl
      · split
        · rfl
        · exact same.alike.file stop }
  shown stop visible := by
    rw [two.kinds, one.kinds, same.shown stop visible]

end SameBut
end Disk

namespace ClassTree
variable {rewriter : Rewriter σ} {disk now now' : Disk} {source destination : Path}
  {top goal below place : Place}
  {files : List Place} {content : Bytes} {summary summary' : Summary} {ways : Place → List Place}
  {shop shop' : Workshop σ} {written : List Bytes}

/-- A place below a directory with an excluded name on the way to it. -/
def Hidden (top place : Place) : Prop :=
  ∃ below, place = top ++ below ∧ ∃ name ∈ below, Scan.isExcluded name = true

/-- The directory itself, or one that is neither in it nor around it. -/
def Fits (disk : Disk) (destination : Path) (top : Place) : Prop :=
  disk.resolve destination = .ok top ∨ ¬ top <+: disk.aim destination ∧
    ¬ disk.aim destination <+: top

namespace FileOf
variable {path : Path}

/-- A file that stays is in its place already. -/
theorem puts_idle (fileOf : FileOf disk path top below) (rooted : disk.Rooted)
    (held : disk.kind? (top ++ below) = some (.file content)) :
    Puts (pure ()) disk (disk.wayTo path below) (top ++ below) content where
  opened _ := by
    refine ⟨disk, .pure () disk, rfl, fun other => ?_⟩
    split
    · rename_i here
      rw [here, held]
    · split
      · rename_i member
        exact fileOf.above rooted other member
      · rfl
  closed closed := absurd (fileOf.open_ rooted) closed

end FileOf

/-- In place every file that is transformed is written, and all others stay. -/
theorem rewriteFile_here_iff (keeps : rewriter.KeepsOthers) (rooted : shop.disk.Rooted)
    (origin : FileOf shop.disk source top below) (target : FileOf shop.disk destination top below)
    (held : shop.disk.kind? (top ++ below) = some (.file content)) :
    ((rewriteFile source destination true summary (Scan.pathTo source below)).carryOut
      rewriter).run.run shop =
        (.ok summary', shop') ↔
      ∃ bytes, FileStep rewriter (Text.join "/" below) content shop.bench summary bytes
        shop'.bench summary' ∧
        shop.disk.Open (shop.disk.wayTo destination below) (top ++ below) ∧
        shop.disk.Placed shop'.disk (shop.disk.wayTo destination below) (top ++ below) bytes := by
  have lands := Scan.lands_pathTo origin.resolved origin.directory origin.inside origin.named held
  apply rewriteFile_ok_iff origin.relative (lands.read held)
  · intro _
    exact target.puts_idle rooted held
  · intro answer bench answered
    cases new : answer.transformed with
    | true => exact puts_writeClass rooted target.aims answer.bytes
    | false =>
      rw [keeps answered new]
      exact target.puts_idle rooted held

/-- Files that are left to be rewritten where they are. -/
structure Here (disk : Disk) (source destination : Path) (top : Place) (files : List Place)
    (now : Disk) : Prop where
  rooted : now.Rooted
  workPlace : now.workPlace = disk.workPlace
  origins : ∀ below ∈ files, FileOf now source top below
  targets : ∀ below ∈ files, FileOf now destination top below

namespace Here

private theorem step_iff (keeps : rewriter.KeepsOthers)
    (here : Here disk source destination top (below :: files) shop.disk) :
    ((rewriteFile source destination true summary (Scan.pathTo source below)).carryOut
      rewriter).run.run shop =
        (.ok summary', shop') ↔
      ∃ content bytes, shop.disk.kind? (top ++ below) = some (.file content) ∧
        FileStep rewriter (Text.join "/" below) content shop.bench summary bytes
          shop'.bench summary' ∧
        shop.disk.Open (disk.wayTo destination below) (top ++ below) ∧
        shop.disk.Placed shop'.disk (disk.wayTo destination below) (top ++ below) bytes := by
  have origin := here.origins below (List.mem_cons_self ..)
  have target := here.targets below (List.mem_cons_self ..)
  obtain ⟨content, held⟩ := origin.content
  rw [rewriteFile_here_iff keeps here.rooted origin target held, Disk.wayTo_keep here.workPlace]
  constructor
  · rintro ⟨bytes, step, put⟩
    exact ⟨content, bytes, held, step, put⟩
  · rintro ⟨_, bytes, again, step, put⟩
    cases held.symm.trans again
    exact ⟨bytes, step, put⟩

private theorem next {bytes : Bytes} (here : Here disk source destination top (below :: files) now)
    (placed : now.Placed now' (disk.wayTo destination below) (top ++ below) bytes) :
    Here disk source destination top files now' := by
  have target := here.targets below (List.mem_cons_self ..)
  obtain ⟨content, held⟩ := target.content
  rw [← Disk.wayTo_keep here.workPlace] at placed
  have alike := (target.updated_of_placed here.rooted placed).alike held
  exact {
    rooted := here.rooted.keep alike.keeps
    workPlace := alike.workPlace.trans here.workPlace
    origins := fun later member =>
    (here.origins later (List.mem_cons_of_mem below member)).alike alike
    targets := fun later member =>
    (here.targets later (List.mem_cons_of_mem below member)).alike alike }

private theorem passed_iff (keeps : rewriter.KeepsOthers)
    (here : Here disk source destination top files shop.disk) :
    ((files.foldlM (fun summary below =>
        rewriteFile source destination true summary (Scan.pathTo source below))
          summary).carryOut rewriter).run.run
          shop = (.ok summary', shop') ↔
      ∃ written, Passed rewriter top top (disk.wayTo destination) files shop summary
        written shop' summary' :=
  ClassTree.passed_iff (fun here => here.step_iff keeps) (fun here _ => here.next) here

end Here

private theorem sameDirectory_of_resolve (resolved : disk.resolve source = .ok top)
    (resolved' : disk.resolve destination = .ok top) :
    sameDirectory disk source destination = true := by
  unfold sameDirectory samePlace Disk.canonical?
  simp [resolved, resolved', Except.toOption]

/-- Nothing below a directory is aimed at from a place apart from it. -/
theorem append_ne_append {one other : Place} (outside : ¬ one <+: other) (around : ¬ other <+: one)
    (below later : Place) : other ++ below ≠ one ++ later := by
  intro same
  rcases List.prefix_or_prefix_of_prefix (List.prefix_append one later)
    (same ▸ List.prefix_append other below) with
    inside | inside
  · exact outside inside
  · exact around inside

/-- The files of a tree are all passed, in place or to a place apart. -/
theorem passed_iff_of_fits (keeps : rewriter.KeepsOthers) (rooted : shop.disk.Rooted)
    (spelled : shop.disk.Spelled) (resolved : shop.disk.resolve source = .ok top)
    (fits : Fits shop.disk destination top) :
    (rewrite source destination rewriter).run.run shop = (.ok summary, shop') ↔
      ∃ written, Passed rewriter top (shop.disk.aim destination) (shop.disk.wayTo destination)
        (filesBelow shop.disk top) shop {} written shop' summary := by
  obtain rfl := Disk.aim_of_resolve resolved
  by_cases none : filesBelow shop.disk (shop.disk.aim source) = []
  · rw [rewrite, run_course_of_no_files fun _ => none, none]
    constructor
    · intro run
      cases run
      exact ⟨[], .nil⟩
    · rintro ⟨_, passed⟩
      cases passed
      rfl
  · have directory := kind?_of_filesBelow none
    obtain ⟨listing, here⟩ := Disk.at?_eq_directory_iff.mpr directory
    have origins :=
      fun below => @fileOf_of_mem shop.disk (shop.disk.aim source) below source spelled resolved
    rw [rewrite, run_course_of_files resolved here]
    rcases fits with found | ⟨outside, around⟩
    · have targets :=
        fun below => @fileOf_of_mem shop.disk (shop.disk.aim source) below destination spelled found
      have start : Here shop.disk source destination (shop.disk.aim source)
          (filesBelow shop.disk (shop.disk.aim source)) shop.disk := ⟨rooted, rfl, origins, targets⟩
      rw [sameDirectory_of_resolve resolved found, Disk.aim_of_resolve found]
      exact start.passed_iff keeps
    · have elsewhere : Elsewhere shop.disk source destination := by
        rintro place member ⟨later, -, -, rfl⟩
        obtain ⟨below, -, same⟩ := List.mem_map.mp member
        exact append_ne_append outside around below later same
      obtain ⟨below, member⟩ := List.exists_mem_of_ne_nil _ none
      rw [sameDirectory_of_elsewhere elsewhere member]
      exact (pending_filesBelow rooted (fun below member =>
        (origins below member).named) resolved directory
        elsewhere).passed_iff

namespace Passed

theorem keeps (passed : Passed rewriter top goal ways files shop summary written shop' summary') :
    shop.disk.Keeps shop'.disk := by
  induction passed with
  | nil => exact .refl _
  | cons _ _ open_ placed _ ih => exact (placed.keeps open_).trans ih

/-- All directories on the ways to the files are there in the end. -/
theorem directory
    (passed : Passed rewriter top goal ways files shop summary written shop' summary') :
    ∀ below ∈ files, ∀ stop ∈ ways below, shop'.disk.kind? stop = some .directory := by
  induction passed with
  | nil => exact nofun
  | cons _ _ open_ placed rest ih =>
    rw [List.forall_mem_cons]
    exact ⟨fun stop member =>
      rest.keeps.directory stop (placed.above_directory open_ stop member), ih⟩

/-- Only the places of the files change, and missing directories are made on the ways to them. -/
theorem others (passed : Passed rewriter top goal ways files shop summary written shop' summary')
    (other : place ∉ files.map (goal ++ ·)) :
    shop'.disk.kind? place = shop.disk.kind? place ∨
      shop.disk.kind? place = none ∧ shop'.disk.kind? place = some .directory ∧ ∃ below ∈ files,
      place ∈ ways below := by
  induction passed with
  | nil => exact .inl rfl
  | @cons below files _ _ _ _ _ _ shop middle shop' _ _ open_ placed rest ih =>
    rw [List.map_cons, List.mem_cons, not_or] at other
    have first : middle.disk.kind? place = shop.disk.kind? place ∨
        shop.disk.kind? place = none ∧ middle.disk.kind? place = some .directory ∧
        place ∈ ways below := by
      rw [placed.kinds, if_neg other.1]
      split
      · rename_i member
        cases before : shop.disk.kind? place with
        | none => exact .inr ⟨rfl, rfl, member⟩
        | some kind => cases kind with
          | directory => exact .inl rfl
          | file bytes => exact absurd before (open_.clear place member bytes)
      · exact .inl rfl
    rcases first with same | ⟨absent, made, member⟩
    · rcases ih other.2 with same' | ⟨absent, made, later, held, member⟩
      · exact .inl (same'.trans same)
      · exact .inr ⟨same ▸ absent, made, later, List.mem_cons_of_mem below held, member⟩
    · exact .inr ⟨absent, rest.keeps.directory place made, below, List.mem_cons_self .., member⟩

/-- Where only hidden files are different, all goes the same way. -/
theorem hide {hidden : Place → Prop} {other : Disk}
    (passed : Passed rewriter top goal ways files shop summary written shop' summary')
    (same : shop.disk.SameBut hidden other) (visible : ∀ below ∈ files, ¬ hidden (top ++ below))
    (room : ∀ below ∈ files, ∀ (disk : Disk) (bytes : Bytes), other.Keeps disk →
      disk.Open (ways below) (goal ++ below) →
      ∃ disk', disk.Placed disk' (ways below) (goal ++ below) bytes) :
    ∃ after, Passed rewriter top goal ways files ⟨other, shop.bench⟩ summary written ⟨after,
      shop'.bench⟩ summary' ∧
      shop'.disk.SameBut hidden after := by
  induction passed generalizing other with
  | nil => exact ⟨other, .nil, same⟩
  | @cons _ _ _ bytes _ _ _ _ _ _ _ held step open_ placed rest ih =>
    rw [List.forall_mem_cons] at visible room
    have open' := same.isOpen open_
    obtain ⟨next, placed'⟩ := room.1 other bytes (.refl other) open'
    have keeps := placed'.keeps open'
    obtain ⟨after, passed, same'⟩ := ih (same.placed placed placed') visible.2
      fun below member disk bytes later => room.2 below member disk bytes (keeps.trans later)
    have held' := (same.shown _ visible.1).trans held
    refine ⟨after, .cons held' ?_ open' placed' passed, same'⟩
    exact step

end Passed

/-- What is written for the files of a tree, given the answers for its classes: a class that was
transformed is as the rewriter has it, and everything else is as it was. -/
inductive Written (disk : Disk) (top : Place) :
    List Place → List Rewritten → List Bytes → Prop where
  | nil : Written disk top [] [] []
  | resource {below content files answers written} (held : disk.kind? (top ++ below) =
    some (.file content))
      (off : isOffered (Text.join "/" below) content.length = false)
        (rest : Written disk top files answers written) :
      Written disk top (below :: files) answers (content :: written)
  | kept {below content answer files answers written} (held : disk.kind? (top ++ below) =
    some (.file content))
      (on : isOffered (Text.join "/" below) content.length = true)
        (same : answer.transformed = false)
      (rest : Written disk top files answers written) :
      Written disk top (below :: files) (answer :: answers) (content :: written)
  | replaced {below content answer files answers written} (held : disk.kind? (top ++ below) =
    some (.file content))
      (on : isOffered (Text.join "/" below) content.length = true) (new : answer.transformed = true)
      (rest : Written disk top files answers written) :
      Written disk top (below :: files) (answer :: answers) (answer.bytes :: written)

private theorem written_of_taken (keeps : rewriter.KeepsOthers) {answers : List Rewritten}
    (taken : Taken disk top files answers written) {bench bench' : Bench σ}
    (answered : (offerAll rewriter (files.filterMap (class? disk top))).run.run bench =
      (.ok answers, bench')) :
    Written disk top files answers written := by
  induction taken generalizing bench with
  | nil => exact .nil
  | copied held off _ ih =>
    have own := class?_of_held held
    rw [off] at own
    rw [List.filterMap_cons_none own] at answered
    exact .resource held off (ih answered)
  | @offered _ _ answer _ _ _ held on _ ih =>
    have own := class?_of_held held
    rw [if_pos on] at own
    rw [List.filterMap_cons_some own] at answered
    obtain ⟨middle, first, later⟩ := offerAll_cons_ok answered
    cases new : answer.transformed with
    | true => exact .replaced held on new (ih later)
    | false =>
      rw [keeps first new]
      exact .kept held on new (ih later)

/-- Nothing became of a place, but for a directory that was missing on the way to a file. -/
def Stays (disk disk' : Disk) (source destination : Path) (place : Place) : Prop :=
  disk'.kind? place = disk.kind? place ∨
    disk.kind? place = none ∧ disk'.kind? place = some .directory ∧
      ∃ below ∈ filesBelow disk (disk.aim source), place ∈ disk.wayTo destination below

/-- A tree after it was rewritten to a destination, with all that became of it. -/
structure Mirrored (rewriter : Rewriter σ) (source destination : Path) (shop : Workshop σ)
    (summary : Summary) (shop' : Workshop σ) (answers : List Rewritten) (written : List Bytes) :
    Prop where
  answered : (offerAll rewriter (classes shop.disk (shop.disk.aim source))).run.run shop.bench =
    (.ok answers, shop'.bench)
  mirrors : Written shop.disk (shop.disk.aim source)
    (filesBelow shop.disk (shop.disk.aim source)) answers written
  lies : List.Forall₂ (fun below bytes =>
    shop'.disk.kind? (shop.disk.aim destination ++ below) = some (.file bytes))
    (filesBelow shop.disk (shop.disk.aim source)) written
  read : ∀ below ∈ filesBelow shop.disk (shop.disk.aim source), ∀ bytes,
    shop'.disk.kind? (shop.disk.aim destination ++ below) = some (.file bytes) →
      shop'.disk.read (destination.join ⟨(Scan.pathTo source below).relativeTo source⟩) = .ok bytes
  others : ∀ place ∉ goals shop.disk source destination,
    Stays shop.disk shop'.disk source destination place
  separate : shop.disk.aim destination ≠ shop.disk.aim source →
    ∀ below, Stays shop.disk shop'.disk source destination (shop.disk.aim source ++ below)
  names : ((filesBelow shop.disk (shop.disk.aim source)).map fun below =>
    (Scan.pathTo source below).relativeTo source).Nodup
  places : (goals shop.disk source destination).Nodup
  offered : summary.classes = (classes shop.disk (shop.disk.aim source)).length
  transformed : summary.transformed = (answers.filter Rewritten.transformed).length
  total : summary.transformed + summary.copied =
    (filesBelow shop.disk (shop.disk.aim source)).length

/-- Names that are joined can be told apart again. -/
theorem join_injOn {one other : Place} (inside : one ≠ []) (inside' : other ≠ [])
    (named : ∀ name ∈ one, IsName name) (named' : ∀ name ∈ other, IsName name)
    (same : Text.join "/" one = Text.join "/" other) : one = other := by
  rw [← segmentsOf_joined inside named, same, segmentsOf_joined inside' named']

/-- Distinct files of a tree have distinct names in it. -/
theorem nodup_relative (spelled : disk.Spelled) (resolved : disk.resolve source = .ok top) :
    ((filesBelow disk top).map fun below =>
    (Scan.pathTo source below).relativeTo source).Nodup := by
  refine (increasing_filesBelow disk top).nodup.map_on fun one member other member' same => ?_
  have fileOf := fileOf_of_mem spelled resolved member
  have fileOf' := fileOf_of_mem spelled resolved member'
  rw [fileOf.relative, fileOf'.relative] at same
  exact join_injOn fileOf.inside fileOf'.inside fileOf.named fileOf'.named same

private theorem nodup_goals (disk : Disk) (source destination : Path) :
    (goals disk source destination).Nodup :=
  (increasing_filesBelow disk (disk.aim source)).nodup.map fun _ _ => List.append_cancel_left

namespace Fits

/-- No file is written to where one is read later. -/
theorem apart (fits : Fits disk destination top) :
    (filesBelow disk top).Pairwise fun below later =>
    disk.aim destination ++ below ≠ top ++ later := by
  have increasing := increasing_filesBelow disk top
  rcases fits with found | ⟨outside, around⟩
  · rw [Disk.aim_of_resolve found]
    exact increasing.nodup.imp fun different same => different (List.append_cancel_left same)
  · exact increasing.imp fun _ => append_ne_append outside around _ _

private theorem not_mem_goals (fits : Fits disk destination (disk.aim source))
    (separate : disk.aim destination ≠ disk.aim source) (below : Place) :
    disk.aim source ++ below ∉ goals disk source destination := by
  intro member
  obtain ⟨later, -, same⟩ := List.mem_map.mp member
  rcases fits with found | ⟨outside, around⟩
  · exact separate (Disk.aim_of_resolve found)
  · exact append_ne_append outside around later below same

end Fits

private theorem mirrored_of_passed (keeps : rewriter.KeepsOthers) (rooted : shop.disk.Rooted)
    (spelled : shop.disk.Spelled) (resolved : shop.disk.resolve source = .ok (shop.disk.aim source))
    (fits : Fits shop.disk destination (shop.disk.aim source))
    (passed : Passed rewriter (shop.disk.aim source) (shop.disk.aim destination)
      (shop.disk.wayTo destination) (filesBelow shop.disk (shop.disk.aim source)) shop
        {} written shop' summary) :
    ∃ answers, Mirrored rewriter source destination shop summary shop' answers written := by
  have held : ∀ below ∈ filesBelow shop.disk (shop.disk.aim source), ∃ content,
      shop.disk.kind? (shop.disk.aim source ++ below) = some (.file content) ∧
        shop.disk.kind? (shop.disk.aim source ++ below) = some (.file content) := by
    intro below member
    obtain ⟨-, -, content, file⟩ := mem_filesBelow_iff.mp member
    exact ⟨content, file, file⟩
  have distinct := (increasing_filesBelow shop.disk (shop.disk.aim source)).nodup
  obtain ⟨answers, takenOver⟩ := takenOver_of_passed distinct rfl held fits.apart passed
  have read : ∀ below ∈ filesBelow shop.disk (shop.disk.aim source), ∀ bytes,
      shop'.disk.kind? (shop.disk.aim destination ++ below) = some (.file bytes) →
        shop'.disk.read (destination.join ⟨(Scan.pathTo source below).relativeTo source⟩) =
          .ok bytes := by
    intro below member bytes file
    have fileOf := fileOf_of_mem spelled resolved member
    have aims := Disk.aims_join shop'.disk destination fileOf.inside fileOf.named
    rw [Disk.aim_keep takenOver.workPlace, Disk.wayTo_keep takenOver.workPlace] at aims
    rw [fileOf.relative]
    exact (aims.lands (rooted.keep passed.keeps) (passed.directory below member)).read file
  exact ⟨answers, {
    answered := takenOver.answered
    mirrors := written_of_taken keeps takenOver.taken takenOver.answered
    lies := takenOver.lies
    read := read
    others := fun place other => passed.others other
    separate := fun separate below => passed.others (fits.not_mem_goals separate below)
    names := nodup_relative spelled resolved
    places := nodup_goals shop.disk source destination
    offered := takenOver.counted.classes.trans (Nat.zero_add _)
    transformed := takenOver.counted.transformed.trans (Nat.zero_add _)
    total := takenOver.counted.written.trans (Nat.zero_add _) }⟩

theorem not_hidden_of_kept (kept : ∀ name ∈ below, Scan.isExcluded name = false) :
    ¬ Hidden top (top ++ below) := by
  rintro ⟨below', same, name, member, excluded⟩
  cases List.append_cancel_left same
  rw [kept name member] at excluded
  cases excluded

private theorem filesBelow_of_sameBut {other : Disk} (same : shop.disk.SameBut (Hidden top) other) :
    filesBelow other top = filesBelow shop.disk top := by
  apply filesBelow_congr
  refine ⟨same.alike.workPlace, ?_⟩
  rintro _ ⟨below, -, kept, rfl⟩ content
  rw [same.shown _ (not_hidden_of_kept kept)]

theorem Fits.keep {other : Disk} (fits : Fits disk destination top) (keeps : disk.Keeps other)
    (directory : disk.kind? top = some .directory) : Fits other destination top := by
  rcases fits with found | apart
  · exact .inl (Disk.resolve_keep keeps found directory)
  · exact .inr (by rwa [Disk.aim_keep keeps.workPlace])

/-- Rewriting a tree in place, or to a place apart from it, writes exactly the files that it read.
What is in excluded files makes no difference to it, and they stay as they are. -/
theorem rewrite_mirrors (keeps : rewriter.KeepsOthers) (rooted : shop.disk.Rooted)
    (spelled : shop.disk.Spelled) (resolved : shop.disk.resolve source = .ok top)
    (directory : shop.disk.kind? top = some .directory) (fits : Fits shop.disk destination top)
    (run : (rewrite source destination rewriter).run.run shop = (.ok summary, shop')) :
    (∃ answers written, Mirrored rewriter source destination shop summary shop' answers written) ∧
    ∀ other, shop.disk.SameBut (Hidden top) other → ∃ after,
      (rewrite source destination rewriter).run.run ⟨other, shop.bench⟩ =
        (.ok summary, ⟨after, shop'.bench⟩) ∧
        shop'.disk.SameBut (Hidden top) after := by
  obtain ⟨written, passed⟩ := (passed_iff_of_fits keeps rooted spelled resolved fits).mp run
  refine ⟨?_, fun other same => ?_⟩
  · obtain rfl := Disk.aim_of_resolve resolved
    obtain ⟨answers, mirrored⟩ := mirrored_of_passed keeps rooted spelled resolved fits passed
    exact ⟨answers, written, mirrored⟩
  · have rooted' := rooted.keep same.alike.keeps
    have resolved' := Disk.resolve_keep same.alike.keeps resolved directory
    have visible : ∀ below ∈ filesBelow shop.disk top, ¬ Hidden top (top ++ below) :=
      fun below member =>
      not_hidden_of_kept (mem_filesBelow_iff.mp member).2.1
    have room : ∀ below ∈ filesBelow shop.disk top,
        ∀ (disk : Disk) (bytes : Bytes), other.Keeps disk →
        disk.Open (shop.disk.wayTo destination below) (shop.disk.aim destination ++ below) →
          ∃ disk', disk.Placed disk' (shop.disk.wayTo destination below)
            (shop.disk.aim destination ++ below) bytes := by
      intro below member disk bytes later open_
      have fileOf := fileOf_of_mem spelled resolved member
      have home := later.workPlace.trans same.alike.workPlace
      have aims := Disk.aims_join disk destination fileOf.inside fileOf.named
      rw [Disk.aim_keep home, Disk.wayTo_keep home] at aims
      obtain ⟨disk', -, placed⟩ := (puts_writeClass (rooted'.keep later) aims bytes).opened open_
      exact ⟨disk', placed⟩
    obtain ⟨after, passed', same'⟩ := passed.hide same visible room
    have ways : other.wayTo destination = shop.disk.wayTo destination :=
      funext (Disk.wayTo_keep same.alike.workPlace destination)
    refine ⟨after, ?_, same'⟩
    refine (passed_iff_of_fits keeps rooted' (same.alike.spelled spelled) resolved'
      (fits.keep same.alike.keeps directory)).mpr ⟨written, ?_⟩
    rwa [filesBelow_of_sameBut same, Disk.aim_keep same.alike.workPlace, ways]

/-! A class, a resource and an excluded file. -/

private def shelf : Workshop Nat where
  disk := { root := .directory "classes"
              (.file ".DS_Store" [9]
                (.file "A.class" (.replicate 9 1) (.file "readme.txt" [1] .empty))) .empty
            ordered := by
              refine ⟨by simp [Listing.names], ⟨?_, ?_, by simp [Listing.names], trivial⟩, trivial⟩
              · exact List.forall_mem_cons.mpr
                  ⟨by decide, List.forall_mem_singleton.mpr (by decide)⟩
              · exact List.forall_mem_singleton.mpr (by decide)
            workPlace := [] }
  bench := ⟨.empty, 0⟩

theorem rewrite_mirrors_of_two :
    ∃ shop', (rewrite ⟨"classes"⟩ ⟨"./classes/"⟩ (Marking.rewriter {})).run.run shelf =
        (.ok { classes := 1, transformed := 1, copied := 1 }, shop') ∧
      (∃ answers written, Mirrored (Marking.rewriter {}) ⟨"classes"⟩ ⟨"./classes/"⟩ shelf
        { classes := 1, transformed := 1, copied := 1 } shop' answers written) ∧
      ∀ other, shelf.disk.SameBut (Hidden ["classes"]) other → ∃ after,
        (rewrite ⟨"classes"⟩ ⟨"./classes/"⟩ (Marking.rewriter {})).run.run ⟨other, shelf.bench⟩ =
            (.ok { classes := 1, transformed := 1, copied := 1 }, ⟨after, shop'.bench⟩) ∧
          shop'.disk.SameBut (Hidden ["classes"]) after := by
  have ran : ((rewrite ⟨"classes"⟩ ⟨"./classes/"⟩ (Marking.rewriter {})).run.run shelf).1 =
      .ok { classes := 1, transformed := 1, copied := 1 } := by decide +kernel
  cases run : (rewrite ⟨"classes"⟩ ⟨"./classes/"⟩ (Marking.rewriter {})).run.run shelf with
  | mk result shop' =>
    rw [run] at ran
    cases ran
    exact ⟨shop', rfl, rewrite_mirrors (Marking.keepsOthers {}) ⟨rfl, nofun⟩
      (Disk.spelled_of_root (by decide)) rfl rfl (.inl rfl) run⟩

/-- A destination that turns into the source while its directories are made is not known as the
source: what is copied to itself is emptied. -/
theorem rewrite_empties_resource :
    ∃ shop', (rewrite ⟨"classes"⟩ ⟨"new/../classes"⟩ (Marking.rewriter {})).run.run shelf =
        (.ok { classes := 1, transformed := 1, copied := 1 }, shop') ∧
      shop'.disk.resolve ⟨"new/../classes"⟩ = shop'.disk.resolve ⟨"classes"⟩ ∧
      shelf.disk.read ⟨"classes/readme.txt"⟩ = .ok [1] ∧
      shop'.disk.read ⟨"new/../classes/readme.txt"⟩ = .ok [] := by
  have ran : ((rewrite ⟨"classes"⟩ ⟨"new/../classes"⟩ (Marking.rewriter {})).run.run shelf).1 =
      .ok { classes := 1, transformed := 1, copied := 1 } := by decide +kernel
  exact ⟨_, Prod.ext ran rfl, by decide +kernel, by decide +kernel, by decide +kernel⟩

end ClassTree
end ClassCoverage
