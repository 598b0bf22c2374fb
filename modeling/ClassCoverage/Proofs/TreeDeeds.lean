import ClassCoverage.Proofs.Deeds
import ClassCoverage.Proofs.TreePaths
import ClassCoverage.Proofs.TreeScans

/-! What the rewriting of a tree of classes comes to. Every file below the source is taken to the
same names below the destination, and nothing but the files below the source is read. -/
namespace ClassCoverage.ClassTree
open ClassCoverage.Path

def doClass (plan : Plan) (disk : Disk) (destination : Path) (inPlace : Bool) (below : Place)
    (content : Bytes) :
    Doing Rewritten := do
  let rewritten ← Doing.offer plan (Text.join "/" below) content
  if rewritten.transformed || !inPlace then
    Doing.put (disk.wayTo destination below) (disk.aim destination ++ below) rewritten.bytes
  return rewritten

/-- A file that is copied to itself is emptied. -/
def copied (source destination : Place) (content : Bytes) :
    Bytes := if source = destination then [] else content

def doCopy (disk : Disk) (source destination : Path) (below : Place) : Doing Unit := do
  let content ← Doing.contentAt disk (disk.aim source ++ below)
  Doing.put (disk.wayTo destination below) (disk.aim destination ++ below)
    (copied (disk.aim source) (disk.aim destination) content)

def doFile (plan : Plan) (disk : Disk) (source destination : Path) (inPlace : Bool)
    (summary : Summary) (below : Place) : Doing Summary := do
  let held ← Doing.contentAt disk (disk.aim source ++ below)
  if isOffered (Text.join "/" below) held.length then
    let content ← Doing.contentAt disk (disk.aim source ++ below)
    let rewritten ← doClass plan disk destination inPlace below content
    let summary := { summary with classes := summary.classes + 1 }
    if rewritten.transformed then return { summary with transformed := summary.transformed + 1 }
    else return { summary with copied := summary.copied + 1 }
  else
    if !inPlace then doCopy disk source destination below
    return { summary with copied := summary.copied + 1 }

/-- What becomes of the files of a tree, on a disk that was like this at the start. -/
def doTree (plan : Plan) (disk : Disk) (source destination : Path) : Doing Summary :=
  (filesBelow disk (disk.aim source)).foldlM
    (doFile plan disk source destination (sameDirectory disk source destination)) {}

/-! Files that are put. -/

section
variable {disk : Disk} {target : Path} {place : Place} {above : List Place}

private theorem leads_prepareParent (rooted : disk.Rooted) (aims : disk.Aims target place above) :
    (disk.Clear above → ∃ made, (prepareParent target).Leads disk (.ok ()) made ∧
    disk.Extended made above) ∧
      (¬ disk.Clear above →
      ∃ failure disk', (prepareParent target).Leads disk (.error failure) disk') := by
  obtain ⟨parent, found, tidy, same⟩ := aims.parent
  have opened : prepareParent target =
      Course.change "create output directory" parent (·.makeDirectories parent) := by
    unfold prepareParent
    rw [found]
  rw [opened, ← same]
  constructor
  · intro clear
    obtain ⟨made, makes, extended⟩ := Disk.makeDirectories_of_clear rooted tidy clear
    exact ⟨made, .change makes, extended⟩
  · intro blocked
    cases makes : disk.makeDirectories parent with
    | ok made => exact absurd (Disk.clear_of_makeDirectories rooted tidy makes) blocked
    | error fault => exact ⟨_, disk, .refuse makes⟩

/-- A file is put by preparing its directory and then writing it. -/
theorem puts_of_rest {content : Bytes} {rest : Course Unit} (rooted : disk.Rooted)
    (aims : disk.Aims target place above)
    (writes : ∀ made, disk.Open above place → disk.Extended made above → made.Lands target place →
      ∃ disk', rest.Leads made (.ok ()) disk' ∧ made.Updated disk' place (some (.file content)))
    (fails : ∀ made, disk.Clear above → disk.Extended made above →
      made.kind? place = some .directory →
      ∃ failure disk', rest.Leads made (.error failure) disk') :
    Puts (do prepareParent target; rest) disk above place content := by
  obtain ⟨prepares, blocks⟩ := leads_prepareParent rooted aims
  constructor
  · intro open_
    obtain ⟨made, prepared, extended⟩ := prepares open_.clear
    have lands :=
      (aims.keep extended.workPlace).lands (rooted.keep extended.keeps) extended.directory
    obtain ⟨disk', wrote, updated⟩ := writes made open_ extended lands
    exact ⟨disk', prepared.bind wrote, extended.placed updated⟩
  · intro closed
    by_cases clear : disk.Clear above
    · obtain ⟨made, prepared, extended⟩ := prepares clear
      have directory : made.kind? place = some .directory := by
        rw [extended.kinds]
        by_contra free
        apply closed
        by_cases way : place ∈ above
        · rw [if_pos way] at free
          exact absurd rfl free
        · rw [if_neg way] at free
          exact ⟨clear, free, way⟩
      obtain ⟨failure, disk', stopped⟩ := fails made clear extended directory
      exact ⟨failure, disk', prepared.bind stopped⟩
    · obtain ⟨failure, disk', stopped⟩ := blocks clear
      exact ⟨failure, disk', stopped.stop⟩

theorem leads_write_of_directory {made : Disk} (aims : made.Aims target place above)
    (rooted : made.Rooted) (directory : made.kind? place = some .directory) (operation : String)
    (content : Bytes) :
    ∃ failure, (Course.change operation target (·.write target content)).Leads made
      (.error failure) made := by
  cases wrote : made.write target content with
  | error fault => exact ⟨_, .refuse wrote⟩
  | ok disk' =>
    obtain ⟨other, lands, free, -⟩ := Disk.lands_of_write wrote
    obtain ⟨above', aims', -⟩ := lands.aims rooted
    obtain ⟨rfl, -⟩ := aims.unique aims'
    exact absurd directory free

theorem puts_writeClass (rooted : disk.Rooted) (aims : disk.Aims target place above)
    (content : Bytes) :
    Puts (writeClass target content) disk above place content := by
  apply puts_of_rest rooted aims
  · intro made open_ extended lands
    exact lands.leads_write (rooted.keep extended.keeps) (open_.extended extended)
      "write class file" content
  · intro made _ extended directory
    obtain ⟨failure, stopped⟩ := leads_write_of_directory (aims.keep extended.workPlace)
      (rooted.keep extended.keeps) directory "write class file" []
    exact ⟨failure, made, stopped.stop⟩

theorem puts_copyFile {file : Path} {origin : Place} {content : Bytes} (rooted : disk.Rooted)
    (aims : disk.Aims target place above) (lands : disk.Lands file origin)
    (held : disk.kind? origin = some (.file content)) :
    Puts (copyFile file target) disk above place (copied origin place content) := by
  have heldMade {made : Disk} (clear : disk.Clear above) (extended : disk.Extended made above) :
      made.kind? origin = some (.file content) := by
    rw [extended.kinds, if_neg fun way => clear origin way content held, held]
  apply puts_of_rest rooted aims
  · intro made open_ extended landsTarget
    have landsFile := lands.keep extended.keeps
    have rooted' := rooted.keep extended.keeps
    have free := open_.extended extended
    have emptied := landsTarget.written rooted' free []
    have heldEmptied : (made.putFile [] place).kind? origin =
        some (.file (copied origin place content)) := by
      unfold copied
      rw [emptied.kinds, heldMade open_.clear extended]
      split <;> rfl
    obtain ⟨filled, fills, updated⟩ :=
      emptied.fill landsTarget rooted' (copied origin place content)
    refine ⟨filled, ?_, updated⟩
    have looks := landsFile.read (heldMade open_.clear extended)
    refine Course.Leads.bind (.see looks)
      (Course.Leads.bind (.change (landsTarget.write free [])) (.change ?_))
    unfold fillFrom
    rw [(landsFile.keep emptied.keeps).read heldEmptied]
    exact fills
  · intro made clear extended directory
    obtain ⟨failure, stopped⟩ := leads_write_of_directory (aims.keep extended.workPlace)
      (rooted.keep extended.keeps) directory "copy file" []
    have looks := (lands.keep extended.keeps).read (heldMade clear extended)
    exact ⟨failure, made, Course.Leads.bind (.see looks) stopped.stop⟩

end

/-! One file. -/

section
variable {σ : Type} {origin : Workshop σ} {plan : Plan} {rewriter : Rewriter σ}
  {source destination : Path}
  {below : Place} {inPlace : Bool}

private theorem refines_rewriteClass (rooted : origin.disk.Rooted) (follows : rewriter.Follows plan)
    (inside : below ≠ []) (named : ∀ name ∈ below, IsName name) (content : Bytes) :
    Refines rewriter origin
      (rewriteClass inPlace (Text.join "/" below) (destination.join ⟨Text.join "/" below⟩) content)
      (doClass plan origin.disk destination inPlace below content) := by
  have aims := Disk.aims_join origin.disk destination inside named
  unfold rewriteClass doClass
  apply (Refines.ask follows _ content).bind
  intro rewritten
  split
  · apply Refines.bind _ fun _ => .pure rewritten
    apply Refines.put
    intro disk keeps
    exact puts_writeClass (rooted.keep keeps) (aims.keep keeps.workPlace) rewritten.bytes
  · exact (Refines.pure PUnit.unit).bind fun _ => .pure rewritten

private theorem refines_copyFile {file : Path} {content : Bytes} (rooted : origin.disk.Rooted)
    (inside : below ≠ []) (named : ∀ name ∈ below, IsName name)
    (lands : origin.disk.Lands file (origin.disk.aim source ++ below))
    (held : origin.disk.kind? (origin.disk.aim source ++ below) = some (.file content)) :
    Refines rewriter origin (copyFile file (destination.join ⟨Text.join "/" below⟩))
      (doCopy origin.disk source destination below) := by
  have aims := Disk.aims_join origin.disk destination inside named
  apply Refines.copy held
  intro disk keeps bytes now
  have same : copied (origin.disk.aim source ++ below)
      (origin.disk.aim destination ++ below) bytes =
      copied (origin.disk.aim source) (origin.disk.aim destination) bytes := by
    simp only [copied, List.append_left_inj]
  rw [← same]
  exact puts_copyFile (rooted.keep keeps) (aims.keep keeps.workPlace) (lands.keep keeps) now

/-- One file of a tree is rewritten as its deed says. -/
theorem refines_rewriteFile {file : Path} {content : Bytes} (rooted : origin.disk.Rooted)
    (follows : rewriter.Follows plan) (inside : below ≠ []) (named : ∀ name ∈ below, IsName name)
    (relative : file.relativeTo source = Text.join "/" below)
    (lands : origin.disk.Lands file (origin.disk.aim source ++ below))
    (held : origin.disk.kind? (origin.disk.aim source ++ below) = some (.file content))
    (summary : Summary) :
    Refines rewriter origin (rewriteFile source destination inPlace summary file)
      (doFile plan origin.disk source destination inPlace summary below) := by
  unfold rewriteFile doFile
  simp only [relative]
  apply Refines.see held _ fun disk keeps bytes now => (lands.keep keeps).size now
  intro bytes
  split
  · apply Refines.see held _ fun disk keeps bytes now => (lands.keep keeps).read now
    intro bytes
    apply (refines_rewriteClass rooted follows inside named bytes).bind
    intro rewritten
    split <;> exact .pure _
  · split
    · apply Refines.bind _ fun _ => .pure _
      exact refines_copyFile rooted inside named lands held
    · exact (Refines.pure PUnit.unit).bind fun _ => .pure _

end

/-- A source with files is found under its path. -/
def Found (disk : Disk) (source : Path) : Prop :=
  filesBelow disk (disk.aim source) ≠ [] → disk.resolve source = .ok (disk.aim source)

section
variable {σ : Type} {origin : Workshop σ} {plan : Plan} {rewriter : Rewriter σ}
  {source destination : Path}

/-- A source without files is left alone, whether it is there or not. -/
theorem run_course_of_no_files (none : origin.disk.resolve source = .ok (origin.disk.aim source) →
      filesBelow origin.disk (origin.disk.aim source) = []) :
    ((course source destination).carryOut rewriter).run.run origin = (.ok {}, origin) := by
  unfold course
  rw [Course.run_bind, Course.run_disk]
  simp only
  cases directory : origin.disk.isDirectory source with
  | false => rfl
  | true =>
    obtain ⟨place, listing, resolved, found⟩ := Disk.resolve_of_isDirectory directory
    have aim := Disk.aim_of_resolve resolved
    have nothing := none (aim.symm ▸ resolved)
    rw [aim] at nothing
    have directory := Disk.at?_eq_directory_iff.mp ⟨listing, found⟩
    simp only [Bool.not_true, Bool.false_eq_true, ↓reduceIte]
    rw [Course.run_bind, Course.run_disk]
    simp only
    rw [Course.run_bind, Course.run_disk]
    simp only
    rw [Course.run_bind, (leads_scan source origin.disk).run_eq _ rfl,
      run_collectFiles resolved directory, nothing]
    rfl

theorem run_course_of_files {shop : Workshop σ} {top : Place} {listing : Listing}
    (resolved : shop.disk.resolve source = .ok top)
    (here : shop.disk.at? top = some (.directory listing)) :
    ((course source destination).carryOut rewriter).run.run shop =
      (((filesBelow shop.disk top).foldlM (fun summary below =>
        rewriteFile source destination (sameDirectory shop.disk source destination) summary
          (Scan.pathTo source below)) {}).carryOut rewriter).run.run shop := by
  have isDirectory : shop.disk.isDirectory source = true := by
    unfold Disk.isDirectory Disk.node?
    simp only [resolved, here]
  have directory := Disk.at?_eq_directory_iff.mp ⟨listing, here⟩
  unfold course
  rw [Course.run_bind, Course.run_disk]
  simp only [isDirectory, Bool.not_true, Bool.false_eq_true, ↓reduceIte]
  rw [Course.run_bind, Course.run_disk]
  simp only
  rw [Course.run_bind, Course.run_disk]
  simp only
  rw [Course.run_bind, (leads_scan source shop.disk).run_eq _ rfl,
    run_collectFiles resolved directory]
  simp only [List.foldlM_map]
  rfl

/-- The rewriting of a tree ends as its deed says. -/
theorem ends_course (rooted : origin.disk.Rooted) (follows : rewriter.Follows plan)
    (named : ∀ below ∈ filesBelow origin.disk (origin.disk.aim source), ∀ name ∈ below, IsName name)
    (found : Found origin.disk source) :
    Ends rewriter (course source destination) origin origin
      ((doTree plan origin.disk source destination).run {}) := by
  by_cases none : filesBelow origin.disk (origin.disk.aim source) = []
  · have nothing : (doTree plan origin.disk source destination).run {} = some ({}, {}) := by
      unfold doTree
      rw [none]
      rfl
    rw [nothing]
    exact .done (run_course_of_no_files fun _ => none) (.start origin)
  · have resolved := found none
    have directory := kind?_of_filesBelow none
    obtain ⟨listing, here⟩ := Disk.at?_eq_directory_iff.mpr directory
    apply Ends.of_run (run_course_of_files resolved here)
    apply Refines.ends _ (.start origin)
    apply Refines.foldlM
    intro below member summary
    obtain ⟨inside, -, content, file⟩ := mem_filesBelow_iff.mp member
    have own := named below member
    have lands := Scan.lands_pathTo resolved directory inside own file
    have relative := relativeTo_pathTo (Disk.spelling_of_resolve resolved) own
    exact refines_rewriteFile rooted follows inside own relative lands file summary

end

/-- The places below a directory that are looked at. -/
def Reached (top place : Place) : Prop :=
  ∃ below, below ≠ [] ∧ (∀ name ∈ below, Scan.isExcluded name = false) ∧ place = top ++ below

private theorem reached_iff {top place : Place} :
    Reached top place ↔ top <+: place ∧ place ≠ top ∧ ∀ name ∈ place.drop top.length,
    Scan.isExcluded name = false := by
  constructor
  · rintro ⟨below, inside, kept, rfl⟩
    refine ⟨List.prefix_append top below, ?_, ?_⟩
    · intro same
      exact inside (List.append_right_eq_self.mp same)
    · rw [List.drop_left]
      exact kept
  · rintro ⟨⟨below, rfl⟩, apart, kept⟩
    rw [List.drop_left] at kept
    refine ⟨below, ?_, kept, rfl⟩
    rintro rfl
    exact apart (List.append_nil top)

instance (top place : Place) : Decidable (Reached top place) := decidable_of_iff _ reached_iff.symm

theorem filesBelow_congr {disk disk' : Disk} {top : Place}
    (agree : Delta.Agree (Reached top) disk disk') :
    filesBelow disk' top = filesBelow disk top := by
  apply filesBelow_ext
  intro below
  rw [mem_filesBelow_iff, mem_filesBelow_iff]
  apply and_congr_right
  intro inside
  apply and_congr_right
  intro kept
  exact exists_congr (agree.files _ ⟨below, inside, kept, rfl⟩)

/-- The files that can be written. -/
def goals (disk : Disk) (source destination : Path) : List Place :=
  (filesBelow disk (disk.aim source)).map (disk.aim destination ++ ·)

theorem spreads_doFile (plan : Plan) (disk : Disk) (source destination : Path) (inPlace : Bool)
    (summary : Summary) {below : Place} {places : List Place}
    (goal : disk.aim destination ++ below ∈ places) :
    (doFile plan disk source destination inPlace summary below).Always (Deed.Spreads places) := by
  have puts (content : Bytes) :
      (Doing.put (disk.wayTo destination below) (disk.aim destination ++ below) content).Always
        (Deed.Spreads places) :=
    .put (Deed.Spreads.put goal _ content)
  have copies : (doCopy disk source destination below).Always (Deed.Spreads places) :=
    .bind (.contentAt disk _) fun _ => puts _
  have classes (content : Bytes) :
      (doClass plan disk destination inPlace below content).Always (Deed.Spreads places) := by
    refine .bind (Doing.spreads_offer _ plan _ content) fun rewritten => ?_
    split
    · exact .bind (puts _) fun _ => .pure _
    · exact .bind (.pure PUnit.unit) fun _ => .pure _
  refine .bind (.contentAt disk _) fun content => ?_
  split
  · refine .bind (.contentAt disk _) fun content => ?_
    refine .bind (classes content) fun rewritten => ?_
    split
    · exact .pure _
    · exact .pure _
  · split
    · exact .bind copies fun _ => .pure _
    · exact .bind (.pure PUnit.unit) fun _ => .pure _

theorem spreads_doTree (plan : Plan) (disk : Disk) (source destination : Path) :
    (doTree plan disk source destination).Always
      (Deed.Spreads (goals disk source destination)) := by
  apply Doing.Always.foldlM
  intro below member summary
  exact spreads_doFile plan disk source destination _ summary (List.mem_map_of_mem member)

private theorem grows_doFile (plan : Plan) (disk : Disk) (source destination : Path)
    (inPlace : Bool) (summary : Summary) (below : Place) :
    (doFile plan disk source destination inPlace summary below).Grows := by
  have puts (content : Bytes) :
      (Doing.put (disk.wayTo destination below) (disk.aim destination ++ below) content).Grows :=
    .put fun deed => .put deed _ _ content
  have classes (content : Bytes) : (doClass plan disk destination inPlace below content).Grows := by
    refine .bind (Doing.grows_offer plan _ content) fun rewritten => ?_
    split
    · exact .bind (puts _) fun _ => .pure _
    · exact .bind (.pure PUnit.unit) fun _ => .pure _
  refine .bind (.contentAt disk _) fun content => ?_
  split
  · refine .bind (.contentAt disk _) fun content => .bind (classes content) fun rewritten => ?_
    split <;> exact .pure _
  · split
    · exact .bind (.bind (.contentAt disk _) fun content => puts _) fun _ => .pure _
    · exact .bind (.pure PUnit.unit) fun _ => .pure _

private theorem leaves_doFile (plan : Plan) (disk : Disk) (source destination : Path)
    (summary : Summary) (below : Place) :
    (doFile plan disk source destination false summary below).Leaves (disk.wayTo destination below)
      (disk.aim destination ++ below) := by
  have puts (content : Bytes) :
      (Doing.put (disk.wayTo destination below) (disk.aim destination ++ below) content).Leaves
        (disk.wayTo destination below) (disk.aim destination ++ below) := .put _ _ content
  refine .later fun content => ?_
  split
  · refine .later fun content => .first (.later fun rewritten => ?_) fun rewritten => ?_
    · rw [if_pos (by simp)]
      exact (puts _).first fun _ => .pure _
    · split <;> exact .pure _
  · exact .first (.later fun content => puts _) fun _ => .pure _

/-- A tree that goes to another place leaves every file there. -/
theorem leaves_doTree (plan : Plan) {disk : Disk} {source destination : Path}
    (away : sameDirectory disk source destination = false) {below : Place}
    (member : below ∈ filesBelow disk (disk.aim source)) :
    (doTree plan disk source destination).Leaves (disk.wayTo destination below)
      (disk.aim destination ++ below) := by
  unfold doTree
  rw [away]
  exact .foldlM member (fun summary => leaves_doFile plan disk source destination summary below)
    (fun other _ summary => grows_doFile plan disk source destination false summary other) {}

/-- The class in a file, if it is offered as one. -/
def class? (disk : Disk) (top below : Place) : Option (String × Bytes) :=
  match disk.kind? (top ++ below) with
  | some (.file content) =>
    if isOffered (Text.join "/" below) content.length then some (Text.join "/" below, content)
      else none
  | _ => none

/-- The classes below a place. -/
def classes (disk : Disk) (top : Place) :
    List (String × Bytes) := (filesBelow disk top).filterMap (class? disk top)

/-- No file is written over before it is read: the tree is rewritten where it is, or to a place
where no file of it is looked for. -/
def Tidy (disk : Disk) (source destination : Path) : Prop :=
  disk.aim destination = disk.aim source ∨ ∀ place ∈ goals disk source destination,
    ¬ Reached (disk.aim source) place

section
variable {plan : Plan} {disk : Disk} {source destination : Path} {inPlace : Bool}
  {summary value : Summary}
  {deed more : Deed}

private theorem registers_doClass (below : Place) (content : Bytes) :
    (doClass plan disk destination inPlace below content).Registers
      (plan.recordsOf [(Text.join "/" below, content)]) := by
  apply (Doing.Registers.offer plan _ content).map
  intro rewritten
  split
  · exact (Doing.Registers.put _ _ _).map fun _ => .pure _
  · exact (Doing.Registers.pure PUnit.unit).map fun _ => .pure _

private theorem records_of_doFile {below : Place} {content : Bytes}
    (file : disk.kind? (disk.aim source ++ below) = some (.file content))
    (fresh : disk.aim source ++ below ∉ deed.delta.places)
    (made : (doFile plan disk source destination inPlace summary below).run deed =
      some (value, more)) :
    more.records = deed.records ++ plan.recordsOf (class? disk (disk.aim source) below).toList := by
  have copies : (doCopy disk source destination below).Registers [] :=
    .map (Doing.Always.contentAt disk _) fun _ => .put _ _ _
  -- The file is looked at twice, with nothing done in between.
  have now : (Doing.contentAt disk (disk.aim source ++ below)).run deed = some (content, deed) ∨
      (Doing.contentAt disk (disk.aim source ++ below)).run deed = none := by
    rw [Doing.run_contentAt, file, Delta.kind?, Delta.lookup_eq_none fresh]
    by_cases way : disk.aim source ++ below ∈ deed.delta.ways
    · simp only [if_pos way, or_true]
    · simp only [if_neg way, true_or]
  unfold doFile at made
  rw [StateT.run_bind] at made
  rcases now with now | now
  · rw [now] at made
    simp only [class?, file]
    simp only [Option.bind_eq_bind, Option.bind_some] at made
    split at made
    · rename_i offered
      rw [if_pos offered]
      rw [StateT.run_bind, now] at made
      simp only [Option.bind_eq_bind, Option.bind_some] at made
      refine Doing.Registers.map (registers_doClass below content) (fun rewritten =>
        ?_) deed value more made
      split
      · exact .pure _
      · exact .pure _
    · rename_i other
      rw [if_neg other]
      split at made
      · exact copies.map (fun _ => .pure _) deed value more made
      · exact (Doing.Registers.pure PUnit.unit).map (fun _ => .pure _) deed value more made
  · rw [now] at made
    cases made

private theorem records_of_files {files : List Place}
    (found : ∀ below ∈ files, ∃ content, disk.kind? (disk.aim source ++ below) =
      some (.file content))
    (apart : files.Pairwise fun below later => disk.aim destination ++ below ≠ disk.aim source ++
      later) (fresh : ∀ below ∈ files, disk.aim source ++ below ∉ deed.delta.places)
    (made : (files.foldlM (doFile plan disk source destination inPlace) summary).run deed =
      some (value, more)) :
    more.records = deed.records ++
      plan.recordsOf (files.filterMap (class? disk (disk.aim source))) := by
  induction files generalizing summary deed with
  | nil =>
    cases made
    exact (List.append_nil _).symm
  | cons below files ih =>
    rw [List.forall_mem_cons] at found fresh
    obtain ⟨apart, others⟩ := List.pairwise_cons.mp apart
    obtain ⟨content, file⟩ := found.1
    rw [List.foldlM_cons] at made
    obtain ⟨next, middle, first, rest⟩ := Doing.run_bind_some made
    have own := records_of_doFile file fresh.1 first
    -- The file that was written is none of those that are left to read.
    have spread := spreads_doFile plan disk source destination inPlace summary
      (List.mem_singleton_self (disk.aim destination ++ below)) deed next middle first
    have later : ∀ later ∈ files, disk.aim source ++ later ∉ middle.delta.places := by
      intro later member written
      rcases spread _ written with early | now
      · exact fresh.2 later member early
      · exact apart later member (List.mem_singleton.mp now).symm
    rw [ih found.2 others later rest, own, Plan.recordsOf_filterMap_cons, List.append_assoc]

/-- The records of a tree are those of its classes. -/
theorem records_of_doTree (tidy : Tidy disk source destination)
    (made : (doTree plan disk source destination).run {} = some (value, more)) :
    more.records = plan.recordsOf (classes disk (disk.aim source)) := by
  have apart : (filesBelow disk (disk.aim source)).Pairwise
      fun below later => disk.aim destination ++ below ≠ disk.aim source ++ later := by
    apply (increasing_filesBelow disk (disk.aim source)).imp_of_mem
    intro below later member member' less same
    rcases tidy with here | elsewhere
    · rw [here] at same
      rw [List.append_cancel_left same] at less
      exact List.lt_irrefl _ less
    · obtain ⟨inside, kept, -⟩ := mem_filesBelow_iff.mp member'
      exact elsewhere _ (List.mem_map_of_mem member) ⟨later, inside, kept, same⟩
  have found : ∀ below ∈ filesBelow disk (disk.aim source),
      ∃ content, disk.kind? (disk.aim source ++ below) = some (.file content) := by
    intro below member
    exact (mem_filesBelow_iff.mp member).2.2
  have fresh : ∀ below ∈ filesBelow disk (disk.aim source), disk.aim source ++
      below ∉ ({} : Deed).delta.places := by
    intro below _ written
    cases written
  unfold doTree at made
  have joined := records_of_files found apart fresh made
  rwa [List.nil_append] at joined

end

end ClassCoverage.ClassTree
