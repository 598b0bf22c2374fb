import ClassCoverage.Proofs.CrewPacts
import ClassCoverage.Proofs.MirroredArchives
import ClassCoverage.Proofs.MirroredTrees
import ClassCoverage.Proofs.TargetDeeds

/-! Targets that are served by a crew. If the targets are not in each other's way, every one of them
is rewritten as it would be rewritten by itself, on the disk that was there at the start. -/
namespace ClassCoverage
namespace Target

instance : Nonempty Target := ⟨.archive ⟨""⟩⟩

/-- Who may do what where, when targets are rewritten side by side. -/
def realm (output? : Option Path) (disk : Disk) (targets : List Target) : Realm Target where
  origin := disk
  area target place :=
    target ∈ targets ∧ (place ∈ target.goals output? disk ∨ target.Loose disk place)
  loose target place := target ∈ targets ∧ target.Loose disk place
  ways target place := target ∈ targets ∧ place ∈ target.ways output? disk

/-- A target that can be rewritten on a shared disk as on its own one. A directory that is not
found, or in which no files are found, is left alone. -/
inductive Hosted (realm : Realm Target) (output? : Option Path) : Target → Prop where
  | archive {path : Path} (hosted : Archive.Hosted realm (.archive path) path) :
    Hosted realm output? (.archive path)
  | tree {path : Path} (hosted : ClassTree.Hosted realm (.directory path) path (output?.getD path))
      (some : ClassTree.filesBelow realm.origin (realm.origin.aim path) ≠ []) :
      Hosted realm output? (.directory path)
  | nothing {path : Path} (none : ∀ parts disk, realm.Shared parts disk →
    parts (.directory path) = realm.origin →
      disk.resolve path = .ok (disk.aim path) → ClassTree.filesBelow disk (disk.aim path) = []) :
      Hosted realm output? (.directory path)

section
variable {output? : Option Path} {disk : Disk} {targets : List Target}
  {target other : Target} {place : Place}
  {blocked : Prop}

theorem separate_of_ne (separate : targets.Pairwise (Separate output? disk))
    (member : target ∈ targets) (member' : other ∈ targets) (different : target ≠ other) :
    Separate output? disk target other :=
  separate.forall member member' different

/-- Files of two targets never come and go at the same place. -/
theorem Separate.loose (separate : Separate output? disk target other)
    (own : target.Loose disk place) :
    ¬ other.Loose disk place := by
  intro theirs
  obtain ⟨notTheirs, -⟩ := separate.aside place own
  obtain ⟨notOwn, -⟩ := separate.asideBack place theirs
  cases target with
  | directory path => exact own
  | archive path =>
    cases other with
    | directory path => exact theirs
    | archive path' =>
      have copy := own.resolve_left fun same => notOwn (List.mem_singleton.mpr same)
      have copy' := theirs.resolve_left fun same => notTheirs (List.mem_singleton.mpr same)
      exact separate.writes _ (List.mem_singleton.mpr rfl)
        (List.mem_singleton.mpr (copy.unique copy'))

/-- Separate targets can be rewritten side by side, where no directory that is made for one of them
is in the way of another one. -/
theorem fair_realm (separate : targets.Pairwise (Separate output? disk))
    (clash : ∀ target ∈ targets, ∀ other ∈ targets, ∀ place ∈ target.goals output? disk,
      place ∈ other.ways output? disk → disk.kind? place = some .directory ∨ blocked) :
    (realm output? disk targets).Fair blocked where
  apart := by
    rintro target other place different ⟨member, own⟩ ⟨member', theirs⟩
    have separate := separate_of_ne separate member member' different
    rcases own with goal | loose <;> rcases theirs with goal' | loose'
    · exact separate.writes place goal goal'
    · exact (separate.asideBack place loose').1 goal
    · exact (separate.aside place loose).1 goal'
    · exact separate.loose loose loose'
  firm := by
    rintro target other place different ⟨member, loose⟩ ⟨member', way⟩
    exact ((separate_of_ne separate member member' different).aside place loose).2.2 way
  clash := by
    rintro target other place different ⟨member, own⟩ ⟨member', way⟩
    rcases own with goal | loose
    · exact clash target member other member' place goal way
    · exact .inl (((separate_of_ne separate member member' different).aside place loose).2.2 way)

/-- What a target reads nobody else writes. -/
theorem visible_of_reads (separate : targets.Pairwise (Separate output? disk))
    (member : target ∈ targets) (reads : target.Reads disk place) :
    (realm output? disk targets).Visible target place := by
  rintro other different ⟨member', theirs⟩
  have separate := separate_of_ne separate member' member different
  rcases theirs with goal | loose
  · exact separate.forth place goal reads
  · exact (separate.aside place loose).2.1 reads

/-- The files that a target reads stay as they are while others are rewritten. -/
theorem agree_of_shared (separate : targets.Pairwise (Separate output? disk))
    (member : target ∈ targets) {parts : Target → Disk} {shared : Disk}
    (holds : (realm output? disk targets).Shared parts shared) (fresh : parts target = disk) :
    Delta.Agree (target.Reads disk) disk shared where
  workPlace := holds.workPlace
  files place reads content := by
    rw [holds.file_iff (visible_of_reads separate member reads), fresh]

/-- Others make no directory, if the output directory leads to the tree: their files would be among
those of the tree. -/
theorem keeps_back_of_shared {path output : Path}
    (separate : targets.Pairwise (Separate (some output) disk)) (member : .directory path ∈ targets)
    (same : disk.aim output = disk.aim path) {parts : Target → Disk} {shared : Disk}
    (holds : (realm (some output) disk targets).Shared parts shared)
    (fresh : parts (.directory path) = disk) : shared.Keeps disk where
  workPlace := holds.workPlace.symm
  directory place found := by
    obtain ⟨other, found⟩ := (holds.directory place).mp found
    by_cases own : other = .directory path
    · rwa [own, fresh] at found
    · refine ((holds.each other).made place found).elim id ?_
      rintro ⟨member', way⟩
      have separate := separate_of_ne separate member' member own
      cases other with
      | archive _ => cases way
      | directory source =>
        obtain ⟨below, file, -⟩ := List.mem_flatMap.mp way
        obtain ⟨inside, kept, -⟩ := ClassTree.mem_filesBelow_iff.mp file
        have goal : disk.aim output ++ below ∈ Target.goals (some output) disk
            (.directory source) :=
          List.mem_map_of_mem file
        exact absurd ⟨below, inside, kept, congrArg (· ++ below) same⟩ (separate.forth _ goal)

/-- Targets that are ready and separate can be rewritten side by side. -/
theorem hosted_of_ready (rooted : disk.Rooted) (separate : targets.Pairwise (Separate output? disk))
    (member : target ∈ targets) (ready : target.Ready disk) :
    target.Hosted (realm output? disk targets) output? := by
  cases ready with
  | archive file =>
    exact .archive ⟨rooted, file, ⟨member, .inr (.inl rfl)⟩, ⟨member, .inl rfl⟩, fun place copy =>
      ⟨member, .inr (.inr copy)⟩, fun place copy => ⟨member, .inr copy⟩⟩
  | @directory path found named =>
    by_cases none : ClassTree.filesBelow disk (disk.aim path) = []
    · refine .nothing fun parts shared holds fresh _ => ?_
      have agree := agree_of_shared separate member holds fresh
      rw [Disk.aim_keep agree.workPlace]
      exact (ClassTree.filesBelow_congr agree).trans none
    · refine .tree ⟨rooted, found, named, ?seen, ?solid, ?goals, ?ways, ?inPlace⟩ none
      case inPlace =>
        intro others shared holds some
        have fresh := Function.update_self (.directory path) disk others.1
        have keeps := (Realm.shared_of_pact holds).2.1
        have agree := agree_of_shared separate member holds.1 fresh
        apply ((Ready.directory found named).agree keeps agree ?_).inPlace path rfl some
        intro path' output same own aims
        cases same
        cases own
        exact keeps_back_of_shared separate member aims holds.1 fresh
      case seen => exact fun place reached => visible_of_reads separate member reached
      case solid => exact fun place loose => loose.2
      case goals => exact fun below file _ => ⟨member, .inl (List.mem_map_of_mem file)⟩
      case ways => exact fun below file way member' => .inl ⟨member,
        List.mem_flatMap.mpr ⟨below, file, member'⟩⟩

end

end Target

namespace Instrument
variable {σ : Type} {options : Options} {realm : Realm Target} {home : Target → Nat}
  {blocked : Prop}
  {rewriter : Rewriter σ} {fallback : σ} {target : Target} {store : Store}

/-! One target. -/

/-- What a worker knows: what became of its targets, each on a disk of its own, and what the shared
disk was like when the worker looked at it. -/
abbrev Part := (Target → Disk) × Disk

/-- The shared disk is put together from what became of the targets of all workers. -/
def Joint (realm : Realm Target) (home : Target → Nat) (parts : Nat → Part) (disk : Disk) : Prop :=
  realm.Shared (fun target => (parts (home target)).1 target) disk ∧ ∀ number,
    (parts number).2.Keeps disk

/-- What becomes of one target is all that changes. -/
theorem shared_update (target : Target) (own' : Disk) (own : Part) (parts : Nat → Part) :
    (fun other => (Function.update parts (home target) (Function.update own.1 target own', own.2)
      (home other)).1 other) =
      Function.update (fun other =>
      (Function.update parts (home target) own (home other)).1 other) target own' := by
  funext other
  by_cases same : other = target
  · subst same
    simp only [Function.update_self]
  · rw [Function.update_of_ne same]
    by_cases mate : home other = home target
    · simp only [mate, Function.update_self, Function.update_of_ne same]
    · simp only [Function.update_of_ne mate]

/-- What the shared disk is to one target of a worker. -/
theorem pact_of_joint {own : Part} {own' : Disk} {parts : Nat → Part} {disk : Disk}
    (holds : pactOf (Joint realm home) (home target) (Function.update own.1 target own', own.2)
      parts disk) :
    realm.pact target own'
      (fun other => (Function.update parts (home target) own (home other)).1 other, disk) disk := by
  have shared := holds.1
  rw [shared_update] at shared
  exact ⟨shared, .refl disk⟩

/-- What a course does on a disk of its own, it does for one target of a worker. -/
theorem upholds_of_mirrors {α : Type} {course : Course α} {own : Part}
    (mirrors : course.Mirrors rewriter fallback (realm.pact target) blocked realm.origin store)
    (fails : course.CanFail rewriter fallback realm.origin store → blocked)
    (fresh : own.1 target = realm.origin) :
    course.Upholds rewriter (pactOf (Joint realm home) (home target)) blocked
      (fun value own' store' => ∃ disk', own'.1 = Function.update own.1 target disk' ∧
        course.Privately rewriter fallback realm.origin store value disk' store') own store := by
  have widened : own = (Function.update own.1 target realm.origin, own.2) := by
    rw [← fresh, Function.update_eq_self]
  rw [widened]
  refine (mirrors fails).frame (fun disk => (Function.update own.1 target disk, own.2)) ?comes ?more
  case more =>
    rintro value disk' store' ⟨ran, -⟩
    exact ⟨disk', (Function.update_idem ..).symm, ran⟩
  case comes =>
    intro own' parts disk holds
    refine ⟨_, pact_of_joint holds, ?_⟩
    rintro own'' disk' ⟨shared', keeps'⟩
    refine ⟨?_, fun number => ?_⟩
    · rwa [shared_update]
    · have before := holds.2 number
      by_cases same : number = home target
      · subst same
        rw [Function.update_self] at before ⊢
        exact before.trans keeps'
      · rw [Function.update_of_ne same] at before ⊢
        exact before.trans keeps'

/-- A worker that looks at the shared disk knows what it is like. -/
private theorem joint_look {number : Nat} {own : Part} {parts : Nat → Part} {disk : Disk}
    (holds : pactOf (Joint realm home) number own parts disk) :
    pactOf (Joint realm home) number (own.1, disk) parts disk := by
  obtain ⟨shared, keeps⟩ := holds
  constructor
  · have same :
        (fun target => (Function.update parts number (own.1, disk) (home target)).1 target) =
        fun target => (Function.update parts number own (home target)).1 target := by
      funext target
      by_cases here : home target = number
      · simp only [here, Function.update_self]
      · simp only [Function.update_of_ne here]
    rwa [same]
  · intro other
    by_cases here : other = number
    · subst here
      rw [Function.update_self]
      exact .refl disk
    · have before := keeps other
      rwa [Function.update_of_ne here] at before ⊢

/-- A worker can note what the shared disk is like. -/
theorem notes_joint (number : Nat) (targets : Target → Disk) :
    (pactOf (Joint realm home) number).Notes fun own => own.1 = targets := by
  intro own parts disk same holds
  refine ⟨(own.1, disk), ⟨same, fun parts' disk' holds' => ?_⟩, joint_look holds⟩
  have keeps := holds'.2 number
  rwa [Function.update_self] at keeps

/-- A tree with files is rewritten as it would be by itself. -/
theorem upholds_tree (fair : realm.Fair blocked) {path destination : Path}
    (hosted : ClassTree.Hosted realm (.directory path) path destination)
    (some : ClassTree.filesBelow realm.origin (realm.origin.aim path) ≠ []) {own : Part}
    (fresh : own.1 (.directory path) = realm.origin)
    (fails : (ClassTree.course path destination).CanFail rewriter fallback realm.origin store →
      blocked) :
    (ClassTree.course path destination).Upholds rewriter
      (pactOf (Joint realm home) (home (.directory path))) blocked
      (fun value own' store' => ∃ disk',
        own'.1 = Function.update own.1 (.directory path) disk' ∧
        (ClassTree.course path destination).Privately rewriter fallback realm.origin store value
          disk' store') own store := by
  have directory := ClassTree.kind?_of_filesBelow some
  obtain ⟨listing, here⟩ := Disk.at?_eq_directory_iff.mpr directory
  have alone (bench : Bench (List σ)) := @ClassTree.run_course_of_files _
    (rewriter.varying fallback) path destination ⟨realm.origin, bench⟩ _ listing (hosted.found some)
    here
  have known (own' : Part) (parts : Nat → Part) (disk : Disk) (same : own'.1 = own.1)
      (holds : pactOf (Joint realm home) (home (.directory path)) own' parts disk) :
      ∃ others, realm.pact (.directory path) realm.origin others disk := by
    have whole : own' = (Function.update own'.1 (.directory path) realm.origin, own'.2) := by
      rw [← fresh, ← same, Function.update_eq_self]
    rw [whole] at holds
    exact ⟨_, pact_of_joint holds⟩
  apply ClassTree.upholds_course_of_files (notes_joint _ own.1) rfl
  case resolved =>
    intro own' parts disk same holds
    obtain ⟨others, holds⟩ := known own' parts disk same holds
    exact Disk.resolve_keep (Realm.shared_of_pact holds).2.1 (hosted.found some) directory
  case directory =>
    intro own' parts disk same holds
    obtain ⟨others, holds⟩ := known own' parts disk same holds
    exact (Realm.shared_of_pact holds).2.1.directory _ directory
  case same =>
    intro own' parts disk same holds
    obtain ⟨others, holds⟩ := known own' parts disk same holds
    exact ClassTree.filesBelow_congr (ClassTree.agree_of_hosted hosted holds)
  case place =>
    intro own' parts disk same holds
    obtain ⟨others, holds⟩ := known own' parts disk same holds
    exact hosted.inPlace others disk holds some
  case later =>
    intro own' same
    refine (upholds_of_mirrors (ClassTree.mirrors_files fair hosted)
      (fun (failed : Course.CanFail rewriter fallback _ realm.origin store) => ?_)
      (same ▸ fresh)).mono id ?_
    · obtain ⟨memories, failure, shop', failed⟩ := failed
      exact fails ⟨memories, failure, shop', (alone _).trans failed⟩
    · rintro value own'' store' ⟨disk', became, memories, ran⟩
      rw [same] at became
      exact ⟨disk', became, memories, fun more => (alone _).trans (ran more)⟩

/-- Every target is rewritten as it would be by itself. -/
theorem upholds_course [Archive.Library] (fair : realm.Fair blocked)
    (hosted : target.Hosted realm options.outputDirectory) {own : Part}
    (fresh : own.1 target = realm.origin)
    (fails : (course options target).CanFail rewriter fallback realm.origin store → blocked) :
    (course options target).Upholds rewriter (pactOf (Joint realm home) (home target)) blocked
      (fun value own' store' => ∃ disk', own'.1 = Function.update own.1 target disk' ∧
        (course options target).Privately rewriter fallback realm.origin store value disk'
          store') own store := by
  have allows : (realm.pact target).Allows realm.origin := by
    refine ⟨(fun _ => realm.origin, realm.origin), realm.origin, ?_, .refl _⟩
    rw [Function.update_eq_self]
    exact .start realm
  cases hosted with
  | archive hosted =>
    refine upholds_of_mirrors ?_ fails fresh
    exact (Archive.mirrors_course fair hosted allows _).bind fun _ _ _ _ _ => .pure _
  | @tree path hosted some =>
    have stops (failed : (ClassTree.course path (options.outputDirectory.getD path)).CanFail
        rewriter fallback realm.origin store) : blocked := fails failed.bind
    refine (upholds_tree fair hosted some fresh stops).bind_mono ?_
    rintro value own' store' ⟨disk', became, ran⟩
    exact ⟨disk', became, ran.bind (.pure _ _ _)⟩
  | @nothing path none =>
    refine Course.Upholds.bind_mono
      (ClassTree.upholds_course_of_no_files (notes_joint _ own.1) rfl ?none) ?later
    case none =>
      intro own' parts disk same holds
      apply none _ disk holds.1
      rw [Function.update_self, same, fresh]
    case later =>
      rintro value own' store' ⟨rfl, same, rfl⟩
      refine ⟨realm.origin, ?_, [], fun more => ?_⟩
      · rw [same, ← fresh, Function.update_eq_self]
      · have ran : ((ClassTree.course path (options.outputDirectory.getD path)).carryOut
            (rewriter.varying fallback)).run.run ⟨realm.origin, ⟨store', more⟩⟩ =
              (.ok {}, ⟨realm.origin, ⟨store', more⟩⟩) :=
          ClassTree.run_course_of_no_files (none _ _ (.start realm) rfl)
        unfold course
        rw [Course.run_bind]
        simp only [List.nil_append, ran]
        rfl

/-! The targets of one worker. -/

/-- What became of targets that were taken up one after another. Each of them was rewritten on a
disk of its own, and the store was handed on. -/
inductive Served [Archive.Library] (options : Options) (rewriter : Rewriter σ) (fallback : σ)
    (origin : Disk) (parts : Target → Disk) : List Target → List Summary → Store → Prop where
  | none : Served options rewriter fallback origin parts [] [] .empty
  | next {front : List Target} {target : Target} {summaries : List Summary} {summary : Summary}
    {store store' : Store}
      (before : Served options rewriter fallback origin parts front summaries store)
      (ran : (course options target).Privately rewriter fallback origin store summary
        (parts target) store') :
      Served options rewriter fallback origin parts (front ++ [target])
        (summaries ++ [summary]) store'

namespace Served
variable [Archive.Library] {origin : Disk} {parts parts' : Target → Disk} {targets : List Target}
  {summaries : List Summary}

theorem congr (served : Served options rewriter fallback origin parts targets summaries store)
    (same : ∀ target ∈ targets, parts' target = parts target) :
    Served options rewriter fallback origin parts' targets summaries store := by
  induction served with
  | none => exact .none
  | next before ran ih =>
    obtain ⟨front, last⟩ := List.forall_mem_append.mp same
    refine .next (ih front) ?_
    rwa [last _ (List.mem_singleton_self _)]

/-- Each of the targets was rewritten on a disk of its own. -/
theorem each (served : Served options rewriter fallback origin parts targets summaries store) :
    ∀ target ∈ targets, ∃ before summary after,
      (course options target).Privately rewriter fallback origin before summary
        (parts target) after := by
  induction served with
  | none => exact nofun
  | next before ran ih =>
    intro target member
    rcases List.mem_append.mp member with early | last
    · exact ih target early
    · rw [List.mem_singleton.mp last]
      exact ⟨_, _, _, ran⟩

end Served

/-- A worker serves the targets of its share, unless it is blocked. -/
theorem upholds_share [Archive.Library] (fair : realm.Fair blocked) {number : Nat}
    {share : List Target} (distinct : share.Nodup) (own : ∀ target ∈ share, home target = number)
    (hosted : ∀ target ∈ share, target.Hosted realm options.outputDirectory)
    (fails : ∀ front target parts summaries store, (front ++ [target]) <+: share →
      Served options rewriter fallback realm.origin parts front summaries store →
      (course options target).CanFail rewriter fallback realm.origin store → blocked)
    {front rest : List Target} (split : front ++ rest = share) {part : Part}
    {summaries : List Summary}
    (served : Served options rewriter fallback realm.origin part.1 front summaries store)
    (fresh : ∀ target ∉ front, part.1 target = realm.origin) :
    (rest.foldlM (fun (summary : Summary) target => return summary.add (← course options target))
      (total summaries)).Upholds
      rewriter (pactOf (Joint realm home) number) blocked
      (fun summary part store => (∃ summaries, summary = total summaries ∧
          Served options rewriter fallback realm.origin part.1 share summaries store) ∧
        ∀ target ∉ share, part.1 target = realm.origin) part store := by
  induction rest generalizing front part summaries store with
  | nil =>
    rw [List.append_nil] at split
    subst split
    exact ⟨⟨summaries, rfl, served⟩, fresh⟩
  | cons target rest ih =>
    subst split
    have member : target ∈ front ++ target :: rest :=
      List.mem_append_right _ (List.mem_cons_self ..)
    have apart : target ∉ front := fun early =>
      List.disjoint_of_nodup_append distinct early (List.mem_cons_self ..)
    have first : (course options target).Upholds rewriter
        (pactOf (Joint realm home) (home target)) blocked _ part
        store := upholds_course fair (hosted target member) (fresh target apart)
      (fails front target part.1 summaries store ⟨rest, by simp⟩ served)
    rw [own target member] at first
    rw [List.foldlM_cons]
    apply Course.Upholds.bind
    apply first.bind_mono
    rintro summary part' store' ⟨disk', changed, ran⟩
    have others : ∀ other, other ≠ target → part'.1 other = part.1 other := by
      intro other different
      rw [changed, Function.update_of_ne different]
    have here : part'.1 target = disk' := by rw [changed, Function.update_self]
    have still : Served options rewriter fallback realm.origin part'.1 front summaries store :=
      served.congr fun other early => others other fun same => apart (same ▸ early)
    rw [← total_append_singleton]
    refine ih (by simp) (still.next (here ▸ ran)) fun other absent => ?_
    obtain ⟨notEarly, different⟩ := not_or.mp (List.mem_append.not.mp absent)
    rw [others other (List.mem_singleton.not.mp different)]
    exact fresh other notEarly

/-! The whole crew. -/

/-- A crew serves all targets, unless it is blocked. -/
theorem finish_of_hosted [Archive.Library] {blocked : Prop} (fair : realm.Fair blocked)
    {targets : List Target} (distinct : targets.Nodup)
    (hosted : ∀ target ∈ targets, target.Hosted realm options.outputDirectory)
    (fails : ∀ front target parts summaries store, (front ++ [target]).Sublist targets →
      Served options rewriter fallback realm.origin parts front summaries store →
      (course options target).CanFail rewriter fallback realm.origin store → blocked) {count : Nat}
    (positive : 0 < count) (turns : List Nat) {shop shop' : Workshop σ}
    (start : shop.disk = realm.origin) {results : List (Except Failure (Store × Summary))}
    (finished : ((Crew.ofTargets options count targets).finish rewriter turns).run shop =
      (results, shop')) :
    (blocked ∧ ∃ failure, results.mapM id = .error failure) ∨
    ∃ (answers : List (Store × Summary)) (parts : Target → Disk), results.mapM id = .ok answers ∧
      answers.length = count ∧ realm.Shared parts shop'.disk ∧
      (∀ target ∉ targets, parts target = realm.origin) ∧
      ∀ (number : Nat) store summary, answers[number]? = some (store, summary) → ∃ summaries,
        summary = total summaries ∧ Served options rewriter fallback realm.origin parts
          (Crew.share count number targets) summaries store := by
  let home (target : Target) : Nat := targets.idxOf target % count
  have own {number : Nat} (target : Target) (member : target ∈ Crew.share count number targets) :
      home target = number := home_of_mem_share distinct member
  have sound : Sound rewriter (Joint realm home) blocked
      (fun number summary part store => (∃ summaries, summary = total summaries ∧
          Served options rewriter fallback realm.origin part.1
            (Crew.share count number targets) summaries store) ∧
        ∀ target ∉ Crew.share count number targets, part.1 target = realm.origin)
      (Crew.ofTargets options count targets) (fun _ =>
        (fun _ => realm.origin, realm.origin)) shop.disk := by
    rw [start]
    refine ⟨⟨.start realm, fun _ => .refl _⟩, fun number worker found => ?_⟩
    unfold Crew.ofTargets at found
    rw [List.getElem?_map] at found
    obtain ⟨number', numbered, rfl⟩ := Option.map_eq_some_iff.mp found
    obtain rfl : number = number' := by
      obtain ⟨inside, same⟩ := List.getElem?_eq_some_iff.mp numbered
      rwa [List.getElem_range] at same
    have part := share_sublist count number targets
    refine upholds_share fair (distinct.sublist part) own (fun target member =>
      hosted target (part.subset member))
      ?_ (List.nil_append _) .none fun _ _ => rfl
    exact fun front target parts summaries store early => fails front target parts summaries store
      (early.sublist.trans part)
  rcases sound.finish turns finished with stopped | ⟨answers, parts, answered,
    length, ⟨shared, -⟩, each⟩
  · exact .inl stopped
  · have workers : answers.length = count := by
      rw [length, Crew.ofTargets, List.length_map, List.length_range]
    refine .inr ⟨answers, fun target => (parts (home target)).1 target, answered,
      workers, shared, ?_, ?_⟩
    · intro target absent
      have inside : home target < answers.length := workers ▸ Nat.mod_lt _ positive
      obtain ⟨-, rest⟩ := each _ _ _ (List.getElem?_eq_getElem inside)
      exact rest target fun member => absent ((share_sublist count _ targets).subset member)
    · intro number store summary found
      obtain ⟨⟨summaries, counted, served⟩, -⟩ := each number store summary found
      refine ⟨summaries, counted, served.congr fun target member => ?_⟩
      simp only [own target member]

end Instrument
end ClassCoverage
