import ClassCoverage.Proofs.DiskGrowth

/-! New directories. The places that a path leads through are known before anything is there. Making
the directories of a path fills in those that are missing, and changes nothing else. -/
namespace ClassCoverage.Disk
open ClassCoverage.Path

/-- Where a step leads to, whether anything is there or not. -/
def next (place : Place) (step : String) : Place :=
  if step = ".." then place.dropLast else place ++ [step]

def lead (place : Place) (steps : List String) : Place := steps.foldl next place

/-- The places that steps lead through, up to the last. -/
def way : Place → List String → List Place
  | _, [] => []
  | place, step :: rest => next place step :: way (next place step) rest

theorem lead_append (place : Place) (front back : List String) :
    lead place (front ++ back) = lead (lead place front) back :=
  List.foldl_append

theorem way_append (place : Place) (front back : List String) :
    way place (front ++ back) = way place front ++ way (lead place front) back := by
  induction front generalizing place with
  | nil => rfl
  | cons step rest ih =>
    rw [List.cons_append, way, ih, way, List.cons_append, lead, lead, List.foldl_cons]

theorem lead_names {place below : Place} (named : ∀ name ∈ below, IsName name) :
    lead place below = place ++ below := by
  induction below generalizing place with
  | nil => exact (List.append_nil place).symm
  | cons name rest ih =>
    have first := named name (List.mem_cons_self ..)
    have later := @ih (place ++ [name]) fun other member =>
      named other (List.mem_cons_of_mem _ member)
    rw [List.append_assoc, List.singleton_append] at later
    rw [lead, List.foldl_cons, next, if_neg first.notUp]
    exact later

/-- A walk goes all the way as long as there are directories. -/
theorem walk_eq_some_iff {root : Listing} {place found : Place} {steps : List String}
    (start : root.kind? place = some .directory) :
    walk root place steps = some found ↔
      (∀ stop ∈ way place steps, root.kind? stop = some .directory) ∧ lead place steps = found := by
  induction steps generalizing place with
  | nil =>
    constructor
    · intro walked
      exact ⟨by simp [way], Option.some.inj walked⟩
    · rintro ⟨-, same⟩
      exact congrArg some same
  | cons step rest ih =>
    rw [walk, way, List.forall_mem_cons, lead, List.foldl_cons]
    by_cases up : step = ".."
    · have above : next place step = place.dropLast := if_pos up
      have directory := Listing.kind?_dropLast start
      rw [if_pos up, above, ih directory]
      simp only [directory, true_and]
      rfl
    · have below : next place step = place ++ [step] := if_neg up
      rw [if_neg up, below]
      split
      · rename_i directory
        rw [ih directory]
        simp only [directory, true_and]
        rfl
      · rename_i other
        constructor
        · intro impossible
          cases impossible
        · rintro ⟨⟨directory, -⟩, -⟩
          exact absurd directory other

/-- What a path finds lies where its steps lead to. -/
theorem lead_of_follow {root : Listing} {place found : Place} {segments : List String}
    (followed : follow root place segments = .ok found) :
    lead place (segments.filter isStep) = found := by
  induction segments generalizing place with
  | nil => exact Except.ok.inj followed
  | cons segment rest ih =>
    cases idle : isStep segment with
    | false =>
      rw [follow_idle idle] at followed
      rw [List.filter_cons_of_neg (by simp [idle])]
      exact ih followed
    | true =>
      rw [List.filter_cons_of_pos idle, lead, List.foldl_cons]
      by_cases up : segment = ".."
      · subst up
        rw [follow] at followed
        exact ih followed
      · have below : next place segment = place ++ [segment] := if_neg up
        rw [follow_step idle up] at followed
        rw [below]
        split at followed
        · cases followed
        · exact ih followed
        · split at followed
          · rename_i last
            subst last
            exact Except.ok.inj followed
          · cases followed

theorem walk_of_follow_directory {root : Listing} {place found : Place} {segments : List String}
    (followed : follow root place segments = .ok found)
    (directory : root.kind? found = some .directory) :
    walk root place (segments.filter isStep) = some found := by
  induction segments generalizing place with
  | nil => exact congrArg some (Except.ok.inj followed)
  | cons segment rest ih =>
    cases idle : isStep segment with
    | false =>
      rw [follow_idle idle] at followed
      rw [List.filter_cons_of_neg (by simp [idle])]
      exact ih followed
    | true =>
      rw [List.filter_cons_of_pos idle, walk]
      by_cases up : segment = ".."
      · subst up
        rw [follow] at followed
        rw [if_pos rfl]
        exact ih followed
      · rw [follow_step idle up] at followed
        rw [if_neg up]
        split at followed
        · cases followed
        · rename_i here
          rw [if_pos here]
          exact ih followed
        · rename_i here
          split at followed
          · cases followed
            rw [directory] at here
            cases here
          · cases followed

theorem resolve_keep {disk disk' : Disk} (keeps : Keeps disk disk') {path : Path} {place : Place}
    (resolved : disk.resolve path = .ok place) (directory : disk.kind? place = some .directory) :
    disk'.resolve path = .ok place := by
  unfold resolve at resolved ⊢
  split at resolved
  · cases resolved
  · rename_i spelled
    rw [if_neg spelled, start_keep keeps.workPlace]
    exact follow_of_walk (walk_keep keeps (walk_of_follow_directory resolved directory))

/-- No file lies at any of the places. -/
def Clear (disk : Disk) (places : List Place) : Prop :=
  ∀ place ∈ places, ∀ content, disk.kind? place ≠ some (.file content)

/-- There are directories at the places now, and everything else is as it was. -/
structure Extended (disk disk' : Disk) (places : List Place) : Prop where
  workPlace : disk'.workPlace = disk.workPlace
  kinds : ∀ place, disk'.kind? place = if place ∈ places then some .directory else disk.kind? place

namespace Extended
variable {a b c : Disk} {places more : List Place}

theorem refl (directories : ∀ place ∈ places, a.kind? place = some .directory) :
    Extended a a places where
  workPlace := rfl
  kinds place := by
    split
    · rename_i member
      exact directories place member
    · rfl

private theorem trans (first : Extended a b places) (second : Extended b c more) :
    Extended a c (places ++ more) where
  workPlace := second.workPlace.trans first.workPlace
  kinds place := by
    rw [second.kinds, first.kinds]
    simp only [List.mem_append]
    by_cases early : place ∈ places
    · by_cases late : place ∈ more <;> simp [early, late]
    · by_cases late : place ∈ more <;> simp [early, late]

theorem directory (extended : Extended a b places) :
    ∀ place ∈ places, b.kind? place = some .directory := by
  intro place member
  rw [extended.kinds, if_pos member]

theorem keeps (extended : Extended a b places) : Keeps a b where
  workPlace := extended.workPlace
  directory place found := by
    rw [extended.kinds]
    split
    · rfl
    · exact found

theorem start (extended : Extended a b places) (path : Path) : b.start path = a.start path :=
  start_keep extended.workPlace path

end Extended

theorem steps_of_segments {path : Path} {front : List String} {last : String}
    (split : path.segments = front ++ [last]) (leads : IsLead last) :
    path.steps = front.filter isStep ++ [last] := by
  have filtered : path.steps = path.segments.filter isStep := rfl
  rw [filtered, split, List.filter_append, List.filter_cons_of_pos leads.isStep, List.filter_nil]

section
variable {disk : Disk} {path : Path} {front : List String} {last : String}

theorem isDirectory_of_walk {place : Place} (rooted : disk.Rooted) (spelled : path.spelling ≠ "")
    (walked : walk disk.root (disk.start path) path.steps = some place) :
    disk.isDirectory path = true := by
  have resolved : disk.resolve path = .ok place := by
    unfold resolve
    rw [if_neg (by simpa using spelled)]
    exact follow_of_walk walked
  have directory := kind?_of_walk (Lands.kind?_start rooted path) walked
  obtain ⟨listing, found⟩ := at?_eq_directory_iff.mpr directory
  unfold isDirectory node?
  simp only [resolved, found]

private theorem resolveLast_eq (split : path.segments = front ++ [last]) (leads : IsLead last) :
    disk.resolveLast path (front ++ [last]) =
      (follow disk.root (disk.start path) (front ++ ["."])).map (·, last) := by
  have spelled := spelling_ne_empty_of_segments split leads.nonempty
  unfold resolveLast
  rw [List.getLast?_concat, List.dropLast_concat]
  simp only [String.isEmpty_iff, spelled, ↓reduceIte]
  cases follow disk.root (disk.start path) (front ++ ["."]) <;> rfl

theorem makeDirectory_eq (split : path.segments = front ++ [last]) (leads : IsLead last) :
    disk.makeDirectory path =
      match follow disk.root (disk.start path) (front ++ ["."]) with
      | .error fault => .error fault
      | .ok place =>
        if last = ".." then .error .exists
        else match disk.at? (place ++ [last]) with
          | some _ => .error .exists
          | none => .ok (disk.setAt (.directory .empty) trivial (place ++ [last])) := by
  have some : front ++ [last] ≠ [] := by simp
  unfold makeDirectory
  rw [split, trimmed leads]
  simp only [some, ↓reduceIte, resolveLast_eq split leads]
  cases follow disk.root (disk.start path) (front ++ ["."]) with
  | error fault => rfl
  | ok place =>
    simp only [Except.map, bind, Except.bind, leads.notHere, decide_false,
      Bool.false_or, decide_eq_true_eq]
    split
    · rfl
    · cases disk.at? (place ++ [last]) <;> rfl

/-- A way that is cut short by nothing but missing directories. -/
theorem follow_cut {root : Listing} {place : Place} {segments : List String}
    (clear : ∀ stop ∈ way place (segments.filter isStep), ∀ content, root.kind? stop ≠
      some (.file content)) (cut : walk root place (segments.filter isStep) = none) :
    follow root place (segments ++ ["."]) = .error .notFound := by
  induction segments generalizing place with
  | nil => cases cut
  | cons segment rest ih =>
    rw [List.cons_append]
    cases idle : isStep segment with
    | false =>
      rw [List.filter_cons_of_neg (by simp [idle])] at cut clear
      rw [follow_idle idle]
      exact ih clear cut
    | true =>
      rw [List.filter_cons_of_pos idle, walk] at cut
      rw [List.filter_cons_of_pos idle, way, List.forall_mem_cons] at clear
      by_cases up : segment = ".."
      · subst up
        rw [if_pos rfl] at cut
        rw [follow]
        exact ih clear.2 cut
      · have below : next place segment = place ++ [segment] := if_neg up
        rw [if_neg up] at cut
        rw [below] at clear
        rw [follow_step idle up]
        cases here : root.kind? (place ++ [segment]) with
        | none => rfl
        | some kind => cases kind with
          | file content => exact absurd here (clear.1 content)
          | directory =>
            rw [if_pos here] at cut
            exact ih clear.2 cut

/-- Where all directories but the last are there, the last is made unless it is there too. -/
theorem makeDirectory_here (rooted : disk.Rooted) (split : path.segments = front ++ [last])
    (leads : IsLead last)
    (directories : ∀ stop ∈ way (disk.start path) (front.filter isStep), disk.kind? stop =
      some .directory) (clear : disk.Clear [lead (disk.start path) path.steps]) :
    (∃ disk', disk.makeDirectory path = .ok disk' ∧
        Extended disk disk' [lead (disk.start path) path.steps]) ∨
      (disk.makeDirectory path = .error .exists ∧ disk.isDirectory path = true ∧
        Extended disk disk [lead (disk.start path) path.steps]) := by
  have start := Lands.kind?_start rooted path
  have walked := (walk_eq_some_iff start).mpr ⟨directories, rfl⟩
  have steps := steps_of_segments split leads
  have target : lead (disk.start path) path.steps =
      next (lead (disk.start path) (front.filter isStep)) last := by
    rw [steps, lead_append]
    rfl
  have parent := kind?_of_walk start walked
  have followed : follow disk.root (disk.start path) (front ++ ["."]) =
      .ok (lead (disk.start path) (front.filter isStep)) := by
    apply follow_of_walk
    simpa [isStep] using walked
  have there (directory : disk.kind? (lead (disk.start path) path.steps) = some .directory) :
      disk.isDirectory path = true ∧ Extended disk disk [lead (disk.start path) path.steps] := by
    constructor
    · apply isDirectory_of_walk rooted (spelling_ne_empty_of_segments split leads.nonempty)
      rw [walk_eq_some_iff start, steps, way_append, List.forall_mem_append]
      refine ⟨⟨directories, ?_⟩, rfl⟩
      rw [way, way, List.forall_mem_singleton, ← target]
      exact directory
    · apply Extended.refl
      rw [List.forall_mem_singleton]
      exact directory
  have made : disk.makeDirectory path = _ := makeDirectory_eq split leads
  rw [followed] at made
  simp only at made
  by_cases up : last = ".."
  · rw [if_pos up] at made
    refine .inr ⟨made, there ?_⟩
    rw [target, next, if_pos up]
    exact Listing.kind?_dropLast parent
  · rw [if_neg up] at made
    rw [target, next, if_neg up] at there clear ⊢
    cases found : disk.at? (lead (disk.start path) (front.filter isStep) ++ [last]) with
    | some node =>
      rw [found] at made
      refine .inr ⟨made, there ?_⟩
      cases node with
      | directory listing => exact at?_eq_directory_iff.mp ⟨listing, found⟩
      | file content =>
        exact absurd (at?_eq_file_iff.mp found) (clear _ (List.mem_singleton_self _) content)
    | none =>
      rw [found] at made
      refine .inl ⟨_, made, rfl, fun other => ?_⟩
      have absent : disk.kind? (lead (disk.start path) (front.filter isStep) ++ [last]) = none := by
        unfold kind? Listing.kind?
        unfold at? at found
        rw [found]
        rfl
      have kinds :=
        @Listing.kind?_setAt disk.root (lead (disk.start path) (front.filter isStep) ++ [last])
        (.directory .empty) rfl (by simp) (by rw [List.dropLast_concat]; exact parent) (by
          change disk.kind? _ ≠ some .directory
          simp [absent]) other
      simp only [List.mem_singleton]
      exact kinds

end

section
variable {disk : Disk} {path parent : Path} {front : List String} {last : String}

theorem start_of_parent (above : Parent path parent front) (spelled : parent.spelling ≠ "") :
    disk.start parent = disk.start path := by
  unfold start
  rw [above.rooted spelled]

theorem way_of_parent (split : path.segments = front ++ [last]) (leads : IsLead last)
    (above : Parent path parent front) (place : Place) :
    way place path.steps = way place parent.steps ++ [lead place path.steps] := by
  rw [steps_of_segments split leads, above.steps, way_append, lead_append]
  rfl

/-- A directory cannot be made while one above it is missing. -/
theorem makeDirectory_of_missing (rooted : disk.Rooted) (split : path.segments = front ++ [last])
    (leads : IsLead last) (above : Parent path parent front)
    (clear : disk.Clear (way (disk.start path) parent.steps))
    (missing : ¬ ∀ stop ∈ way (disk.start path) parent.steps, disk.kind? stop = some .directory) :
    disk.makeDirectory path = .error .notFound ∧ parent.spelling ≠ "" := by
  have cut : walk disk.root (disk.start path) parent.steps = none := by
    rw [Option.eq_none_iff_forall_ne_some]
    intro found walked
    exact missing ((walk_eq_some_iff (Lands.kind?_start rooted path)).mp walked).1
  constructor
  · rw [makeDirectory_eq split leads, follow_cut (above.steps ▸ clear) (above.steps ▸ cut)]
  · intro empty
    rw [Path.steps, chars, empty] at cut
    cases cut

/-- The last directory of a path is made, or is there already, once those above it are there. -/
theorem makeDirectory_of_parents (rooted : disk.Rooted) (split : path.segments = front ++ [last])
    (leads : IsLead last) (above : Parent path parent front)
    (clear : disk.Clear [lead (disk.start path) path.steps]) {higher : Disk}
    (extended : Extended disk higher (way (disk.start path) parent.steps)) :
    ∃ made, (higher.makeDirectory path = .ok made ∨
        higher.makeDirectory path = .error .exists ∧ higher.isDirectory path =
          true ∧ made = higher) ∧
      Extended disk made (way (disk.start path) path.steps) := by
  have free : higher.Clear [lead (higher.start path) path.steps] := by
    intro place member content
    rw [extended.start] at member
    rw [extended.kinds]
    split
    · simp
    · exact clear place member content
  have directories : ∀ stop ∈ way (higher.start path) (front.filter isStep), higher.kind? stop =
      some .directory := by
    rw [extended.start, ← above.steps]
    exact extended.directory
  rw [way_of_parent split leads above]
  rcases makeDirectory_here (rooted.keep extended.keeps) split leads directories free with
    ⟨made, done, more⟩ | ⟨there, directory, more⟩
  · rw [extended.start] at more
    exact ⟨made, .inl done, extended.trans more⟩
  · rw [extended.start] at more
    exact ⟨higher, .inr ⟨there, directory, rfl⟩, extended.trans more⟩

end

private theorem makeDirectories_idle {disk : Disk} (rooted : disk.Rooted) {path : Path}
    {depth : Nat} (idle : path.steps = []) (spelled : path.spelling ≠ "")
    (there : disk.makeDirectory path = .error .exists) :
    makeDirectoriesWithin (depth + 1) disk path = .ok disk := by
  have directory : disk.isDirectory path = true := by
    apply isDirectory_of_walk rooted spelled
    rw [idle]
    rfl
  rw [makeDirectoriesWithin, if_neg (by simpa using spelled), there]
  simp [directory]

private theorem makeDirectoriesWithin_of_clear {depth : Nat} {disk : Disk} (rooted : disk.Rooted)
    {path : Path} (tidy : path.Tidy) (deep : path.chars.length < depth)
    (clear : disk.Clear (way (disk.start path) path.steps)) :
    ∃ disk', makeDirectoriesWithin depth disk path = .ok disk' ∧
      Extended disk disk' (way (disk.start path) path.steps) := by
  induction depth generalizing path with
  | zero => omega
  | succ depth ih =>
    have nothing (idle : path.steps = []) :
        Extended disk disk (way (disk.start path) path.steps) := by
      rw [idle]
      exact .refl (by simp [way])
    cases tidy with
    | empty spelled =>
      have idle : path.steps = [] := by
        rw [Path.steps, chars, spelled]
        decide
      rw [makeDirectoriesWithin, if_pos (String.isEmpty_iff.mpr spelled)]
      exact ⟨disk, rfl, nothing idle⟩
    | here spelled =>
      obtain ⟨_⟩ := path
      cases spelled
      have segments : (⟨"."⟩ : Path).segments = ["."] := by decide
      have there : disk.makeDirectory ⟨"."⟩ = .error .exists := by
        unfold makeDirectory resolveLast
        simp [segments, follow, bind, Except.bind, pure, Except.pure]
        rfl
      exact ⟨disk, makeDirectories_idle rooted (by decide) (by decide) there, nothing (by decide)⟩
    | root spelled =>
      obtain ⟨_⟩ := path
      cases spelled
      have segments : (⟨"/"⟩ : Path).segments = ["", ""] := by decide
      have absolute : (⟨"/"⟩ : Path).isAbsolute = true := by decide
      have there : disk.makeDirectory ⟨"/"⟩ = .error .exists := by
        unfold makeDirectory
        simp [segments, absolute]
        rfl
      exact ⟨disk, makeDirectories_idle rooted (by decide) (by decide) there, nothing (by decide)⟩
    | @leads front last split leads =>
      obtain ⟨parent, above⟩ := parent_of_segments split leads
      rw [makeDirectoriesWithin,
        if_neg (by simpa using spelling_ne_empty_of_segments split leads.nonempty)]
      rw [way_of_parent split leads above] at clear
      have clearTarget : disk.Clear [lead (disk.start path) path.steps] := fun place member =>
        clear place (List.mem_append_right _ member)
      have clearParent : disk.Clear (way (disk.start path) parent.steps) := fun place member =>
        clear place (List.mem_append_left _ member)
      by_cases directories :
          ∀ stop ∈ way (disk.start path) parent.steps, disk.kind? stop = some .directory
      · obtain ⟨made, answered, extended⟩ :=
          makeDirectory_of_parents rooted split leads above clearTarget (.refl directories)
        refine ⟨made, ?_, extended⟩
        rcases answered with done | ⟨there, directory, rfl⟩
        · rw [done]
        · rw [there]
          simp only [directory, ↓reduceIte]
      · -- The first missing directory is above this one.
        obtain ⟨missing, spelled⟩ :=
          makeDirectory_of_missing rooted split leads above clearParent directories
        have start : disk.start parent = disk.start path := start_of_parent above spelled
        obtain ⟨higher, done, extended⟩ := ih above.tidy (by have := above.shorter; omega)
          (by rw [start]; exact clearParent)
        rw [start] at extended
        obtain ⟨made, answered, extended⟩ :=
          makeDirectory_of_parents rooted split leads above clearTarget extended
        refine ⟨made, ?_, extended⟩
        rw [missing, above.found]
        simp only [done, bind, Except.bind]
        rcases answered with done | ⟨there, directory, rfl⟩
        · rw [done]
          rfl
        · rw [there]
          simp only [directory, ↓reduceIte]
          rfl

/-- Where no file is in the way, every directory of a path can be made. -/
theorem makeDirectories_of_clear {disk : Disk} (rooted : disk.Rooted) {path : Path}
    (tidy : path.Tidy) (clear : disk.Clear (way (disk.start path) path.steps)) :
    ∃ disk', disk.makeDirectories path = .ok disk' ∧
      Extended disk disk' (way (disk.start path) path.steps) := by
  apply makeDirectoriesWithin_of_clear rooted tidy _ clear
  rw [chars, String.length_toList]
  exact Nat.lt_succ_self _

private theorem walk_of_isDirectory {disk : Disk} {path : Path}
    (directory : disk.isDirectory path = true) :
    ∃ place, walk disk.root (disk.start path) path.steps = some place := by
  unfold isDirectory node? resolve at directory
  split at directory
  · rename_i listing found
    split at found
    · rename_i place resolved
      split at resolved
      · cases resolved
      · exact ⟨place, walk_of_follow_directory resolved (at?_eq_directory_iff.mp ⟨listing, found⟩)⟩
    · cases found
  · cases directory

theorem Clear.of_adds {disk disk' : Disk} (adds : Adds disk disk') {places : List Place}
    (clear : disk'.Clear places) : disk.Clear places := by
  intro place member content file
  exact clear place member content (adds.kinds place _ file)

private theorem clear_of_isDirectory {disk : Disk} (rooted : disk.Rooted) {path : Path}
    (directory : disk.isDirectory path = true) : disk.Clear (way (disk.start path) path.steps) := by
  obtain ⟨place, walked⟩ := walk_of_isDirectory directory
  intro stop member content file
  have found := ((walk_eq_some_iff (Lands.kind?_start rooted path)).mp walked).1 stop member
  have same : disk.kind? stop = some .directory := found
  rw [same] at file
  cases file

private theorem clear_of_makeDirectory {disk disk' : Disk} (rooted : disk.Rooted) {path : Path}
    {front : List String} {last : String} (split : path.segments = front ++ [last])
    (leads : IsLead last) (done : disk.makeDirectory path = .ok disk') :
    disk.Clear (way (disk.start path) path.steps) := by
  rw [makeDirectory_eq split leads] at done
  cases followed : follow disk.root (disk.start path) (front ++ ["."]) with
  | error fault =>
    rw [followed] at done
    cases done
  | ok place =>
    have walked := walk_of_follow followed
    obtain ⟨directories, rfl⟩ := (walk_eq_some_iff (Lands.kind?_start rooted path)).mp walked
    rw [followed] at done
    simp only at done
    split at done
    · cases done
    · rename_i down
      cases found : disk.at? (lead (disk.start path) (front.filter isStep) ++ [last]) with
      | some node =>
        rw [found] at done
        cases done
      | none =>
        rw [steps_of_segments split leads, way_append]
        intro stop member content file
        rcases List.mem_append.mp member with early | late
        · have directory : disk.kind? stop = some .directory := directories stop early
          rw [directory] at file
          cases file
        · rw [way, way, List.mem_singleton, next, if_neg down] at late
          subst late
          rw [at?_eq_file_iff.mpr file] at found
          cases found

/-- Directories can only be made where no file is in the way. -/
theorem clear_of_makeDirectories {disk disk' : Disk} (rooted : disk.Rooted) {path : Path}
    (tidy : path.Tidy) (done : disk.makeDirectories path = .ok disk') :
    disk.Clear (way (disk.start path) path.steps) := by
  have nothing (idle : path.steps = []) : disk.Clear (way (disk.start path) path.steps) := by
    rw [idle]
    intro place member
    cases member
  cases tidy with
  | empty spelled =>
    apply nothing
    rw [Path.steps, chars, spelled]
    decide
  | here spelled =>
    apply nothing
    rw [Path.steps, chars, spelled]
    decide
  | root spelled =>
    apply nothing
    rw [Path.steps, chars, spelled]
    decide
  | @leads front last split leads =>
    rw [makeDirectories, makeDirectoriesWithin,
      if_neg (by simpa using spelling_ne_empty_of_segments split leads.nonempty)] at done
    split at done
    · rename_i made first
      exact clear_of_makeDirectory rooted split leads first
    · split at done
      · cases done
      · rename_i parent found
        cases higher : makeDirectoriesWithin path.spelling.length disk parent with
        | error fault => simp [higher, bind, Except.bind] at done
        | ok above =>
          have adds := (addsDirectories_of_makeDirectoriesWithin rooted higher).adds
          have rooted' := rooted.keep adds.keeps
          simp only [higher, bind, Except.bind] at done
          apply Clear.of_adds adds
          rw [← start_keep adds.workPlace]
          split at done
          · rename_i made second
            exact clear_of_makeDirectory rooted' split leads second
          · split at done
            · rename_i directory
              exact clear_of_isDirectory rooted' directory
            · cases done
    · split at done
      · rename_i directory
        exact clear_of_isDirectory rooted directory
      · cases done

/-- Where the file of a path goes, and the directories above it, whether they are there or not. -/
def Aims (disk : Disk) (path : Path) (place : Place) (above : List Place) : Prop :=
  ∃ front name, path.segments = front ++ [name] ∧ IsName name ∧
    above = way (disk.start path) (front.filter isStep) ∧
    place = lead (disk.start path) (front.filter isStep) ++ [name]

namespace Aims
variable {disk disk' : Disk} {path : Path} {place : Place} {above : List Place}

theorem unique {place' : Place} {above' : List Place} (aims : Aims disk path place above)
    (aims' : Aims disk path place' above') : place' = place ∧ above' = above := by
  obtain ⟨front, name, split, -, rfl, rfl⟩ := aims
  obtain ⟨front', name', split', -, rfl, rfl⟩ := aims'
  obtain ⟨rfl, same⟩ := List.append_inj' (split'.symm.trans split) rfl
  cases same
  exact ⟨rfl, rfl⟩

theorem keep (aims : Aims disk path place above) (home : disk'.workPlace = disk.workPlace) :
    Aims disk' path place above := by
  unfold Aims
  rw [start_keep home]
  exact aims

theorem steps (aims : Aims disk path place above) :
    lead (disk.start path) path.steps = place ∧ way (disk.start path) path.steps =
      above ++ [place] := by
  obtain ⟨front, name, split, named, rfl, rfl⟩ := aims
  rw [steps_of_segments split named.isLead, lead_append, way_append]
  have last : next (lead (disk.start path) (front.filter isStep)) name =
      lead (disk.start path) (front.filter isStep) ++ [name] := if_neg named.notUp
  constructor
  · exact last
  · rw [way, way, last]

theorem lands (aims : Aims disk path place above) (rooted : disk.Rooted)
    (directories : ∀ stop ∈ above, disk.kind? stop = some .directory) : disk.Lands path place := by
  obtain ⟨front, name, split, named, rfl, rfl⟩ := aims
  have walked := (walk_eq_some_iff (Lands.kind?_start rooted path)).mpr ⟨directories, rfl⟩
  exact ⟨front, name, _, split, named, walked, rfl⟩

/-- A path that finds anything finds what it aims at. -/
theorem resolve (aims : Aims disk path place above) {found : Place}
    (resolved : disk.resolve path = .ok found) :
    found = place := by
  unfold Disk.resolve at resolved
  split at resolved
  · cases resolved
  · exact (lead_of_follow resolved).symm.trans aims.steps.1

theorem parent (aims : Aims disk path place above) :
    ∃ parent, path.parent? = some parent ∧ parent.Tidy ∧
      way (disk.start parent) parent.steps = above := by
  obtain ⟨front, name, split, named, rfl, rfl⟩ := aims
  obtain ⟨parent, found⟩ := parent_of_segments split named.isLead
  refine ⟨parent, found.found, found.tidy, ?_⟩
  rw [← found.steps]
  by_cases empty : parent.spelling = ""
  · have idle : parent.steps = [] := by
      rw [Path.steps, chars, empty]
      decide
    rw [idle]
    rfl
  · rw [start_of_parent found empty]

theorem directory (aims : Aims disk path place above) :
    path.directory.Tidy ∧ way (disk.start path.directory) path.directory.steps = above := by
  obtain ⟨parent, found, tidy, same⟩ := aims.parent
  unfold Path.directory
  rw [found]
  by_cases empty : parent.spelling = ""
  · have idle : parent.steps = [] := by
      rw [Path.steps, chars, empty]
      decide
    rw [idle] at same
    simp only [String.isEmpty_iff.mpr empty, ↓reduceIte]
    exact ⟨.here rfl, same⟩
  · simp only [String.isEmpty_iff, empty, ↓reduceIte]
    exact ⟨tidy, same⟩

end Aims

theorem Lands.aims {disk : Disk} (rooted : disk.Rooted) {path : Path} {place : Place}
    (lands : disk.Lands path place) :
    ∃ above, Aims disk path place above ∧ ∀ stop ∈ above, disk.kind? stop = some .directory := by
  obtain ⟨front, name, directory, split, named, walked, rfl⟩ := lands
  obtain ⟨directories, rfl⟩ := (walk_eq_some_iff (Lands.kind?_start rooted path)).mp walked
  exact ⟨_, ⟨front, name, split, named, rfl, rfl⟩, directories⟩

/-- A file lies at a place now, below directories that were made if they were missing. -/
structure Placed (disk disk' : Disk) (above : List Place) (place : Place) (content : Bytes) :
    Prop where
  workPlace : disk'.workPlace = disk.workPlace
  kinds : ∀ other, disk'.kind? other =
    if other = place then some (.file content)
    else if other ∈ above then some .directory else disk.kind? other

theorem Extended.placed {disk made disk' : Disk} {above : List Place} {place : Place}
    {content : Bytes} (extended : Extended disk made above)
    (updated : Updated made disk' place (some (.file content))) :
    Placed disk disk' above place content where
  workPlace := updated.workPlace.trans extended.workPlace
  kinds other := by
    rw [updated.kinds, extended.kinds]

/-- A file may be put at a place: nothing but directories is, or will be, above it, and no directory
at it. -/
structure Open (disk : Disk) (above : List Place) (place : Place) : Prop where
  clear : disk.Clear above
  free : disk.kind? place ≠ some .directory
  apart : place ∉ above

theorem Open.extended {disk made : Disk} {above : List Place} {place : Place}
    (open_ : Open disk above place) (extended : Extended disk made above) :
    made.kind? place ≠ some .directory := by
  rw [extended.kinds, if_neg open_.apart]
  exact open_.free

namespace Placed
variable {disk disk' : Disk} {above : List Place} {place : Place} {content : Bytes}

theorem here (placed : Placed disk disk' above place content) :
    disk'.kind? place = some (.file content) := by
  rw [placed.kinds, if_pos rfl]

theorem keeps (placed : Placed disk disk' above place content) (open_ : Open disk above place) :
    Keeps disk disk' where
  workPlace := placed.workPlace
  directory other found := by
    rw [placed.kinds]
    split
    · rename_i same
      exact absurd (same ▸ found) open_.free
    · split
      · rfl
      · exact found

theorem above_directory (placed : Placed disk disk' above place content)
    (open_ : Open disk above place) :
    ∀ stop ∈ above, disk'.kind? stop = some .directory := by
  intro stop member
  rw [placed.kinds, if_neg, if_pos member]
  rintro rfl
  exact open_.apart member

/-- Every other file is as it was. -/
theorem file_iff (placed : Placed disk disk' above place content) (open_ : Open disk above place)
    {other : Place} (apart : other ≠ place) (bytes : Bytes) :
    disk'.kind? other = some (.file bytes) ↔ disk.kind? other = some (.file bytes) := by
  rw [placed.kinds, if_neg apart]
  split
  · rename_i member
    constructor
    · intro impossible
      cases impossible
    · intro file
      exact absurd file (open_.clear other member bytes)
  · rfl

theorem open_again (placed : Placed disk disk' above place content)
    (open_ : Open disk above place) :
    Open disk' above place where
  clear stop member bytes file := by
    rw [placed.above_directory open_ stop member] at file
    cases file
  free := by simp [placed.here]
  apart := open_.apart

/-- Putting the same file there again changes nothing. -/
theorem again {disk'' : Disk} (placed : Placed disk disk' above place content)
    (open_ : Open disk above place) (second : Placed disk' disk'' above place content) :
    disk'' = disk' := by
  apply eq_of_kinds second.workPlace
  intro other
  rw [second.kinds]
  split
  · rename_i same
    rw [same, placed.here]
  · split
    · rename_i member
      rw [placed.above_directory open_ other member]
    · rfl

end Placed

theorem named_next {place : Place} {step : String} (named : ∀ name ∈ place, IsName name)
    (own : step = ".." ∨ IsName step) : ∀ name ∈ next place step, IsName name := by
  intro name member
  unfold next at member
  split at member
  · exact named name (List.dropLast_subset _ member)
  · rename_i down
    rcases List.mem_append.mp member with early | late
    · exact named name early
    · rw [List.mem_singleton.mp late]
      exact own.resolve_left down

private theorem named_lead {place : Place} {steps : List String}
    (named : ∀ name ∈ place, IsName name) (own : ∀ step ∈ steps, step = ".." ∨ IsName step) :
    ∀ name ∈ lead place steps, IsName name := by
  induction steps generalizing place with
  | nil => exact named
  | cons step rest ih =>
    rw [List.forall_mem_cons] at own
    exact ih (named_next named own.1) own.2

private theorem named_way {place : Place} {steps : List String}
    (named : ∀ name ∈ place, IsName name) (own : ∀ step ∈ steps, step = ".." ∨ IsName step) :
    ∀ stop ∈ way place steps, ∀ name ∈ stop, IsName name := by
  induction steps generalizing place with
  | nil => simp [way]
  | cons step rest ih =>
    rw [List.forall_mem_cons] at own
    have first := named_next named own.1
    exact List.forall_mem_cons.mpr ⟨first, ih first own.2⟩

private theorem isName_of_step {path : Path} {step : String} (member : step ∈ path.segments)
    (leads : isStep step = true) : step = ".." ∨ IsName step := by
  by_cases up : step = ".."
  · exact .inl up
  · have notIdle : step ≠ "" ∧ step ≠ "." := by simpa [isStep] using leads
    exact .inr ⟨notIdle.1, notIdle.2, up, plain_of_mem_segments member⟩

/-- A path adds only names that it spells. -/
theorem Aims.named {disk : Disk} (rooted : disk.Rooted) {path : Path} {place : Place}
    {above : List Place} (aims : Aims disk path place above) :
    (∀ name ∈ place, IsName name) ∧ ∀ stop ∈ above, ∀ name ∈ stop, IsName name := by
  obtain ⟨front, name, split, named, rfl, rfl⟩ := aims
  have start : ∀ name ∈ disk.start path, IsName name := by
    unfold start
    split
    · simp
    · exact rooted.named
  have own : ∀ step ∈ front.filter isStep, step = ".." ∨ IsName step := by
    intro step member
    obtain ⟨inside, leads⟩ := List.mem_filter.mp member
    exact isName_of_step (split ▸ List.mem_append_left _ inside) leads
  refine ⟨?_, named_way start own⟩
  intro part member
  rcases List.mem_append.mp member with early | late
  · exact named_lead start own part early
  · rwa [List.mem_singleton.mp late]

end ClassCoverage.Disk
