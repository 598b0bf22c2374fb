import ClassCoverage.Proofs.MirroredSteps
import ClassCoverage.Proofs.TreeDeeds

/-! Trees of classes on shared disks. What is written for a tree lies where nobody else writes, and
so a tree is rewritten as if nobody else were there. -/
namespace ClassCoverage.ClassTree
open Course
variable {ι σ α : Type} [DecidableEq ι] {realm : Realm ι} {blocked : Prop} {who : ι}
  {rewriter : Rewriter σ}
  {fallback : σ} {own : Disk} {store : Store} {place : Place}

/-- What lets a tree be rewritten on a shared disk: the files below the source are where nobody else
writes, and what is written is where the one who rewrites it may write. -/
structure Hosted (realm : Realm ι) (who : ι) (source destination : Path) : Prop where
  rooted : realm.origin.Rooted
  found : Found realm.origin source
  named : ∀ below ∈ filesBelow realm.origin (realm.origin.aim source),
    ∀ name ∈ below, Path.IsName name
  seen : ∀ place, Reached (realm.origin.aim source) place → realm.Visible who place
  solid : ∀ place, ¬ realm.loose who place
  goals : ∀ below ∈ filesBelow realm.origin (realm.origin.aim source),
    sameDirectory realm.origin source destination = false ∨
    ClassName.isClassFile (Text.join "/" below) = true →
      realm.area who (realm.origin.aim destination ++ below)
  ways : ∀ below ∈ filesBelow realm.origin (realm.origin.aim source),
    ∀ way ∈ realm.origin.wayTo destination below,
      realm.ways who way ∨ realm.origin.kind? way = some .directory
  inPlace : ∀ others shared, realm.pact who realm.origin others shared →
    filesBelow realm.origin (realm.origin.aim source) ≠ [] →
      sameDirectory shared source destination = sameDirectory realm.origin source destination

variable {source destination target : Path} {above : List Place} {next : Unit → Course α}

theorem mirrors_prepareParent_bind (fair : realm.Fair blocked) (rooted : realm.origin.Rooted)
    (aims : realm.origin.Aims target place above)
    (ways : ∀ way ∈ above, realm.ways who way ∨ realm.origin.kind? way = some .directory)
    (known : realm.Own who own)
    (later : ∀ made, own.Extended made above → realm.Own who made →
      (next ()).Mirrors rewriter fallback (realm.pact who) blocked made store) :
    (prepareParent target >>= next).Mirrors rewriter fallback
      (realm.pact who) blocked own store := by
  have rooted' := rooted.keep known.keeps
  have aims' := aims.keep known.keeps.workPlace
  obtain ⟨parent, found, tidy, same⟩ := aims'.parent
  have opened : prepareParent target =
      Course.change "create output directory" parent (·.makeDirectories parent) := by
    unfold prepareParent
    rw [found]
  rw [opened]
  have refused {disk : Disk} (keeps : own.Keeps disk) (blocks : ¬ disk.Clear above) :
      ∃ fault, disk.makeDirectories parent = .error fault := by
    cases makes : disk.makeDirectories parent with
    | error fault => exact ⟨fault, rfl⟩
    | ok made =>
      have clear := Disk.clear_of_makeDirectories (rooted'.keep keeps) tidy makes
      rw [Disk.start_keep keeps.workPlace, same] at clear
      exact absurd clear blocks
  have makes {disk : Disk} (keeps : own.Keeps disk) (clear : disk.Clear above) :
      ∃ made, disk.makeDirectories parent = .ok made ∧ disk.Extended made above := by
    rw [← same, ← Disk.start_keep keeps.workPlace] at clear ⊢
    exact Disk.makeDirectories_of_clear (rooted'.keep keeps) tidy clear
  apply Mirrors.change_bind
  · intro others shared holds
    obtain ⟨-, keeps, -⟩ := Realm.shared_of_pact holds
    have cases : shared.Clear above ∧ (Function.update others.1 who own who).Clear above ∨
        ¬ shared.Clear above ∧ (blocked ∨ ¬ (Function.update others.1 who own who).Clear above) :=
      holds.1.clear_cases fair ways
    rw [Function.update_self] at cases
    rcases cases with ⟨clear', clear⟩ | ⟨blocks, reason⟩
    · obtain ⟨own', made, extended⟩ := makes (.refl own) clear
      obtain ⟨shared', made', extended'⟩ := makes keeps clear'
      exact .inl ⟨own', shared', made, made',
        Realm.pact_extend holds extended extended' clear clear' ways⟩
    · obtain ⟨fault, failed⟩ := refused keeps blocks
      exact .inr ⟨fault, failed, reason.imp_right (refused (.refl own))⟩
  · intro made done allowed
    have clear : own.Clear above := by
      by_contra blocks
      obtain ⟨fault, failed⟩ := refused (.refl own) blocks
      rw [failed] at done
      cases done
    obtain ⟨made', done', extended⟩ := makes (.refl own) clear
    rw [done'] at done
    cases done
    exact later made extended (Realm.Own.of_allows allowed)

private theorem mirrors_writeClass (fair : realm.Fair blocked) (rooted : realm.origin.Rooted)
    (aims : realm.origin.Aims target place above)
    (ways : ∀ way ∈ above, realm.ways who way ∨ realm.origin.kind? way = some .directory)
    (mine : realm.area who place) (known : realm.Own who own) (bytes : Bytes) :
    (writeClass target bytes).Mirrors rewriter fallback (realm.pact who) blocked own store := by
  unfold writeClass
  apply mirrors_prepareParent_bind fair rooted aims ways known
  intro made extended known
  have rootedMade := rooted.keep known.keeps
  have lands := (aims.keep known.keeps.workPlace).lands rootedMade extended.directory
  apply Realm.mirrors_empty_bind fair rooted mine known lands
  intro emptied updated known
  apply Mirrors.change
  intro others shared holds
  have fills :=
    Realm.fill_emptied (rooted.keep known.keeps) (fair.visible mine) (lands.keep updated.keeps)
    updated.here bytes
  exact .inl (Realm.both_of_updated fair mine (.inl (by simp)) fills holds)

private theorem mirrors_copyFile (fair : realm.Fair blocked) (rooted : realm.origin.Rooted)
    (aims : realm.origin.Aims target place above)
    (ways : ∀ way ∈ above, realm.ways who way ∨ realm.origin.kind? way = some .directory)
    (mine : realm.area who place) {file : Path} {here : Place} {content : Bytes}
    (landsFile : realm.origin.Lands file here)
    (held : realm.origin.kind? here = some (.file content)) (solid : ¬ realm.loose who here)
    (visible : realm.Visible who here) (known : realm.Own who own) :
    (copyFile file target).Mirrors rewriter fallback (realm.pact who) blocked own store := by
  unfold copyFile
  apply mirrors_prepareParent_bind fair rooted aims ways known
  intro made extended known
  have rootedMade := rooted.keep known.keeps
  have lands := (aims.keep known.keeps.workPlace).lands rootedMade extended.directory
  apply Realm.mirrors_see_bind id landsFile held solid visible fun disk bytes lands now =>
    lands.read now
  intro _ _ _
  apply Realm.mirrors_empty_bind fair rooted mine known lands
  intro emptied updated known
  obtain ⟨bytes, now⟩ := known.stays here content held solid
  have landsEmptied := lands.keep updated.keeps
  apply Mirrors.change
  intro others shared holds
  have fills (disk : Disk) (keeps : emptied.Keeps disk)
      (same : ∀ place, realm.Visible who place → ∀ content,
      disk.kind? place = some (.file content) ↔ emptied.kind? place = some (.file content)) :
      ∃ disk', fillFrom file target disk = .ok disk' ∧
        disk.Updated disk' place (some (.file bytes)) := by
    unfold fillFrom
    rw [((landsFile.keep known.keeps).keep keeps).read ((same here visible bytes).mpr now)]
    exact Realm.fill_emptied (rooted.keep known.keeps) (fair.visible mine)
      landsEmptied updated.here bytes
      disk keeps same
  exact .inl (Realm.both_of_updated fair mine (.inl (by simp)) fills holds)

variable {below : Place}

private theorem mirrors_rewriteFile (fair : realm.Fair blocked)
    (hosted : Hosted realm who source destination)
    (member : below ∈ filesBelow realm.origin (realm.origin.aim source)) (summary : Summary) :
    (rewriteFile source destination (sameDirectory realm.origin source destination) summary
      (Scan.pathTo source below)).Mirrors rewriter fallback (realm.pact who) blocked own store := by
  obtain ⟨inside, kept, content, file⟩ := mem_filesBelow_iff.mp member
  have some : filesBelow realm.origin (realm.origin.aim source) ≠ [] := List.ne_nil_of_mem member
  have named := hosted.named below member
  have resolved := hosted.found some
  have lands := Scan.lands_pathTo resolved (kind?_of_filesBelow some) inside named file
  have relative := Path.relativeTo_pathTo (Disk.spelling_of_resolve resolved) named
  have visible := hosted.seen _ ⟨below, inside, kept, rfl⟩
  have solid := hosted.solid (realm.origin.aim source ++ below)
  have aims := Disk.aims_join realm.origin destination inside named
  have ways := hosted.ways below member
  have goals := hosted.goals below member
  unfold rewriteFile
  simp only [relative]
  apply Realm.mirrors_see_bind List.length lands file solid visible fun _ _ lands now =>
    lands.size now
  intro bytes known now
  split
  · rename_i offered
    apply Realm.mirrors_see_bind id lands file solid visible fun _ _ lands now => lands.read now
    intro bytes known now
    apply Mirrors.bind
    · unfold rewriteClass
      apply Mirrors.ask_bind
      intro rewritten store'
      split
      · rename_i written
        refine (mirrors_writeClass fair hosted.rooted aims ways (goals (.inr ?_)) known _).bind
          fun _ _ _ _ _ => .pure _
        exact (Bool.and_eq_true_iff.mp offered).1
      · exact (Mirrors.pure PUnit.unit).bind fun _ _ _ _ _ => .pure _
    · intro rewritten _ _ _ _
      split <;> exact .pure _
  · split
    · rename_i away
      refine (mirrors_copyFile fair hosted.rooted aims ways
        (goals (.inl ?_)) lands file solid visible
        known).bind fun _ _ _ _ _ => .pure _
      simpa using away
    · exact (Mirrors.pure PUnit.unit).bind fun _ _ _ _ _ => .pure _

/-- The tree looks as it did at the start, if only others have done anything. -/
theorem agree_of_hosted (hosted : Hosted realm who source destination) {others : (ι → Disk) × Disk}
    {shared : Disk} (holds : realm.pact who realm.origin others shared) :
    Delta.Agree (Reached (realm.origin.aim source)) realm.origin shared where
  workPlace := holds.1.workPlace
  files place reached := (Realm.shared_of_pact holds).2.2 place (hosted.seen place reached)

/-- The files of a tree are rewritten on a shared disk as they are on their own. -/
theorem mirrors_files (fair : realm.Fair blocked) (hosted : Hosted realm who source destination) :
    ((filesBelow realm.origin (realm.origin.aim source)).foldlM (fun summary below =>
      rewriteFile source destination (sameDirectory realm.origin source destination) summary
        (Scan.pathTo source below)) {}).Mirrors rewriter fallback (realm.pact who) blocked
          realm.origin store :=
  Mirrors.foldlM (fun _ member summary _ _ => mirrors_rewriteFile fair hosted member summary) _ _ _

section
variable {κ ε : Type} {pact : Pact κ ε} {part : κ} {P : κ → Prop} {files : List Place}

/-- The files of a source that is found whenever it is looked at are taken up one after another,
once it is known whether the source is rewritten in place. -/
theorem upholds_course_of_files {top : Place} {inPlace : Bool} {post : Summary → κ → Store → Prop}
    (notes : pact.Notes P) (start : P part)
    (resolved : ∀ own others disk, P own → pact own others disk → disk.resolve source = .ok top)
    (directory : ∀ own others disk, P own → pact own others disk →
      disk.kind? top = some .directory)
    (same : ∀ own others disk, P own → pact own others disk → filesBelow disk top = files)
    (place : ∀ own others disk, P own → pact own others disk →
      sameDirectory disk source destination = inPlace)
    (later : ∀ own, P own → (files.foldlM (fun summary below =>
      rewriteFile source destination inPlace summary (Scan.pathTo source below)) {}).Upholds
        rewriter pact blocked post own store) :
    (course source destination).Upholds rewriter pact blocked post part store := by
  apply Upholds.disk_bind
  intro others disk holds
  refine ⟨part, holds, ?_⟩
  rw [Disk.isDirectory_of_resolve (resolved part others disk start holds)
    (directory part others disk start holds)]
  apply Upholds.disk_bind
  intro others disk holds
  refine ⟨part, holds, ?_⟩
  have here : disk.canonical? source = some top := by
    rw [Disk.canonical?, resolved part others disk start holds]
    rfl
  apply Upholds.disk_bind
  intro others' disk' holds'
  refine ⟨part, holds', ?_⟩
  have here' : disk'.canonical? source = some top := by
    rw [Disk.canonical?, resolved part others' disk' start holds']
    rfl
  have known : samePlace source destination (disk.canonical? source)
      (disk'.canonical? destination) = inPlace := by
    rw [here, ← here']
    exact place part others' disk' start holds'
  dsimp only
  rw [known]
  refine (upholds_scan notes start resolved directory same).bind_mono ?_
  rintro _ own _ ⟨rfl, still, rfl⟩
  rw [List.foldlM_map]
  exact later own still

/-- A source without files is left alone, whether it is there or not. -/
theorem upholds_course_of_no_files (notes : pact.Notes P) (start : P part)
    (none : ∀ own others disk, P own → pact own others disk →
      disk.resolve source = .ok (disk.aim source) → filesBelow disk (disk.aim source) = []) :
    (course source destination).Upholds rewriter pact blocked
      (fun value own' store' => value = {} ∧ P own' ∧ store' = store) part store := by
  apply Upholds.disk_bind
  intro others disk holds
  obtain ⟨noted, since, holds'⟩ := notes part others disk start holds
  refine ⟨noted, holds', ?_⟩
  cases found : disk.isDirectory source with
  | false => exact ⟨rfl, since.1, rfl⟩
  | true =>
    obtain ⟨place, listing, resolved, here⟩ := Disk.resolve_of_isDirectory found
    have directory := Disk.at?_eq_directory_iff.mp ⟨listing, here⟩
    have resolves (own : κ) (others : ε) (disk' : Disk) (known : pact.Since P disk own)
        (holds : pact own others disk') : disk'.resolve source = .ok place :=
      Disk.resolve_keep (known.2 others disk' holds) resolved directory
    have directories (own : κ) (others : ε) (disk' : Disk) (known : pact.Since P disk own)
        (holds : pact own others disk') : disk'.kind? place = some .directory :=
      (known.2 others disk' holds).directory place directory
    have empty (own : κ) (others : ε) (disk' : Disk) (known : pact.Since P disk own)
        (holds : pact own others disk') : filesBelow disk' place = [] := by
      have resolved' := resolves own others disk' known holds
      have aim := Disk.aim_of_resolve resolved'
      rw [← aim]
      exact none own others disk' known.1 holds (aim.symm ▸ resolved')
    refine .inr fun others disk' holds => ⟨noted, holds, ?_⟩
    refine .inr fun others disk'' holds => ⟨noted, holds, ?_⟩
    refine (upholds_scan (notes.since disk) since resolves directories empty).bind_mono ?_
    rintro _ own _ ⟨rfl, known, rfl⟩
    exact ⟨rfl, known.1, rfl⟩

end

end ClassCoverage.ClassTree
