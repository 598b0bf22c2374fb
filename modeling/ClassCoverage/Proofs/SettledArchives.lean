import ClassCoverage.Proofs.ArchiveEquivalence
import ClassCoverage.Proofs.StoreTotals

/-! Archives that stay as they are. A rewriter that leaves alone what it has made settles every
archive that it rewrites: when such an archive is rewritten again, not one byte of it changes. -/
namespace ClassCoverage
variable {σ : Type}

namespace Rewriter

/-- Whenever the rewriter is offered the class, it leaves it as it is and registers nothing. -/
def LeavesAlone (rewriter : Rewriter σ) (name : String) (content : Bytes) : Prop :=
  ∀ bench, ∃ answer bench', (rewriter name content).run.run bench = (.ok answer, bench') ∧
    answer.transformed = false ∧ bench'.store = bench.store

/-- A rewriter that does nothing twice. -/
structure Steady (rewriter : Rewriter σ) : Prop where
  /-- What the rewriter has made it leaves as it is, whatever name it is shown. -/
  own {name : String} {content : Bytes} {answer : Rewritten} {bench bench' : Bench σ}
    (answered : (rewriter name content).run.run bench = (.ok answer, bench'))
      (changed : answer.transformed = true)
    (other : String) (later : Bench σ) :
    ∃ answer' later', (rewriter other answer.bytes).run.run later = (.ok answer', later') ∧
      answer'.transformed = false
  /-- What it has left as it is once, it leaves as it is again. -/
  again {name : String} {content : Bytes} {answer : Rewritten} {bench bench' : Bench σ}
    (answered : (rewriter name content).run.run bench = (.ok answer, bench'))
      (same : answer.transformed = false)
    (later : Bench σ) :
    ∃ later', (rewriter name content).run.run later = (.ok answer, later')
  /-- It registers nothing of what it leaves as it is. -/
  quiet {name : String} {content : Bytes} {answer : Rewritten} {bench bench' : Bench σ}
    (answered : (rewriter name content).run.run bench = (.ok answer, bench'))
      (same : answer.transformed = false) :
    bench'.store = bench.store

variable {rewriter : Rewriter σ} {name : String} {content : Bytes} {answer : Rewritten}
  {bench bench' : Bench σ}

theorem Steady.leavesAlone (steady : rewriter.Steady)
    (answered : (rewriter name content).run.run bench = (.ok answer, bench'))
    (same : answer.transformed = false) :
    rewriter.LeavesAlone name content := by
  intro later
  obtain ⟨later', answered'⟩ := steady.again answered same later
  exact ⟨answer, later', answered', same, steady.quiet answered' same⟩

/-- Bytes that the rewriter leaves alone, whatever class they are shown as. -/
def Knows (rewriter : Rewriter σ) (content : Bytes) :
    Prop := ∀ name, rewriter.LeavesAlone name content

theorem Steady.knows (steady : rewriter.Steady)
    (answered : (rewriter name content).run.run bench = (.ok answer, bench'))
    (changed : answer.transformed = true) :
    rewriter.Knows answer.bytes := by
  intro other later
  obtain ⟨answer', later', answered', same⟩ := steady.own answered changed other later
  exact ⟨answer', later', answered', same, steady.quiet answered' same⟩

end Rewriter

/-- An entry that is carried over when its archive is rewritten. -/
structure Entry.Settled [Archive.Library] (rewriter : Rewriter σ) (keep : Bool) (entry : Entry) :
    Prop where
  found : entry.stored.isSome = true
  kept : entry.isDirectory = true → keep = true
  alone : entry.isClass = true → ∃ content, entry.Holds content ∧
    rewriter.LeavesAlone entry.name content

namespace Archive

/-- The content of an archive whose entries are all carried over, and that has the bytes it is then
given. -/
def Settled [Library] (rewriter : Rewriter σ) (keep : Bool) (content : Bytes) : Prop :=
  ∃ entries, Library.read? content = some entries ∧
    (∀ entry ∈ entries, entry.Settled rewriter keep) ∧
    Library.write (entries.map Entry.carriedOver) = content ∧
    Library.fits (entries.map Entry.carriedOver) = true

variable {rewriter : Rewriter σ} {options : Options} {entry : Entry} {entries : List Entry}

/-- Entries that were carried over, with nothing registered on the way. -/
structure CarriedOn (build build' : Rebuild σ) (entries : List Entry) : Prop where
  entries : build'.entries = build.entries ++ entries.map Entry.carriedOver
  store : build'.bench.store = build.bench.store
  transformed : build'.summary.transformed = build.summary.transformed

private theorem run_rebuildClass_of_settled [Library] {stored : Bytes}
    (settled : entry.Settled rewriter options.keepDirectoryEntries)
    (found : entry.stored = some stored) (isClass : entry.isClass = true) (path : Path)
    (build : Rebuild σ) :
    ∃ build', (builds rewriter (rebuildClass path entry stored)).run.run build = (.ok (), build') ∧
      CarriedOn build build' [entry] := by
  obtain ⟨content, ⟨readable, _, here, expanded⟩, alone⟩ := settled.alone isClass
  rw [found] at here
  cases here
  obtain ⟨answer, bench', answered, same, store⟩ := alone build.bench
  refine ⟨⟨bench', build.entries ++ [entry.carriedOver], { build.summary with
    classes := build.summary.classes + 1
    copied := build.summary.copied + 1 }⟩, ?_, rfl, store, rfl⟩
  unfold rebuildClass
  simp only [readable, Bool.not_true, Bool.false_eq_true, ↓reduceIte, expanded]
  rw [run_builds_bind, run_modify]
  simp only
  rw [run_builds_bind, run_offer]
  simp only [answered, same, Bool.false_eq_true, ↓reduceIte]
  rfl

private theorem run_rebuildEntry_of_settled [Library]
    (settled : entry.Settled rewriter options.keepDirectoryEntries) (path : Path)
    (build : Rebuild σ) :
    ∃ build', (builds rewriter (rebuildEntry path options entry)).run.run build = (.ok (), build') ∧
      CarriedOn build build' [entry] := by
  obtain ⟨stored, found⟩ := Option.isSome_iff_exists.mp settled.found
  unfold rebuildEntry
  rw [found]
  cases directory : entry.isDirectory with
  | true =>
    simp only [↓reduceIte, settled.kept directory]
    exact ⟨_, rfl, rfl, rfl, rfl⟩
  | false =>
    cases named : ClassName.isClassFile entry.name with
    | true =>
      simp only [Bool.false_eq_true, ↓reduceIte]
      exact run_rebuildClass_of_settled settled found
        (by simp [Entry.isClass, directory, named]) path build
    | false =>
      simp only [Bool.false_eq_true, ↓reduceIte]
      exact ⟨_, rfl, rfl, rfl, rfl⟩

/-- Settled entries are all carried over. -/
theorem run_rebuild_of_settled [Library]
    (settled : ∀ entry ∈ entries, entry.Settled rewriter options.keepDirectoryEntries) (path : Path)
    (build : Rebuild σ) :
    ∃ build', (builds rewriter (entries.forM (rebuildEntry path options))).run.run
      build = (.ok (), build') ∧
      CarriedOn build build' entries := by
  induction entries generalizing build with
  | nil => exact ⟨build, rfl, (List.append_nil _).symm, rfl, rfl⟩
  | cons entry entries ih =>
    rw [List.forall_mem_cons] at settled
    obtain ⟨middle, first, one⟩ := run_rebuildEntry_of_settled settled.1 path build
    obtain ⟨build', later, others⟩ := ih settled.2 middle
    refine ⟨build', ?_, ?_, others.store.trans one.store, others.transformed.trans one.transformed⟩
    · rw [List.forM, run_builds_bind, first]
      exact later
    · rw [others.entries, one.entries, List.append_assoc]
      rfl

/-- Rewriting a settled archive leaves the disk and the store as they are. -/
theorem run_rewrite_of_settled [Library] {disk : Disk} (rooted : disk.Rooted) {path : Path}
    {content : Bytes} {place : Place} (room : hasRoom path = true)
    (resolved : disk.resolve path = .ok place) (held : disk.kind? place = some (.file content))
    (settled : Settled rewriter options.keepDirectoryEntries content) (bench : Bench σ) :
    ∃ summary bench', (rewrite path rewriter options).run.run ⟨disk, bench⟩ =
      (.ok summary, ⟨disk, bench'⟩) ∧
      summary.transformed = 0 ∧ bench'.store = bench.store := by
  obtain ⟨entries, readable, each, written, fitting⟩ := settled
  have lands := Disk.lands_of_resolve rooted resolved held
  obtain ⟨build, built, carried⟩ :=
    run_rebuild_of_settled each path { bench := ⟨.empty, bench.memory⟩ }
  have all := carried.entries
  rw [List.nil_append] at all
  have merged : bench.store.merge build.bench.store = .ok bench.store := by
    rw [carried.store]
    exact Store.merge_empty bench.store
  have file : (⟨disk, bench⟩ : Workshop σ).disk.isFile path = true := lands.isFile held
  have ends := rewrite_ends rooted file rewriter options {}
  generalize ran : (rewrite path rewriter options).run.run ⟨disk, bench⟩ = ending at ends
  cases ends with
  | @replaced summary shop' place' content' entries' build' replaced =>
    obtain rfl : place' = place :=
      Except.ok.inj ((replaced.lands.resolve replaced.file).symm.trans resolved)
    cases held.symm.trans replaced.file
    cases readable.symm.trans replaced.readable
    have same : (.ok (), build) = (Except.ok (), build') := built.symm.trans replaced.rebuilt
    cases same
    have updated := replaced.updated
    rw [all, written] at updated
    have unchanged : shop'.disk = disk := by
      apply Disk.eq_of_kinds updated.workPlace
      intro other
      rw [updated.kinds]
      split
      · rename_i here
        rw [here, held]
      · rfl
    refine ⟨summary, shop'.bench, by rw [← unchanged], ?_, ?_⟩
    · rw [replaced.summary]
      exact carried.transformed
    · have sum := replaced.merged
      rw [merged] at sum
      exact (Except.ok.inj sum).symm
  | @preserved failure shop' copy place' copyPlace content' preserved why =>
    obtain ⟨never, -⟩ := why.resolve_left System.not_refuses_of_default
    obtain rfl : place' = place :=
      Except.ok.inj ((preserved.lands.resolve preserved.file).symm.trans resolved)
    cases held.symm.trans preserved.file
    exact absurd ⟨entries, build, bench.store, ⟨readable, built, all ▸ fitting⟩, merged⟩ never
  | unmoved _ why => cases room.symm.trans (why.resolve_left System.not_refuses_of_default)
  | copyLeft _ refused => exact (System.not_refuses_of_default refused).elim

private theorem settled_reread_carriedOver [Library] {keep : Bool}
    (found : entry.stored.isSome = true) (kept : entry.isDirectory = true → keep = true)
    (alone : entry.isClass = true → ∃ content, entry.Holds content ∧
      rewriter.LeavesAlone entry.name content) :
    (reread entry.carriedOver).Settled rewriter keep := by
  refine ⟨found, kept, ?_⟩
  intro isClass
  obtain ⟨content, ⟨readable, stored, own, expanded⟩, leaves⟩ := alone isClass
  refine ⟨content, ⟨?_, stored, own, expanded⟩, leaves⟩
  simp only [Entry.isReadable, Bool.and_eq_true] at readable ⊢
  exact ⟨rfl, readable.2⟩

private theorem settled_reread_withContent [Library] {keep : Bool} {head : EntryHead}
    {content : Bytes} (isClass : (Entry.withContent head content).isClass = true)
    (known : rewriter.Knows content) :
    (reread (Entry.withContent head content)).Settled rewriter keep := by
  refine ⟨rfl, ?_, fun _ => ⟨content, holds_withContent head content, known _⟩⟩
  intro directory
  have inside : (Entry.withContent head content).isDirectory = false := by
    simp only [Entry.isClass, Bool.and_eq_true, Bool.not_eq_true'] at isClass
    exact isClass.1
  exact absurd (inside.symm.trans directory) Bool.false_ne_true

/-- What becomes of an entry is settled when it is read back. -/
theorem settled_of_entryStep [Library] {keep : Bool} (steady : rewriter.Steady)
    {build build' : Rebuild σ} (step : EntryStep rewriter keep entry build build') :
    ∃ new, build'.entries = build.entries ++ new ∧ ∀ entry' ∈ new,
      (reread entry').Settled rewriter keep := by
  cases step with
  | dropped directory off => exact ⟨[], (List.append_nil _).symm, by simp⟩
  | carried found notClass kept =>
    refine ⟨[entry.carriedOver], rfl, List.forall_mem_singleton.mpr ?_⟩
    exact settled_reread_carriedOver found kept fun isClass =>
      absurd (notClass.symm.trans isClass) Bool.false_ne_true
  | @untouched content answer bench isClass holds answered same =>
    have kept : entry.isDirectory = true → keep = true := by
      intro directory
      simp [Entry.isClass, directory] at isClass
    refine ⟨[entry.carriedOver], rfl, List.forall_mem_singleton.mpr ?_⟩
    obtain ⟨stored, own, -⟩ := holds.2
    exact settled_reread_carriedOver (own ▸ rfl) kept fun _ =>
      ⟨content, holds, steady.leavesAlone answered same⟩
  | @transformed content answer bench isClass holds answered new =>
    refine ⟨[Entry.withContent entry.head answer.bytes], rfl, List.forall_mem_singleton.mpr ?_⟩
    exact settled_reread_withContent isClass (steady.knows answered new)

private theorem settled_of_rebuild [Library] (steady : rewriter.Steady) {path : Path}
    {build build' : Rebuild σ}
    (run : (builds rewriter (entries.forM (rebuildEntry path options))).run.run build =
      (.ok (), build')) :
    ∃ new, build'.entries = build.entries ++ new ∧
      ∀ entry ∈ new, (reread entry).Settled rewriter options.keepDirectoryEntries := by
  induction entries generalizing build with
  | nil =>
    cases run
    exact ⟨[], (List.append_nil _).symm, by simp⟩
  | cons entry entries ih =>
    obtain ⟨middle, first, later⟩ := builds_cons_ok run
    obtain ⟨one, own, settled⟩ := settled_of_entryStep steady (entryStep_of_rebuildEntry first)
    obtain ⟨others, all, settled'⟩ := ih later
    refine ⟨one ++ others, ?_, List.forall_mem_append.mpr ⟨settled, settled'⟩⟩
    rw [all, own, List.append_assoc]

/-! An entry that is carried over once more is written as it was before. -/

private theorem writtenMode_writtenMode (mode : Option Nat) :
    Entry.writtenMode (some (Entry.writtenMode mode)) = Entry.writtenMode mode := by
  simp only [Entry.writtenMode, Entry.regularFile, Option.getD_some]
  omega

/-- The entry has a mode that was written. -/
def HasWrittenMode (entry : Entry) : Prop := ∃ mode, entry.head.mode = some (Entry.writtenMode mode)

private theorem carriedOver_reread [Library] (own : HasWrittenMode entry)
    (open' : entry.head.encrypted = false) :
    (reread entry).carriedOver = reread entry := by
  obtain ⟨mode, own⟩ := own
  simp [reread, stamped, Entry.carriedOver, own, open', writtenMode_writtenMode]

/-- An archive that a steady rewriter has rewritten is settled. -/
theorem settled_of_replaced [Library] [LawfulLibrary] (steady : rewriter.Steady) {path : Path}
    {shop shop' : Workshop σ} {summary : Summary} {place : Place}
      {content : Bytes} {build : Rebuild σ}
    (replaced : Replaced path rewriter options shop summary shop' place content entries build) :
    Settled rewriter options.keepDirectoryEntries (Library.write build.entries) := by
  have readable := replaced.readable
  obtain ⟨calls, answers, new, rebuilt, -, same, -⟩ := rebuilt_of_run replaced.rebuilt
  obtain ⟨new', same', settled⟩ := settled_of_rebuild steady replaced.rebuilt
  rw [List.nil_append] at same same'
  obtain rfl : new' = new := same'.symm.trans same
  have fitting := replaced.fits
  rw [same] at fitting ⊢
  have storable := storable_of_rebuilt (LawfulLibrary.fromFields readable) rebuilt
  have distinct : (new'.map Entry.name).Nodup := by
    rw [names_of_rebuilt rebuilt]
    exact (LawfulLibrary.distinct readable).sublist (List.filter_sublist.map _)
  have again : (new'.map reread).map Entry.carriedOver = new'.map reread := by
    rw [List.map_map]
    refine List.map_congr_left fun entry member =>
      carriedOver_reread ?_ (storable entry member).encrypted
    obtain ⟨_, -, ⟨-, rfl⟩ | ⟨_, rfl⟩⟩ := rebuilt.origin entry member
    · exact ⟨_, rfl⟩
    · exact ⟨_, rfl⟩
  refine ⟨_, LawfulLibrary.read_write fitting storable distinct,
    List.forall_mem_map.mpr settled, ?_, ?_⟩
  · rw [again, LawfulLibrary.write_reread]
  · rw [again, LawfulLibrary.fits_reread, fitting]

end Archive
end ClassCoverage
