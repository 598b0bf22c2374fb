import ClassCoverage.Proofs.ArchiveRoundTrip
import ClassCoverage.Proofs.DeflateRoundTrip
import ClassCoverage.Proofs.RebuildRun
import ClassCoverage.Proofs.RewriteOutcome

/-! Rewritten archives. The new archive has the entries of the old one in their order, and differs
from it only in what the rewriter transformed. -/
namespace ClassCoverage.Archive
variable {σ : Type}

/-- An entry with the data of another one, as it is stored. -/
structure Carried (old new : Entry) : Prop where
  name : new.name = old.name
  method : new.head.method = old.head.method
  checksum : new.head.checksum = old.head.checksum
  size : new.head.size = old.head.size
  stored : new.stored = old.stored

/-- An entry that differs from another one in its content, and in what follows from that. -/
structure Renewed [Library] (old : Entry) (content : Bytes) (new : Entry) : Prop where
  name : new.name = old.name
  method : new.head.method = if old.head.method = .stored then .stored else .deflated
  holds : new.Holds content
  size : new.head.size = content.length
  stamp : ∀ stamp, old.head.stamp = some stamp → new.head.stamp = some stamp
  permissions : ∀ mode, old.head.mode = some mode →
    ∃ written, new.head.mode = some written ∧ written % 0o1000 = mode % 0o1000

theorem carried_reread [Library] {old new : Entry} (carried : CarriedOver old new) :
    Carried old (reread new) := by
  obtain ⟨-, rfl⟩ := carried
  exact ⟨rfl, rfl, rfl, rfl, rfl⟩

theorem holds_withContent [Library] (head : EntryHead) (content : Bytes) :
    (reread (Entry.withContent head content)).Holds content := by
  unfold Entry.withContent
  by_cases plain : head.method = .stored
  · rw [if_pos plain]
    refine ⟨rfl, content, rfl, ?_⟩
    simp [reread, stamped, Entry.content, bind, Except.bind, pure, Except.pure]
  · have packed : Entry.expand .deflated (Deflate.pack content) = .ok content := by
      simp [Entry.expand, Entry.expander?, Deflate.expand?_pack]
    rw [if_neg plain]
    refine ⟨rfl, Deflate.pack content, rfl, ?_⟩
    simp [reread, stamped, Entry.content, packed, bind, Except.bind, pure, Except.pure]

private theorem writtenMode_permissions (mode : Nat) :
    Entry.writtenMode (some mode) % 0o1000 = mode % 0o1000 := by
  simp only [Entry.writtenMode, Entry.regularFile, Option.getD_some]
  omega

theorem renewed_reread [Library] {old new : Entry} {content : Bytes}
    (given : GivenContent old content new) :
    Renewed old content (reread new) := by
  cases given
  refine ⟨rfl, rfl, holds_withContent old.head content, rfl, fun stamp own => ?_, fun mode own =>
    ?_⟩
  · simp [reread, stamped, Entry.withContent, own]
  · refine ⟨Entry.writtenMode (some mode), ?_, writtenMode_permissions mode⟩
    simp [reread, stamped, Entry.withContent, own]

namespace Rebuilt
variable {carry carry' : Entry → Entry → Prop} {renew renew' : Entry → Bytes → Entry → Prop}
  {keep : Bool} {old new : List Entry} {calls : List Call} {answers : List Rewritten}

theorem map [Library] (rebuilt : Rebuilt carry renew keep old calls answers new) (f : Entry → Entry)
    (carried : ∀ entry entry', carry entry entry' → carry' entry (f entry'))
    (renewed : ∀ entry content entry', renew entry content entry' →
      renew' entry content (f entry')) :
    Rebuilt carry' renew' keep old calls answers (new.map f) := by
  induction rebuilt with
  | nil => exact .nil
  | dropped directory off _ ih => exact .dropped directory off ih
  | carried notClass kept same _ ih => exact .carried notClass kept (carried _ _ same) ih
  | untouched isClass holds untransformed same _ ih =>
    exact .untouched isClass holds untransformed (carried _ _ same) ih
  | transformed isClass holds changed new _ ih =>
    exact .transformed isClass holds changed (renewed _ _ _ new) ih

private theorem origin_cons {came : Entry → Entry → Prop} {entry entry' : Entry}
    (first : came entry entry') (later : ∀ other' ∈ new, ∃ other ∈ old, came other other') :
    ∀ other' ∈ entry' :: new, ∃ other ∈ entry :: old, came other other' := by
  refine List.forall_mem_cons.mpr ⟨⟨entry, List.mem_cons_self .., first⟩, fun other' member => ?_⟩
  obtain ⟨other, held, origin⟩ := later other' member
  exact ⟨other, List.mem_cons_of_mem entry held, origin⟩

/-- Every new entry comes from an old one. -/
theorem origin [Library] (rebuilt : Rebuilt carry renew keep old calls answers new) :
    ∀ entry' ∈ new, ∃ entry ∈ old, carry entry entry' ∨ ∃ content, renew entry content entry' := by
  induction rebuilt with
  | nil => simp
  | dropped _ _ _ ih =>
    intro entry' member
    obtain ⟨entry, held, came⟩ := ih entry' member
    exact ⟨entry, List.mem_cons_of_mem _ held, came⟩
  | carried _ _ same _ ih => exact origin_cons (.inl same) ih
  | untouched _ _ _ same _ ih => exact origin_cons (.inl same) ih
  | transformed _ _ _ renewed _ ih => exact origin_cons (.inr ⟨_, renewed⟩) ih

/-- Nothing but directories is left out, and nothing is moved or added. -/
theorem names [Library] (rebuilt : Rebuilt carry renew keep old calls answers new)
    (carried : ∀ entry entry', carry entry entry' → entry'.name = entry.name)
    (renewed : ∀ entry content entry', renew entry content entry' → entry'.name = entry.name) :
    new.map Entry.name = (old.filter (Entry.remains keep)).map Entry.name := by
  have offered {entry : Entry} (isClass : entry.isClass = true) : entry.remains keep = true := by
    simp only [Entry.isClass, Bool.and_eq_true, Bool.not_eq_true'] at isClass
    rw [Entry.remains, isClass.1, Bool.not_false, Bool.or_true]
  induction rebuilt with
  | nil => rfl
  | dropped directory off _ ih =>
    rw [List.filter_cons_of_neg (by simp [Entry.remains, directory, off]), ih]
  | @carried entry _ _ _ _ _ _ kept same _ ih =>
    have stays : entry.remains keep = true := by
      unfold Entry.remains
      cases directory : entry.isDirectory with
      | true => rw [kept directory, Bool.true_or]
      | false => rw [Bool.not_false, Bool.or_true]
    rw [List.filter_cons_of_pos stays, List.map_cons, List.map_cons, carried _ _ same, ih]
  | untouched isClass _ _ same _ ih =>
    rw [List.filter_cons_of_pos (offered isClass), List.map_cons, List.map_cons,
      carried _ _ same, ih]
  | transformed isClass _ _ new _ ih =>
    rw [List.filter_cons_of_pos (offered isClass), List.map_cons, List.map_cons,
      renewed _ _ _ new, ih]

/-- Every class is offered once. -/
theorem calls_eq [Library] (rebuilt : Rebuilt carry renew keep old calls answers new) :
    calls.map Prod.fst = (old.filter Entry.isClass).map Entry.name := by
  induction rebuilt with
  | nil => rfl
  | dropped directory _ _ ih =>
    rw [List.filter_cons_of_neg (by simp [Entry.isClass, directory]), ih]
  | carried notClass _ _ _ ih => rw [List.filter_cons_of_neg (by simp [notClass]), ih]
  | untouched isClass _ _ _ _ ih =>
    rw [List.filter_cons_of_pos isClass, List.map_cons, List.map_cons, ih]
  | transformed isClass _ _ _ _ ih =>
    rw [List.filter_cons_of_pos isClass, List.map_cons, List.map_cons, ih]

end Rebuilt

private theorem length_remains (keep : Bool) (old : List Entry) :
    (if keep then 0 else (old.filter Entry.isDirectory).length) +
      (old.filter (Entry.remains keep)).length = old.length := by
  cases keep with
  | true =>
    have all : old.filter (Entry.remains true) = old := List.filter_eq_self.mpr fun _ _ => rfl
    rw [all, if_pos rfl, Nat.zero_add]
  | false =>
    have others : Entry.remains false = fun entry => !entry.isDirectory := rfl
    rw [others, if_neg (by decide)]
    exact (List.length_eq_length_filter_add Entry.isDirectory).symm

private theorem writtenMode_bounds (mode : Option Nat) :
    Entry.writtenMode mode ≠ 0 ∧ Entry.writtenMode mode < 2 ^ (16 : Nat) := by
  simp only [Entry.writtenMode, Entry.regularFile, Entry.plainPermissions]
  omega

/-- What is built from entries that were read can be written. -/
theorem storable_of_rebuilt [Library] {keep : Bool} {old new : List Entry} {calls : List Call}
    {answers : List Rewritten} (sound : ∀ entry ∈ old, FromFields entry.head)
    (rebuilt : Rebuilt CarriedOver GivenContent keep old calls answers new) :
    ∀ entry ∈ new, Storable entry := by
  intro entry' member
  obtain ⟨entry, held, came⟩ := rebuilt.origin entry' member
  obtain ⟨method, stamp⟩ := sound entry held
  rcases came with ⟨found, rfl⟩ | ⟨content, rfl⟩
  · exact {
      method := method
      stamp := stamp
      encrypted := rfl
      mode := ⟨_, rfl, writtenMode_bounds entry.head.mode⟩
      stored := found }
  · have method' : ∃ code, (Entry.withContent entry.head content).head.method = .ofCode code ∧
        code < 2 ^ (16 : Nat) := by
      by_cases plain : entry.head.method = .stored
      · exact ⟨0, by simp [Entry.withContent, plain, Method.ofCode], by decide⟩
      · exact ⟨8, by simp [Entry.withContent, plain, Method.ofCode], by decide⟩
    exact {
      method := method'
      stamp := stamp
      encrypted := rfl
      mode := ⟨_, rfl, writtenMode_bounds entry.head.mode⟩
      stored := rfl }

/-- An archive and what became of it: its entries, the classes that the rewriter was offered and
what it answered, and the entries of the new archive. The bench is that of the rewriter at the
end. -/
structure Equivalent [Library] (path : Path) (rewriter : Rewriter σ) (options : Options)
    (shop : Workshop σ) (summary : Summary) (shop' : Workshop σ) (old new : List Entry)
    (calls : List Call) (answers : List Rewritten) (bench : Bench σ) : Prop where
  before : ∃ content, shop.disk.read path = .ok content ∧ Library.read? content = some old
  after : ∃ content, shop'.disk.read path = .ok content ∧ Library.read? content = some new
  distinct : (old.map Entry.name).Nodup
  rebuilt : Rebuilt Carried Renewed options.keepDirectoryEntries old calls answers new
  names : new.map Entry.name =
    (old.filter (Entry.remains options.keepDirectoryEntries)).map Entry.name
  offered : calls.map Prod.fst = (old.filter Entry.isClass).map Entry.name
  answered : (offerAll rewriter calls).run.run ⟨.empty, shop.bench.memory⟩ = (.ok answers, bench)
  classes : summary.classes = calls.length
  transformed : summary.transformed = (answers.filter Rewritten.transformed).length
  counted : summary.transformed + summary.copied + summary.directoriesSkipped = old.length
  skipped : summary.directoriesSkipped =
    if options.keepDirectoryEntries then 0 else (old.filter Entry.isDirectory).length
  memory : shop'.bench.memory = bench.memory
  merged : shop.bench.store.merge bench.store = .ok shop'.bench.store

/-- The names of new entries are some of the old ones. -/
theorem names_of_rebuilt [Library] {keep : Bool} {old new : List Entry} {calls : List Call}
    {answers : List Rewritten}
    (rebuilt : Rebuilt CarriedOver GivenContent keep old calls answers new) :
    new.map Entry.name = (old.filter (Entry.remains keep)).map Entry.name :=
  rebuilt.names (fun _ _ same => same.2 ▸ rfl) (fun _ _ _ same => same ▸ rfl)

/-- What is built from an archive that was read is read back once it is written. -/
theorem read_of_rebuilt [Library] [LawfulLibrary] {keep : Bool} {content : Bytes}
    {old new : List Entry} {calls : List Call} {answers : List Rewritten}
    (readable : Library.read? content = some old)
    (rebuilt : Rebuilt CarriedOver GivenContent keep old calls answers new)
    (fitting : Library.fits new = true) :
    Library.read? (Library.write new) = some (new.map reread) := by
  have distinct : (new.map Entry.name).Nodup := by
    rw [names_of_rebuilt rebuilt]
    exact (LawfulLibrary.distinct readable).sublist (List.filter_sublist.map _)
  exact LawfulLibrary.read_write fitting
    (storable_of_rebuilt (LawfulLibrary.fromFields readable) rebuilt) distinct

/-- What was built from an archive is read back from the place it was written to. -/
theorem rebuilt_of_replaced [Library] [LawfulLibrary] {path : Path} {rewriter : Rewriter σ}
    {options : Options} {shop shop' : Workshop σ} {summary : Summary} {place : Place}
    {content : Bytes} {old : List Entry} {build : Rebuild σ}
    (replaced : Replaced path rewriter options shop summary shop' place content old build) :
    ∃ calls answers new content',
      Rebuilt CarriedOver GivenContent options.keepDirectoryEntries old calls answers new ∧
      (offerAll rewriter calls).run.run ⟨.empty, shop.bench.memory⟩ = (.ok answers, build.bench) ∧
      Counted {} old calls answers new summary ∧
      shop'.disk.read path = .ok content' ∧ Library.read? content' = some (new.map reread) := by
  obtain ⟨calls, answers, new, rebuilt, offered, entries, counted⟩ :=
    rebuilt_of_run replaced.rebuilt
  rw [List.nil_append] at entries
  have fitting := replaced.fits
  have here := replaced.updated.here
  rw [entries] at fitting here
  have written := read_of_rebuilt replaced.readable rebuilt fitting
  have landsAfter := replaced.lands.keep replaced.updated.keeps
  exact ⟨calls, answers, new, _, rebuilt, offered, replaced.summary ▸ counted,
    landsAfter.read here, written⟩

private theorem equivalent_of_replaced [Library] [LawfulLibrary] {path : Path}
    {rewriter : Rewriter σ} {options : Options} {shop shop' : Workshop σ} {summary : Summary}
    {place : Place} {content : Bytes} {old : List Entry} {build : Rebuild σ}
    (replaced : Replaced path rewriter options shop summary shop' place content old build) :
    ∃ new calls answers,
      Equivalent path rewriter options shop summary shop' old new calls answers build.bench := by
  obtain ⟨calls, answers, new, content', rebuilt, offered, counted, read, written⟩ :=
    rebuilt_of_replaced replaced
  have names := names_of_rebuilt rebuilt
  obtain ⟨classes, transformed, total, skipped⟩ := counted
  simp only at total skipped
  have length := congrArg List.length names
  rw [List.length_map, List.length_map] at length
  have parts := length_remains options.keepDirectoryEntries old
  refine ⟨new.map reread, calls, answers, ?_⟩
  exact {
    before := ⟨content, replaced.lands.read replaced.file, replaced.readable⟩
    after := ⟨content', read, written⟩
    distinct := LawfulLibrary.distinct replaced.readable
    rebuilt := rebuilt.map reread (fun _ _ => carried_reread) (fun _ _ _ => renewed_reread)
    names := (names_reread new).trans names
    offered := rebuilt.calls_eq
    answered := offered
    classes := classes.trans (Nat.zero_add _)
    transformed := transformed.trans (Nat.zero_add _)
    counted := by omega
    skipped := by omega
    memory := replaced.memory
    merged := replaced.merged }

/-- A successful rewriting replaces an archive by an equivalent one. -/
theorem rewrite_success_equivalent [Library] [LawfulLibrary] {path : Path} {rewriter : Rewriter σ}
    {options : Options} {system : System} {shop shop' : Workshop σ} {summary : Summary}
    (rooted : shop.disk.Rooted)
    (succeeded : (rewrite path rewriter options system).run.run shop = (.ok summary, shop')) :
    ∃ old new calls answers bench,
      Equivalent path rewriter options shop summary shop' old new calls answers bench := by
  obtain ⟨_, _, old, build, replaced⟩ := replaced_of_success rooted succeeded
  obtain ⟨new, calls, answers, equivalent⟩ := equivalent_of_replaced replaced
  exact ⟨old, new, calls, answers, build.bench, equivalent⟩

/-- An archive with a directory and a class. -/
def smallArchive : Bytes :=
  write [{ head := { name := "lib/" }, stored := some [] },
    { head := { name := "lib/A.class", size := 1, checksum := Crc32.checksum [7] }
      stored := some [7] }]

/-! An archive with a class that was packed by a method that not every library knows. -/

/-- The class of the small archive as bzip2 packs it. -/
private def packedClass : Bytes :=
  [66, 90, 104, 57, 49, 65, 89, 38, 83, 89, 175, 176, 16, 78, 0, 0, 0, 64, 0, 0, 128, 32, 0, 33, 24,
    70, 130, 238, 72, 167, 10, 18, 21, 246, 2, 9, 192]

/-- A library that undoes bzip2, as far as it is needed. -/
@[reducible] private def packedLibrary : Library where
  read? := read?
  write := write
  fits := fits
  usualStamp := .earliest
  expander? code := if code = 12 then
      some fun stored => if stored = packedClass then .ok [7] else .error (.described "bzip2")
    else none

section
attribute [local instance] packedLibrary

private theorem packedLibrary_lawful : LawfulLibrary where
  distinct := plainLibrary_lawful.distinct
  fromFields := plainLibrary_lawful.fromFields
  read_write := plainLibrary_lawful.read_write
  write_reread := plainLibrary_lawful.write_reread
  fits_reread := plainLibrary_lawful.fits_reread

private def packedShop : Workshop Unit where
  disk := {
    root := .file "app.jar" (write [{ head := { name := "lib/" }, stored := some [] },
      { head :=
          { name := "lib/A.class", method := .other 12, size := 1, checksum := Crc32.checksum [7] }
        stored := some packedClass }]) .empty
    ordered := ⟨by simp [Listing.names], trivial⟩
    workPlace := [] }
  bench := ⟨.empty, ()⟩

/-- A rewriter that adds a byte to every class. -/
def lengthen : Rewriter Unit := fun _ content => pure ⟨content ++ [0], true⟩

attribute [local instance] packedLibrary_lawful in
theorem rewrite_success_of_packed_class :
    ∃ shop', (rewrite ⟨"app.jar"⟩ lengthen {}).run.run packedShop =
        (.ok { classes := 1, transformed := 1, directoriesSkipped := 1 }, shop') ∧
      ∃ old new calls answers bench, Equivalent ⟨"app.jar"⟩ lengthen {} packedShop
        { classes := 1, transformed := 1, directoriesSkipped := 1 } shop' old new
          calls answers bench := by
  have rooted : packedShop.disk.Rooted := ⟨rfl, by simp [packedShop]⟩
  have answered : ((rewrite ⟨"app.jar"⟩ lengthen {}).run.run packedShop).1 =
      .ok { classes := 1, transformed := 1, directoriesSkipped := 1 } := by decide +kernel
  cases ran : (rewrite ⟨"app.jar"⟩ lengthen {}).run.run packedShop with
  | mk result shop' =>
    rw [ran] at answered
    cases answered
    exact ⟨shop', rfl, rewrite_success_equivalent rooted ran⟩

end
end ClassCoverage.Archive
