import ClassCoverage.Proofs.ArchiveEquivalence
import ClassCoverage.Proofs.OfferedClasses

/-! The same files in an archive and in a tree. A rewriter that follows a plan is offered the same
classes by both, and in the end both have the same files again. Class files without anything behind
their header are set apart: they are classes in an archive and resources in a tree. -/
namespace ClassCoverage
open ClassCoverage.Path ClassCoverage.Archive

variable {σ : Type} {plan : Plan} {rewriter : Rewriter σ}

namespace Plan

/-- What the plan answers to a call. -/
def answer? (plan : Plan) (call : Call) : Option Rewritten := (plan call.1 call.2).map Prod.fst

/-- What becomes of a file. -/
def bytesOf (plan : Plan) (name : String) (content : Bytes) : Bytes :=
  if ClassName.isClassFile name then
    ((plan.answer? (name, content)).map Rewritten.bytes).getD content else content

/-- A class that is not transformed is left as it is. -/
def LeavesOthers (plan : Plan) : Prop :=
  ∀ call answer, plan.answer? call = some answer → answer.transformed = false →
    answer.bytes = call.2

theorem bytesOf_of_answer {name : String} {content : Bytes} {answer : Rewritten}
    (isClass : ClassName.isClassFile name = true)
    (planned : plan.answer? (name, content) = some answer) :
    plan.bytesOf name content = answer.bytes := by
  rw [bytesOf, if_pos isClass, planned]
  rfl

theorem bytesOf_of_resource {name : String} (resource : ClassName.isClassFile name = false)
    (content : Bytes) :
    plan.bytesOf name content = content := by
  rw [bytesOf, resource]
  rfl

end Plan

/-- A rewriter gives the answers of its plan, and registers the records that go with them. -/
theorem Rewriter.Follows.offerAll_ok (follows : rewriter.Follows plan) {calls : List Call}
    {answers : List Rewritten} {bench bench' : Bench σ}
    (run : (offerAll rewriter calls).run.run bench = (.ok answers, bench')) :
    List.Forall₂ (fun call answer => plan.answer? call = some answer) calls answers ∧
      bench.store.insertAll (plan.recordsOf calls) = .ok bench'.store := by
  induction calls generalizing bench answers with
  | nil =>
    cases run
    exact ⟨.nil, rfl⟩
  | cons call calls ih =>
    obtain ⟨name, content⟩ := call
    unfold offerAll at run ih
    rw [List.mapM_cons] at run
    obtain ⟨answer, middle, first, run⟩ := Steps.run_bind_ok run
    obtain ⟨others, _, later, given⟩ := Steps.run_bind_ok run
    cases given
    obtain ⟨matched, stored⟩ := ih later
    cases planned : plan name content with
    | none =>
      obtain ⟨failure, _, refused⟩ := follows.refuses planned bench
      rw [first] at refused
      cases refused
    | some outcome =>
      obtain ⟨own, records⟩ := outcome
      have whole : plan.recordsOf ((name, content) :: calls) = records ++ plan.recordsOf calls := by
        rw [Plan.recordsOf, List.flatMap_cons]
        simp only [planned]
        rfl
      rw [whole, Store.insertAll_append]
      cases inserted : bench.store.insertAll records with
      | error conflict =>
        obtain ⟨failure, _, refused⟩ := follows.conflicts planned bench inserted
        rw [first] at refused
        cases refused
      | ok store =>
        obtain ⟨memory, answered⟩ := follows.answers planned bench inserted
        rw [first] at answered
        cases answered
        exact ⟨.cons (congrArg (Option.map Prod.fst) planned) matched, stored⟩

theorem answers_eq {calls : List Call} {answers : List Rewritten}
    (matched : List.Forall₂ (fun call answer => plan.answer? call = some answer) calls answers) :
    answers = calls.filterMap plan.answer? := by
  induction matched with
  | nil => rfl
  | cons first _ ih => rw [List.filterMap_cons_some first, ← ih]

/-- What classes come to under a plan: the records in the store, and how many there are and were
transformed. -/
structure Plan.Outcome (plan : Plan) (classes : List Call) (store : Store)
    (offered transformed : Nat) (store' : Store) :
    Prop where
  store : store.insertAll (plan.recordsOf classes) = .ok store'
  offered : offered = classes.length
  transformed : transformed = ((classes.filterMap plan.answer?).filter Rewritten.transformed).length

/-- The order of the classes does not count. -/
theorem Plan.Outcome.agree {classes classes' : List Call} {store one other : Store}
    {offered transformed offered' transformed' : Nat} (perm : classes.Perm classes')
    (first : plan.Outcome classes store offered transformed one)
    (second : plan.Outcome classes' store offered' transformed' other) :
    one = other ∧ offered = offered' ∧ transformed = transformed' := by
  refine ⟨?_, ?_, ?_⟩
  · obtain ⟨compatible, rfl⟩ := Store.insertAll_eq_ok_iff.mp first.store
    obtain ⟨-, rfl⟩ := Store.insertAll_eq_ok_iff.mp second.store
    have records : ((plan.recordsOf classes).map Store.single).Perm
        ((plan.recordsOf classes').map Store.single) :=
      (perm.flatMap_right _).map _
    rw [Store.total_perm records (Store.allCompatible_cons_iff.mp compatible).1]
  · rw [first.offered, second.offered, perm.length_eq]
  · rw [first.transformed, second.transformed, ((perm.filterMap _).filter _).length_eq]

/-- An entry that a file is packed in. -/
structure Entry.Packs [Archive.Library] (entry : Entry) (disk : Disk) (top below : Place) :
    Prop where
  file : entry.isDirectory = false
  name : entry.name = Text.join "/" below
  holds : ∃ content, disk.kind? (top ++ below) = some (.file content) ∧ entry.Holds content

/-- An archive that files below a place are packed in, in this order. There may be directories
between them. -/
def Archive.PackedAs [Archive.Library] (disk : Disk) (top : Place) (entries : List Entry)
    (order : List Place) : Prop :=
  List.Forall₂ (fun entry below => entry.Packs disk top below)
    (entries.filter (Entry.remains false)) order

/-- An archive that files below a place are packed in, each once and in any order. -/
def Archive.Packs [Archive.Library] (entries : List Entry) (disk : Disk) (top : Place)
    (files : List Place) : Prop :=
  ∃ order, order.Perm files ∧ PackedAs disk top entries order

/-- Every class file below a place has something behind its header. -/
def ClassTree.NoStubs (disk : Disk) (top : Place) : Prop :=
  ∀ below ∈ ClassTree.filesBelow disk top, ∀ content, disk.kind? (top ++ below) =
    some (.file content) →
    ClassName.isClassFile (Text.join "/" below) = true → ClassTree.headerSize < content.length

theorem Entry.Holds.unique [Archive.Library] {entry : Entry} {content content' : Bytes}
    (one : entry.Holds content) (other : entry.Holds content') : content' = content := by
  obtain ⟨-, stored, found, expanded⟩ := one
  obtain ⟨-, stored', found', expanded'⟩ := other
  cases found.symm.trans found'
  exact Except.ok.inj (expanded'.symm.trans expanded)

theorem ClassTree.isOffered_of_noStubs {disk : Disk} {top below : Place} {content : Bytes}
    (noStubs : NoStubs disk top) (member : below ∈ filesBelow disk top)
    (held : disk.kind? (top ++ below) = some (.file content)) :
    isOffered (Text.join "/" below) content.length =
      ClassName.isClassFile (Text.join "/" below) := by
  unfold isOffered
  cases isClass : ClassName.isClassFile (Text.join "/" below) with
  | false => rfl
  | true => simpa using noStubs below member content held isClass

namespace Archive

/-- The class in an entry is the class in its file. -/
theorem class?_of_packs [Archive.Library] {entry : Entry} {disk : Disk} {top below : Place}
    (noStubs : ClassTree.NoStubs disk top) (member : below ∈ ClassTree.filesBelow disk top)
    (packs : entry.Packs disk top below) :
    class? entry = ClassTree.class? disk top below := by
  obtain ⟨file, name, content, held, -, stored, found, expanded⟩ := packs
  rw [ClassTree.class?_of_held held, ClassTree.isOffered_of_noStubs noStubs member held]
  unfold class? Entry.isClass
  rw [file, name, found]
  simp only [Bool.not_false, Bool.true_and, expanded]
  rfl

theorem class?_of_directory [Archive.Library] {entry : Entry}
    (directory : entry.isDirectory = true) :
    class? entry = none :=
  class?_of_not_isClass (by simp [Entry.isClass, directory])

private theorem holds_carriedOver [Archive.Library] {entry entry' : Entry}
    (carried : CarriedOver entry entry') {content : Bytes} (holds : entry.Holds content) :
    (reread entry').Holds content := by
  obtain ⟨readable, stored, found, expanded⟩ := holds
  obtain ⟨-, rfl⟩ := carried
  refine ⟨?_, stored, ?_, expanded⟩
  · unfold Entry.isReadable at readable ⊢
    simp only [Bool.and_eq_true] at readable
    exact readable.2
  · simp [reread, Entry.carriedOver, found]

/-- The files of one disk, as the plan makes them, are at another place of another disk. -/
def Planned (plan : Plan) (disk disk' : Disk) (top top' : Place) (files : List Place) : Prop :=
  ∀ below ∈ files, ∀ content, disk.kind? (top ++ below) = some (.file content) →
    disk'.kind? (top' ++ below) = some (.file (plan.bytesOf (Text.join "/" below) content))

section
variable {disk disk' : Disk} {top top' : Place} {order : List Place} {entry entry' : Entry}
  {old new : List Entry}

theorem isDirectory_of_name (name : entry'.name = entry.name) :
    entry'.isDirectory = entry.isDirectory := by
  unfold Entry.isDirectory
  rw [name]

theorem packedAs_cons_of_directory [Archive.Library] (directory : entry.isDirectory = true) :
    PackedAs disk top (entry :: old) order ↔ PackedAs disk top old order := by
  unfold PackedAs
  rw [List.filter_cons_of_neg (by simp [Entry.remains, directory])]

theorem packedAs_cons_of_file [Archive.Library] (file : entry.isDirectory = false) :
    PackedAs disk top (entry :: old) order ↔
      ∃ below rest, order = below :: rest ∧ entry.Packs disk top below ∧
        PackedAs disk top old rest := by
  unfold PackedAs
  rw [List.filter_cons_of_pos (by simp [Entry.remains, file])]
  constructor
  · rintro (_ | ⟨first, later⟩)
    exact ⟨_, _, rfl, first, later⟩
  · rintro ⟨below, rest, rfl, first, later⟩
    exact .cons first later

private theorem classes_of_packedAs [Archive.Library] {entries : List Entry}
    (noStubs : ClassTree.NoStubs disk top)
    (inside : ∀ below ∈ order, below ∈ ClassTree.filesBelow disk top)
    (packed : PackedAs disk top entries order) :
    entries.filterMap class? = order.filterMap (ClassTree.class? disk top) := by
  induction entries generalizing order with
  | nil => cases packed; rfl
  | cons entry entries ih =>
    cases directory : entry.isDirectory with
    | true =>
      rw [List.filterMap_cons_none (class?_of_directory directory)]
      exact ih inside ((packedAs_cons_of_directory directory).mp packed)
    | false =>
      obtain ⟨below, rest, rfl, packs, later⟩ := (packedAs_cons_of_file directory).mp packed
      rw [List.forall_mem_cons] at inside
      rw [filterMap_cons_toList, filterMap_cons_toList,
        class?_of_packs noStubs inside.1 packs, ih inside.2 later]

/-- An archive has the classes of the files that are packed in it. -/
theorem perm_classes [Archive.Library] {entries : List Entry} (noStubs : ClassTree.NoStubs disk top)
    (packs : Packs entries disk top (ClassTree.filesBelow disk top)) :
    (entries.filterMap class?).Perm (ClassTree.classes disk top) := by
  obtain ⟨order, perm, packed⟩ := packs
  rw [classes_of_packedAs noStubs (fun below => perm.mem_iff.mp) packed]
  exact perm.filterMap _

/-- An entry that has what the plan makes of its file. -/
theorem packedAs_cons_of_planned [Archive.Library] (name : entry'.name = entry.name)
    (file : entry.isDirectory = false)
    (holds : ∀ content, entry.Holds content →
      (reread entry').Holds (plan.bytesOf entry.name content))
    (later : ∀ rest, PackedAs disk top old rest → Planned plan disk disk' top top' rest →
      PackedAs disk' top' (new.map reread) rest) (packed : PackedAs disk top (entry :: old) order)
    (planned : Planned plan disk disk' top top' order) :
    PackedAs disk' top' ((entry' :: new).map reread) order := by
  obtain ⟨below, rest, rfl, packs, others⟩ := (packedAs_cons_of_file file).mp packed
  obtain ⟨first, planned⟩ := List.forall_mem_cons.mp planned
  obtain ⟨-, spelled, content, held, holding⟩ := packs
  have file' : (reread entry').isDirectory = false := (isDirectory_of_name name).trans file
  have here := holds content holding
  rw [spelled] at here
  exact (packedAs_cons_of_file file').mpr
    ⟨below, rest, rfl, ⟨file', name.trans spelled, _, first content held, here⟩,
    later rest others planned⟩

/-- What is built from an archive has the files that the plan makes of those that were packed in
it. -/
theorem packedAs_of_rebuilt [Archive.Library] {keep : Bool} {calls : List Call}
    {answers : List Rewritten} (others : plan.LeavesOthers)
    (rebuilt : Rebuilt CarriedOver GivenContent keep old calls answers new)
    (matched : List.Forall₂ (fun call answer => plan.answer? call = some answer) calls answers)
    (packed : PackedAs disk top old order) (planned : Planned plan disk disk' top top' order) :
    PackedAs disk' top' (new.map reread) order := by
  have file {entry : Entry} (isClass : entry.isClass = true) :
      entry.isDirectory = false ∧ ClassName.isClassFile entry.name = true := by
    simpa [Entry.isClass] using isClass
  induction rebuilt generalizing order with
  | nil => cases packed; exact .nil
  | dropped directory off _ ih =>
    exact ih matched ((packedAs_cons_of_directory directory).mp packed) planned
  | @carried entry entry' _ _ _ _ notClass kept same _ ih =>
    have name : entry'.name = entry.name := same.2 ▸ rfl
    cases directory : entry.isDirectory with
    | true =>
      have stays : (reread entry').isDirectory = true := (isDirectory_of_name name).trans directory
      exact (packedAs_cons_of_directory stays).mpr
        (ih matched ((packedAs_cons_of_directory directory).mp packed) planned)
    | false =>
      have resource : ClassName.isClassFile entry.name = false := by
        simpa [Entry.isClass, directory] using notClass
      apply packedAs_cons_of_planned name directory _ (fun _ => ih matched) packed planned
      intro content holds
      rw [Plan.bytesOf_of_resource resource]
      exact holds_carriedOver same holds
  | @untouched entry entry' content answer _ _ _ _ isClass holds untransformed same _ ih =>
    obtain ⟨first, matched⟩ := List.forall₂_cons.mp matched
    have name : entry'.name = entry.name := same.2 ▸ rfl
    apply packedAs_cons_of_planned name (file isClass).1 _ (fun _ => ih matched) packed planned
    intro own held
    rw [holds.unique held, Plan.bytesOf_of_answer (file isClass).2 first,
      others _ answer first untransformed]
    exact holds_carriedOver same holds
  | @transformed entry entry' content answer _ _ _ _ isClass holds changed renewed _ ih =>
    obtain ⟨first, matched⟩ := List.forall₂_cons.mp matched
    have name : entry'.name = entry.name := renewed ▸ rfl
    apply packedAs_cons_of_planned name (file isClass).1 _ (fun _ => ih matched) packed planned
    intro own held
    rw [holds.unique held, Plan.bytesOf_of_answer (file isClass).2 first, renewed]
    exact holds_withContent entry.head answer.bytes

/-- The classes that were offered are those of the archive. -/
theorem calls_of_rebuilt [Archive.Library] {carry : Entry → Entry → Prop}
    {renew : Entry → Bytes → Entry → Prop} {keep : Bool} {calls : List Call}
    {answers : List Rewritten} (rebuilt : Rebuilt carry renew keep old calls answers new) :
    calls = old.filterMap class? := by
  have own {entry : Entry} {content : Bytes} (isClass : entry.isClass = true)
      (holds : entry.Holds content) :
      class? entry = some (entry.name, content) := by
    obtain ⟨-, stored, found, expanded⟩ := holds
    exact class?_of_content isClass found expanded
  induction rebuilt with
  | nil => rfl
  | dropped directory off _ ih => rw [ih, List.filterMap_cons_none (class?_of_directory directory)]
  | carried notClass kept same _ ih =>
    rw [ih, List.filterMap_cons_none (class?_of_not_isClass notClass)]
  | untouched isClass holds untransformed same _ ih =>
    rw [ih, List.filterMap_cons_some (own isClass holds)]
  | transformed isClass holds changed renewed _ ih =>
    rw [ih, List.filterMap_cons_some (own isClass holds)]

/-- An archive that was rewritten by a plan. -/
theorem outcome_of_rewrite [Archive.Library] [Archive.LawfulLibrary]
    (follows : rewriter.Follows plan) {path : Path} {options : Options} {shop shop' : Workshop σ}
    {content : Bytes} {summary : Summary} (rooted : shop.disk.Rooted)
    (read : shop.disk.read path = .ok content) (readable : Archive.Library.read? content = some old)
    (run : (rewrite path rewriter options).run.run shop = (.ok summary, shop')) :
    plan.Outcome (classes content) shop.bench.store summary.classes
      summary.transformed shop'.bench.store ∧
      ∃ content' entries, shop'.disk.read path = .ok content' ∧
        Archive.Library.read? content' = some entries ∧
        ∀ {disk disk' : Disk} {top top' : Place} {order : List Place}, plan.LeavesOthers →
          PackedAs disk top old order → Planned plan disk disk' top top' order →
          PackedAs disk' top' entries order := by
  obtain ⟨place, content', entries, build, replaced⟩ := replaced_of_success rooted run
  obtain rfl : entries = old := by
    cases (replaced.lands.read replaced.file).symm.trans read
    exact Option.some.inj (replaced.readable.symm.trans readable)
  obtain ⟨calls, answers, new, content', rebuilt, offered, counted, read', written⟩ :=
    rebuilt_of_replaced replaced
  obtain ⟨matched, store⟩ := follows.offerAll_ok offered
  have own : classes content = calls := by
    rw [classes, readable]
    exact (calls_of_rebuilt rebuilt).symm
  refine ⟨⟨?_, ?_, ?_⟩, content', _, read', written, fun others packed planned => ?_⟩
  · rw [own]
    exact Store.merge_insertAll_iff.mp ⟨_, store, replaced.merged⟩
  · rw [own, counted.classes]
    exact Nat.zero_add _
  · rw [own, ← answers_eq matched, counted.transformed]
    exact Nat.zero_add _
  · exact packedAs_of_rebuilt others rebuilt matched packed planned

end

end Archive

namespace ClassTree
variable {disk disk' : Disk} {top top' : Place} {files : List Place}

/-- What is written for a tree is what the plan makes of its files. -/
theorem planned_of_taken {answers : List Rewritten} {written : List Bytes}
    (noStubs : NoStubs disk top) (inside : ∀ below ∈ files, below ∈ filesBelow disk top)
    (taken : Taken disk top files answers written)
    (matched : List.Forall₂ (fun call answer => plan.answer? call = some answer)
      (files.filterMap (class? disk top)) answers)
    (lies : List.Forall₂ (fun below bytes => disk'.kind? (top' ++ below) =
      some (.file bytes)) files written) :
    Planned plan disk disk' top top' files := by
  induction taken with
  | nil => exact fun _ member => absurd member List.not_mem_nil
  | @copied below content files answers written held off rest ih =>
    rw [List.forall_mem_cons] at inside
    rw [List.filterMap_cons_none (by rw [class?_of_held held, off]; rfl)] at matched
    obtain ⟨here, lies⟩ := List.forall₂_cons.mp lies
    refine List.forall_mem_cons.mpr ⟨fun own held' => ?_, ih inside.2 matched lies⟩
    rw [held] at held'
    cases held'
    rw [isOffered_of_noStubs noStubs inside.1 held] at off
    rw [here, Plan.bytesOf_of_resource off]
  | @offered below content answer files answers written held on rest ih =>
    rw [List.forall_mem_cons] at inside
    rw [List.filterMap_cons_some (by rw [class?_of_held held, on]; rfl)] at matched
    obtain ⟨first, matched⟩ := List.forall₂_cons.mp matched
    obtain ⟨here, lies⟩ := List.forall₂_cons.mp lies
    refine List.forall_mem_cons.mpr ⟨fun own held' => ?_, ih inside.2 matched lies⟩
    rw [held] at held'
    cases held'
    rw [isOffered_of_noStubs noStubs inside.1 held] at on
    rw [here, Plan.bytesOf_of_answer on first]

/-- A tree that was rewritten by a plan. -/
theorem outcome_of_rewrite (follows : rewriter.Follows plan) {source destination : Path}
    {shop shop' : Workshop σ} {summary : Summary} (rooted : shop.disk.Rooted)
    (named : ∀ below ∈ filesBelow shop.disk (shop.disk.aim source), ∀ name ∈ below, IsName name)
    (found : Found shop.disk source) (elsewhere : Elsewhere shop.disk source destination)
    (noStubs : NoStubs shop.disk (shop.disk.aim source))
    (run : (rewrite source destination rewriter).run.run shop = (.ok summary, shop')) :
    plan.Outcome (classes shop.disk (shop.disk.aim source)) shop.bench.store
      summary.classes summary.transformed
        shop'.bench.store ∧
      Planned plan shop.disk shop'.disk (shop.disk.aim source) (shop'.disk.aim destination)
        (filesBelow shop.disk (shop.disk.aim source)) := by
  obtain ⟨answers, written, takenOver⟩ := takenOver_of_rewrite rooted named found elsewhere run
  obtain ⟨matched, store⟩ := follows.offerAll_ok takenOver.answered
  refine ⟨⟨store, ?_, ?_⟩, ?_⟩
  · rw [takenOver.counted.classes]
    exact Nat.zero_add _
  · rw [takenOver.counted.transformed, answers_eq matched]
    exact Nat.zero_add _
  · rw [Disk.aim_keep takenOver.workPlace]
    exact planned_of_taken noStubs (fun _ => id) takenOver.taken matched takenOver.lies

end ClassTree

/-- An archive in one workshop, and in another a tree with the same files that is taken to a place
of its own. -/
structure Counterparts [Archive.Library] (path source destination : Path)
    (archives trees : Workshop σ) (content : Bytes) : Prop where
  rootedArchives : archives.disk.Rooted
  rootedTrees : trees.disk.Rooted
  store : archives.bench.store = trees.bench.store
  read : archives.disk.read path = .ok content
  packs : ∃ entries, Archive.Library.read? content = some entries ∧
    Archive.Packs entries trees.disk (trees.disk.aim source)
    (ClassTree.filesBelow trees.disk (trees.disk.aim source))
  named : ∀ below ∈ ClassTree.filesBelow trees.disk (trees.disk.aim source),
    ∀ name ∈ below, IsName name
  found : ClassTree.Found trees.disk source
  elsewhere : ClassTree.Elsewhere trees.disk source destination

/-- The archive and the tree after both have been rewritten. -/
structure Agree [Archive.Library] (plan : Plan) (path source destination : Path)
    (trees : Workshop σ) (summary : Archive.Summary) (archives' : Workshop σ)
    (summary' : ClassTree.Summary) (trees' : Workshop σ) : Prop where
  store : archives'.bench.store = trees'.bench.store
  classes : summary.classes = summary'.classes
  transformed : summary.transformed = summary'.transformed
  packs : plan.LeavesOthers → ∃ content entries, archives'.disk.read path = .ok content ∧
    Archive.Library.read? content = some entries ∧
    Archive.Packs entries trees'.disk (trees'.disk.aim destination)
      (ClassTree.filesBelow trees.disk (trees.disk.aim source))

/-- An archive and a tree with the same files have the same classes, offer them to the rewriter as
far as they come, and agree in the end. -/
theorem engines_agree [Archive.Library] [Archive.LawfulLibrary] (follows : rewriter.Follows plan)
    {path source destination : Path} {archives trees : Workshop σ} {content : Bytes}
    (counterparts : Counterparts path source destination archives trees content)
    (noStubs : ClassTree.NoStubs trees.disk (trees.disk.aim source)) (options : Archive.Options) :
    (Archive.classes content).Perm (ClassTree.classes trees.disk (trees.disk.aim source)) ∧
      (∀ result archives', (Archive.rewrite path rewriter options).run.run archives =
        (result, archives') →
        ∃ bench, rewriter.Offered (Archive.classes content) ⟨.empty,
          archives.bench.memory⟩ bench result ∧
          archives'.bench.memory = bench.memory) ∧
      (∀ result trees', (ClassTree.rewrite source destination rewriter).run.run
        trees = (result, trees') →
        rewriter.Offered (ClassTree.classes trees.disk (trees.disk.aim source)) trees.bench
          trees'.bench result) ∧
      ∀ summary archives' summary' trees',
        (Archive.rewrite path rewriter options).run.run archives = (.ok summary, archives') →
        (ClassTree.rewrite source destination rewriter).run.run trees = (.ok summary', trees') →
        Agree plan path source destination trees summary archives' summary' trees' := by
  obtain ⟨rooted, rootedTrees, store, read, ⟨entries, readable, packs⟩, named, found, elsewhere⟩ :=
    counterparts
  have perm : (Archive.classes content).Perm
      (ClassTree.classes trees.disk (trees.disk.aim source)) := by
    rw [Archive.classes, readable]
    exact Archive.perm_classes noStubs packs
  refine ⟨perm, fun result archives' run => ?_, fun result trees' run => ?_, ?_⟩
  · obtain ⟨place, resolved, held⟩ := Disk.resolve_of_read read
    exact Archive.offered_of_rewrite rooted
      (Disk.lands_of_resolve rooted resolved held) held readable run
  · exact ClassTree.offered_of_rewrite rootedTrees named found elsewhere run
  · intro summary archives' summary' trees' run run'
    obtain ⟨outcome, content', entries', read', readable', rebuilds⟩ :=
      Archive.outcome_of_rewrite follows rooted read readable run
    obtain ⟨outcome', planned⟩ :=
      ClassTree.outcome_of_rewrite follows rootedTrees named found elsewhere noStubs run'
    rw [store] at outcome
    obtain ⟨same, classes, transformed⟩ := outcome.agree perm outcome'
    refine ⟨same, classes, transformed, fun others => ⟨content', entries', read', readable', ?_⟩⟩
    obtain ⟨order, perm, packed⟩ := packs
    exact ⟨order, perm, rebuilds others packed fun below member =>
      planned below (perm.mem_iff.mp member)⟩

/-! A class in a directory, and a resource. -/

attribute [local instance] Archive.plainLibrary Archive.plainLibrary_lawful

private def entriesWith (content : Bytes) : List Entry :=
  [.withContent { name := "readme.txt" } [1], { head := { name := "lib/" }, stored := some [] },
    .withContent { name := "lib/A.class", method := .deflated } content]

private def archiveWith (content : Bytes) : Workshop Nat where
  disk := { root := .file "app.jar" (Archive.write (entriesWith content)) .empty
            ordered := Listing.ordered_add (show Node.Ordered (.file _) from trivial)
              (by simp [Listing.names]) trivial
            workPlace := [] }
  bench := ⟨.empty, 0⟩

private def treeWith (content : Bytes) : Workshop Nat where
  disk := { root := .directory "classes" (.directory "lib" (.file "A.class" content .empty)
              (.file "readme.txt" [1] .empty)) .empty
            ordered := ⟨by simp [Listing.names],
              ⟨List.forall_mem_singleton.mpr (by decide),
              ⟨by simp [Listing.names], trivial⟩, by simp [Listing.names],
                trivial⟩, trivial⟩
            workPlace := [] }
  bench := ⟨.empty, 7⟩

private theorem files_treeWith (content : Bytes) :
    ClassTree.filesBelow (treeWith content).disk ((treeWith content).disk.aim ⟨"classes"⟩) =
      [["lib", "A.class"], ["readme.txt"]] := by
  rfl

private theorem counterparts_with {content : Bytes}
    (readable : Archive.Library.read? (Archive.write (entriesWith content)) =
      some ((entriesWith content).map reread)) :
    Counterparts ⟨"app.jar"⟩ ⟨"classes"⟩ ⟨"out"⟩ (archiveWith content) (treeWith content)
      (Archive.write (entriesWith content)) where
  rootedArchives := ⟨rfl, fun _ member => absurd member List.not_mem_nil⟩
  rootedTrees := ⟨rfl, fun _ member => absurd member List.not_mem_nil⟩
  store := rfl
  read := rfl
  packs := by
    refine ⟨_, readable, [["readme.txt"], ["lib", "A.class"]], ?_, ?_⟩
    · rw [files_treeWith]
      exact List.Perm.swap _ _ _
    · have resource : (reread (.withContent { name := "readme.txt" } [1])).Packs
          (treeWith content).disk ["classes"]
          ["readme.txt"] := ⟨rfl, rfl, [1], rfl, holds_withContent _ _⟩
      have file {entry : Entry} (name : entry.name = "lib/A.class") :
          entry.isDirectory = false := by
        unfold Entry.isDirectory
        rw [name]
        decide
      have nested :
          (reread (.withContent { name := "lib/A.class", method := .deflated } content)).Packs
          (treeWith content).disk ["classes"] ["lib", "A.class"] :=
          ⟨file rfl, rfl, content, rfl, holds_withContent _ _⟩
      refine (packedAs_cons_of_file rfl).mpr ⟨_, _, rfl, resource, ?_⟩
      refine (packedAs_cons_of_directory rfl).mpr ?_
      exact (packedAs_cons_of_file (file rfl)).mpr ⟨_, _, rfl, nested, .nil⟩
  named := by
    rw [files_treeWith]
    decide
  found _ := rfl
  elsewhere := by
    unfold ClassTree.Elsewhere ClassTree.goals
    rw [files_treeWith]
    change ∀ place ∈ [["out", "lib", "A.class"], ["out", "readme.txt"]],
      ¬ ClassTree.Reached ["classes"] place
    decide

private theorem leavesOthers_marking (marking : Marking) : marking.plan.LeavesOthers := by
  intro call answer planned untransformed
  unfold Plan.answer? Marking.plan at planned
  split at planned
  · cases planned
  · split at planned
    · cases planned
      rfl
    · cases record : marking.recordFor? call.1 with
      | none => simp [record] at planned
      | some own =>
        simp only [record, Option.map_some, Option.some.injEq] at planned
        cases planned
        cases untransformed

theorem engines_agree_of_nested :
    ∃ archives' trees',
      (Archive.rewrite ⟨"app.jar"⟩ (Marking.rewriter {}) {}).run.run
        (archiveWith (.replicate 9 1)) =
        (.ok { classes := 1, transformed := 1, copied := 1, directoriesSkipped := 1 }, archives') ∧
      (ClassTree.rewrite ⟨"classes"⟩ ⟨"out"⟩ (Marking.rewriter {})).run.run
        (treeWith (.replicate 9 1)) =
        (.ok { classes := 1, transformed := 1, copied := 1 }, trees') ∧
      (Marking.plan {}).LeavesOthers ∧
      Agree (Marking.plan {}) ⟨"app.jar"⟩ ⟨"classes"⟩ ⟨"out"⟩ (treeWith (.replicate 9 1))
        { classes := 1, transformed := 1, copied := 1, directoriesSkipped := 1 } archives'
        { classes := 1, transformed := 1, copied := 1 } trees' := by
  have readable : Archive.Library.read? (Archive.write (entriesWith (.replicate 9 1))) =
      some ((entriesWith (.replicate 9 1)).map reread) := by decide +kernel
  have noStubs : ClassTree.NoStubs (treeWith (.replicate 9 1)).disk
      ((treeWith (.replicate 9 1)).disk.aim ⟨"classes"⟩) := by
    unfold ClassTree.NoStubs
    rw [files_treeWith]
    simp only [List.forall_mem_cons]
    refine ⟨?_, ?_, nofun⟩
    · rintro content held -
      cases held
      decide
    · intro content _ isClass
      exact absurd isClass (by decide)
  have follows : (Marking.rewriter {}).Follows (Marking.plan {}) := Marking.follows rfl
  obtain ⟨-, -, -, agree⟩ := engines_agree follows (counterparts_with readable) noStubs {}
  have answered : ((Archive.rewrite ⟨"app.jar"⟩ (Marking.rewriter {}) {}).run.run
      (archiveWith (.replicate 9 1))).1 =
      .ok { classes := 1, transformed := 1, copied := 1, directoriesSkipped := 1 } := by
      decide +kernel
  have answered' : ((ClassTree.rewrite ⟨"classes"⟩ ⟨"out"⟩ (Marking.rewriter {})).run.run
      (treeWith (.replicate 9 1))).1 = .ok { classes := 1, transformed := 1, copied :=
      1 } := by decide +kernel
  cases ran : (Archive.rewrite ⟨"app.jar"⟩ (Marking.rewriter {}) {}).run.run
    (archiveWith (.replicate 9 1)) with
  | mk result archives' =>
    cases ran' : (ClassTree.rewrite ⟨"classes"⟩ ⟨"out"⟩ (Marking.rewriter {})).run.run
        (treeWith (.replicate 9 1)) with
    | mk result' trees' =>
      rw [ran] at answered
      rw [ran'] at answered'
      cases answered
      cases answered'
      exact ⟨archives', trees', rfl, rfl, leavesOthers_marking {}, agree _ _ _ _ ran ran'⟩

/-- A class file of four bytes is a class in an archive, and a resource in a tree. -/
theorem engines_disagree :
    (Marking.rewriter {}).Follows (Marking.plan {}) ∧ (Marking.plan {}).LeavesOthers ∧
      Counterparts ⟨"app.jar"⟩ ⟨"classes"⟩ ⟨"out"⟩ (archiveWith [0xca, 0xfe, 0xba, 0xbe])
        (treeWith [0xca, 0xfe, 0xba, 0xbe]) (Archive.write (entriesWith [0xca, 0xfe, 0xba, 0xbe])) ∧
      ((Archive.rewrite ⟨"app.jar"⟩ (Marking.rewriter {}) {}).run.run (archiveWith [0xca,
      0xfe, 0xba, 0xbe])).1 =
        .ok { classes := 1, transformed := 1, copied := 1, directoriesSkipped := 1 } ∧
      ((ClassTree.rewrite ⟨"classes"⟩ ⟨"out"⟩ (Marking.rewriter {})).run.run
        (treeWith [0xca, 0xfe, 0xba, 0xbe])).1 = .ok { copied := 2 } :=
  ⟨Marking.follows rfl, leavesOthers_marking {},
    counterparts_with (by decide +kernel), by decide +kernel,
    by decide +kernel⟩

end ClassCoverage
