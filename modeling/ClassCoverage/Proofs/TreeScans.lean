import ClassCoverage.ClassTree
import ClassCoverage.Proofs.ScannedFiles
import ClassCoverage.Proofs.UpheldCourses
import Mathlib.Data.List.Nodup

/-! Scans that look at one directory after another. What lies below a directory is listed in it, or
lies below the directories that it lists. A scan finds the files that are there if they are the same
at every look, whatever directories others make meanwhile. -/
namespace ClassCoverage

namespace Listing

private theorem length_le_height {listing : Listing} {place : Place} {kind : Kind}
    (found : listing.kind? place = some kind) : place.length ≤ listing.height + 1 := by
  induction listing generalizing place with
  | empty =>
    cases place with
    | nil => exact Nat.zero_le _
    | cons head tail => cases found
  | file name content rest ih =>
    cases place with
    | nil => exact Nat.zero_le _
    | cons head tail =>
      change (add name (.file content) rest).kind? (head :: tail) = some kind at found
      rw [kind?_add_cons] at found
      split at found
      · have last : tail = [] := by
          by_contra more
          rw [Node.kindBelow, if_neg more] at found
          cases found
        rw [last]
        exact Nat.le_add_left 1 _
      · exact ih found
  | directory name inner rest inside ih =>
    cases place with
    | nil => exact Nat.zero_le _
    | cons head tail =>
      change (add name (.directory inner) rest).kind? (head :: tail) = some kind at found
      rw [kind?_add_cons] at found
      rw [height]
      split at found
      · have within := inside found
        rw [List.length_cons]
        omega
      · have behind := ih found
        omega

/-- What is found behind an entry has another name. -/
theorem find?_of_behind {name sought : String} (node : Node) {found : Node} {rest : Listing}
    (least : ∀ later ∈ rest.names, name < later) (behind : rest.find? sought = some found) :
    (add name node rest).find? sought = some found := by
  rw [find?_add, if_neg, behind]
  rintro rfl
  rw [find?_of_lt least] at behind
  cases behind

private theorem find?_of_mem_entries {listing : Listing} (sorted : listing.Ordered) {name : String}
    (member : (name, true) ∈ listing.entries) :
    ∃ inner, listing.find? name = some (.directory inner) := by
  induction listing with
  | empty => cases member
  | file other content rest ih =>
    obtain ⟨inner, found⟩ := ih sorted.2 ((List.mem_cons.mp member).resolve_left nofun)
    exact ⟨inner, find?_of_behind (.file content) sorted.1 found⟩
  | directory other inner rest _ ih =>
    rcases List.mem_cons.mp member with same | behind
    · cases same
      exact ⟨inner, if_pos rfl⟩
    · obtain ⟨inner', found⟩ := ih sorted.2.2 behind
      exact ⟨inner', find?_of_behind (.directory inner) sorted.1 found⟩

end Listing

/-- What a directory lists leads to all files below it. -/
theorem Scan.places_eq_flatMap {excluded : String → Bool} {listing : Listing}
    (sorted : listing.Ordered) {inside : String → List Place}
    (known : ∀ name inner, listing.find? name = some (.directory inner) →
      inside name = places excluded inner) :
    places excluded listing = listing.entries.flatMap fun entry =>
      if excluded entry.1 then []
      else if entry.2 then (inside entry.1).map (entry.1 :: ·) else [[entry.1]] := by
  induction listing with
  | empty => rfl
  | file name content rest ih =>
    have behind := ih sorted.2 fun other inner found =>
      known other inner (Listing.find?_of_behind (.file content) sorted.1 found)
    rw [places, Listing.entries, List.flatMap_cons, behind]
    cases excluded name <;> rfl
  | directory name inner rest _ ih =>
    have behind := ih sorted.2.2 fun other inner' found =>
      known other inner' (Listing.find?_of_behind (.directory inner) sorted.1 found)
    rw [places, Listing.entries, List.flatMap_cons, behind, known name inner (if_pos rfl)]
    cases excluded name <;> rfl

namespace ClassTree
open Course

/-- The files below a place, by the names that lead to them from there. -/
def filesBelow (disk : Disk) (top : Place) : List Place :=
  match disk.at? top with
  | some (.directory listing) => Scan.places Scan.isExcluded listing
  | _ => []

theorem filesBelow_eq {disk : Disk} {top : Place} {listing : Listing}
    (found : disk.at? top = some (.directory listing)) :
    filesBelow disk top = Scan.places Scan.isExcluded listing := by
  unfold filesBelow
  rw [found]

theorem filesBelow_eq_nil {disk : Disk} {top : Place} (other : disk.kind? top ≠ some .directory) :
    filesBelow disk top = [] := by
  unfold filesBelow
  split
  · rename_i listing found
    exact absurd (Disk.at?_eq_directory_iff.mp ⟨listing, found⟩) other
  · rfl

/-- Files are only found below directories. -/
theorem kind?_of_filesBelow {disk : Disk} {top : Place} (inside : filesBelow disk top ≠ []) :
    disk.kind? top = some .directory := by
  by_contra other
  exact inside (filesBelow_eq_nil other)

/-- The files below a place are those with no excluded name on their way. -/
theorem mem_filesBelow_iff {disk : Disk} {top below : Place} :
    below ∈ filesBelow disk top ↔ below ≠ [] ∧ (∀ name ∈ below, Scan.isExcluded name = false) ∧
      ∃ content, disk.kind? (top ++ below) = some (.file content) := by
  by_cases directory : disk.kind? top = some .directory
  · obtain ⟨listing, here⟩ := Disk.at?_eq_directory_iff.mpr directory
    rw [filesBelow_eq here, Scan.mem_places_iff (Listing.ordered_at? disk.ordered here)]
    simp only [Disk.kind?_below here]
    exact ⟨fun ⟨inside, kept, file⟩ => ⟨inside, kept, file⟩, fun ⟨inside, kept, file⟩ =>
      ⟨inside, kept, file⟩⟩
  · rw [filesBelow_eq_nil directory]
    constructor
    · intro impossible
      cases impossible
    · rintro ⟨inside, -, content, file⟩
      exact absurd (Listing.kind?_of_append file inside) directory

theorem increasing_filesBelow (disk : Disk) (top : Place) :
    (filesBelow disk top).Pairwise (· < ·) := by
  unfold filesBelow
  split
  · rename_i listing found
    exact Scan.increasing_places (Listing.ordered_at? disk.ordered found)
  · exact List.Pairwise.nil

/-- The files below a directory are known from those below the one it lies in. -/
theorem mem_filesBelow_concat_iff {disk : Disk} {place : Place} {name : String}
    (kept : Scan.isExcluded name = false) {file : Place} :
    file ∈ filesBelow disk (place ++ [name]) ↔
      file ≠ [] ∧ name :: file ∈ filesBelow disk place := by
  rw [mem_filesBelow_iff, mem_filesBelow_iff, List.append_assoc, List.forall_mem_cons]
  simp [kept]

/-- Two trees have the same files if each has those of the other one. -/
theorem filesBelow_ext {disk disk' : Disk} {top top' : Place}
    (same : ∀ file, file ∈ filesBelow disk' top' ↔ file ∈ filesBelow disk top) :
    filesBelow disk' top' = filesBelow disk top := by
  have order := (List.perm_ext_iff_of_nodup (increasing_filesBelow disk' top').nodup
    (increasing_filesBelow disk top).nodup).mpr same
  apply order.eq_of_pairwise _ (increasing_filesBelow disk' top') (increasing_filesBelow disk top)
  intro one other _ _ less greater
  exact absurd less (List.lt_asymm greater)

/-- What is found by way of one entry of a directory. -/
def foundBy (disk : Disk) (top below : Place) (entry : String × Bool) : List Place :=
  if Scan.isExcluded entry.1 then []
  else if entry.2 then
    (filesBelow disk (top ++ (below ++ [entry.1]))).map ((below ++ [entry.1]) ++ ·)
  else [below ++ [entry.1]]

section
variable {disk : Disk} {source : Path} {top below : Place} {listing : Listing}

private theorem entries_eq (here : disk.at? top = some (.directory listing)) :
    disk.entries top = .ok listing.entries := by
  unfold Disk.entries
  rw [here]

private theorem kind?_of_mem_entries (here : disk.at? top = some (.directory listing)) {name : String}
    (member : (name, true) ∈ listing.entries) :
    disk.kind? (top ++ [name]) = some .directory := by
  obtain ⟨inner, found⟩ :=
    Listing.find?_of_mem_entries (Listing.ordered_at? disk.ordered here) member
  apply Disk.at?_eq_directory_iff.mp
  refine ⟨inner, (Listing.at?_append here [name]).trans ?_⟩
  rw [Listing.at?, found]
  rfl

/-- All files below a directory are found by way of its entries. -/
theorem foldl_foundBy (here : disk.at? (top ++ below) = some (.directory listing)) :
    listing.entries.foldl (fun files entry => files ++ foundBy disk top below entry) [] =
      (filesBelow disk (top ++ below)).map (below ++ ·) := by
  have known (name : String) (inner : Listing)
      (found : listing.find? name = some (.directory inner)) :
      filesBelow disk (top ++ (below ++ [name])) = Scan.places Scan.isExcluded inner := by
    apply filesBelow_eq
    rw [← List.append_assoc]
    refine (Listing.at?_append here [name]).trans ?_
    rw [Listing.at?, found]
    rfl
  rw [← List.flatMap_eq_foldl, filesBelow_eq here,
    Scan.places_eq_flatMap (Listing.ordered_at? disk.ordered here) known, List.map_flatMap]
  congr 1
  funext entry
  unfold foundBy
  cases Scan.isExcluded entry.1 <;> cases entry.2 <;> simp

private theorem eq_nil_of_length (deep : ∀ file ∈ filesBelow disk top, file.length ≤ 0) :
    filesBelow disk top = [] := by
  apply List.eq_nil_iff_forall_not_mem.mpr
  intro file member
  have short := Nat.le_zero.mp (deep file member)
  exact (mem_filesBelow_iff.mp member).1 (List.length_eq_zero_iff.mp short)

/-- What lies in a directory within this one lies less deep there. -/
theorem length_of_mem_concat {depth : Nat} {name : String} (kept : Scan.isExcluded name = false)
    (deep : ∀ file ∈ filesBelow disk top, file.length ≤ depth + 1) :
    ∀ file ∈ filesBelow disk (top ++ [name]), file.length ≤ depth := by
  intro file member
  have length := deep (name :: file) ((mem_filesBelow_concat_iff kept).mp member).2
  rwa [List.length_cons, Nat.add_le_add_iff_right] at length

/-- A walk that goes deep enough finds all files. -/
theorem leads_walk {depth : Nat} (directory : disk.kind? (top ++ below) = some .directory)
    (deep : ∀ file ∈ filesBelow disk (top ++ below), file.length ≤ depth) :
    (walk source top depth below).Leads disk
      (.ok ((filesBelow disk (top ++ below)).map (below ++ ·))) disk := by
  induction depth generalizing below with
  | zero =>
    rw [eq_nil_of_length deep]
    exact .pure _ disk
  | succ depth ih =>
    obtain ⟨listing, here⟩ := Disk.at?_eq_directory_iff.mpr directory
    have visits : ∀ entry ∈ listing.entries,
        (visit below (walk source top depth) entry).Leads disk
          (.ok (foundBy disk top below entry)) disk := by
      rintro ⟨name, isDirectory⟩ member
      unfold visit foundBy
      split
      · exact .pure _ disk
      · rename_i kept
        split
        · rename_i inner
          obtain rfl : isDirectory = true := inner
          have inside := kind?_of_mem_entries here member
          have deep' := length_of_mem_concat (eq_false_of_ne_true kept) deep
          rw [List.append_assoc] at inside deep'
          exact ih inside deep'
        · exact .pure _ disk
    rw [← foldl_foundBy here]
    refine Leads.bind (.see (entries_eq here)) (.foldlM (fun files entry member => ?_) [])
    exact (visits entry member).bind (.pure _ disk)

/-- What is there lies no deeper than a scan goes. -/
theorem length_le_reach (top : Place) : ∀ file ∈ filesBelow disk top, file.length ≤ reach disk := by
  intro file member
  obtain ⟨-, -, content, held⟩ := mem_filesBelow_iff.mp member
  have length := Listing.length_le_height held
  rw [List.length_append] at length
  unfold reach
  omega

private theorem isFile_of_directory (resolved : disk.resolve source = .ok top)
    (directory : disk.kind? top = some .directory) : disk.isFile source = false := by
  obtain ⟨listing, here⟩ := Disk.at?_eq_directory_iff.mpr directory
  unfold Disk.isFile Disk.node?
  simp only [resolved, here]

/-- What a scan in one look finds in a directory. -/
theorem run_collectFiles (resolved : disk.resolve source = .ok top)
    (directory : disk.kind? top = some .directory) :
    (Scan.collectFiles source).run.run disk =
      (.ok ((filesBelow disk top).map (Scan.pathTo source)), disk) := by
  obtain ⟨listing, here⟩ := Disk.at?_eq_directory_iff.mpr directory
  apply Action.run_look_ok
  rw [Scan.filesMatching_eq resolved here, filesBelow_eq here, List.filter_eq_self.mpr fun _ _ =>
    rfl]

private theorem leads_scan_of_directory (resolved : disk.resolve source = .ok top)
    (directory : disk.kind? top = some .directory) :
    (scan source).Leads disk (.ok ((filesBelow disk top).map (Scan.pathTo source))) disk := by
  have walked : (walk source top (reach disk) []).Leads disk
      (.ok ((filesBelow disk (top ++ [])).map ([] ++ ·))) disk :=
    leads_walk (by rwa [List.append_nil]) (length_le_reach _)
  simp only [List.append_nil, List.nil_append, List.map_id'] at walked
  apply Leads.look
  rw [isFile_of_directory resolved directory, resolved]
  change (walk source top (reach disk) [] >>= fun files =>
    return files.map (Scan.pathTo source)).Leads _ _ _
  exact walked.bind (.pure _ disk)

/-- A scan that nobody comes in between answers what a scan in one look answers. -/
theorem leads_scan (source : Path) (disk : Disk) :
    (scan source).Leads disk ((Scan.collectFiles source).run.run disk).1 disk := by
  cases resolved : disk.resolve source with
  | error fault =>
    have looked : Scan.filesMatching (fun _ => true) source disk = .error fault := by
      unfold Scan.filesMatching
      rw [resolved]
      rfl
    have noFile : disk.isFile source = false := by
      unfold Disk.isFile Disk.node?
      rw [resolved]
    rw [Scan.collectFiles, Scan.collectMatching, Action.run_look_error looked]
    apply Leads.look
    rw [noFile, resolved]
    exact ⟨fun _ _ => rfl⟩
  | ok top =>
    cases here : disk.at? top with
    | none =>
      have looked : Scan.filesMatching (fun _ => true) source disk = .error .notFound := by
        unfold Scan.filesMatching
        simp only [resolved, bind, Except.bind, here]
        rfl
      have noFile : disk.isFile source = false := by
        unfold Disk.isFile Disk.node?
        simp only [resolved, here]
      have missed : disk.entries (top ++ []) = .error .notFound := by
        unfold Disk.entries
        rw [List.append_nil, here]
      rw [Scan.collectFiles, Scan.collectMatching, Action.run_look_error looked]
      apply Leads.look
      rw [noFile, resolved]
      change (walk source top (reach disk) [] >>= _).Leads _ _ _
      exact Leads.stop (.stop (.overlook missed))
    | some node =>
      cases node with
      | file content =>
        have looked : Scan.filesMatching (fun _ => true) source disk = .ok [source] := by
          unfold Scan.filesMatching
          simp only [resolved, bind, Except.bind, here]
          rfl
        have isFile : disk.isFile source = true := by
          unfold Disk.isFile Disk.node?
          simp only [resolved, here]
        rw [Scan.collectFiles, Scan.collectMatching, Action.run_look_ok looked]
        apply Leads.look
        rw [isFile]
        exact .pure _ disk
      | directory listing =>
        have directory := Disk.at?_eq_directory_iff.mp ⟨listing, here⟩
        rw [run_collectFiles resolved directory]
        exact leads_scan_of_directory resolved directory

end

section
variable {κ ε σ : Type} {rewriter : Rewriter σ} {pact : Pact κ ε} {blocked : Prop} {part : κ}
  {P : κ → Prop} {store : Store} {source : Path} {top below : Place}

/-- A walk among others finds all files, if they are the same whenever they are looked at. -/
theorem upholds_walk {origin : Disk} {depth : Nat} (notes : pact.Notes P) (start : P part)
    (directory : ∀ own others disk, P own → pact own others disk →
      disk.kind? (top ++ below) = some .directory)
    (same : ∀ own others disk, P own → pact own others disk →
      filesBelow disk (top ++ below) = filesBelow origin (top ++ below))
    (deep : ∀ file ∈ filesBelow origin (top ++ below), file.length ≤ depth) :
    (walk source top depth below).Upholds rewriter pact blocked
      (fun found own store' => found = (filesBelow origin (top ++ below)).map (below ++ ·) ∧ P own ∧
        store' = store) part store := by
  induction depth generalizing below origin part P with
  | zero =>
    rw [eq_nil_of_length deep]
    exact ⟨rfl, start, rfl⟩
  | succ depth ih =>
    apply Upholds.see_bind
    intro others disk holds
    obtain ⟨listing, here⟩ := Disk.at?_eq_directory_iff.mpr (directory part others disk start holds)
    obtain ⟨noted, since, holds'⟩ := notes part others disk start holds
    refine ⟨listing.entries, noted, entries_eq here, holds', ?_⟩
    have here' := same part others disk start holds
    rw [← here'] at deep ⊢
    have visits : ∀ entry ∈ listing.entries, ∀ own, pact.Since P disk own →
        (visit below (walk source top depth) entry).Upholds rewriter pact blocked
          (fun found own' store' => found = foundBy disk top below entry ∧ pact.Since P disk own' ∧
            store' = store) own store := by
      rintro ⟨name, isDirectory⟩ member own known
      unfold visit foundBy
      split
      · exact ⟨rfl, known, rfl⟩
      · rename_i kept
        split
        · rename_i inner
          obtain rfl : isDirectory = true := inner
          have kept := eq_false_of_ne_true kept
          have inside := kind?_of_mem_entries here member
          have deep' := length_of_mem_concat kept deep
          rw [List.append_assoc] at inside deep'
          refine ih (notes.since disk) known ?_ ?_ deep'
          · intro own others disk' known holds
            exact (known.2 others disk' holds).directory _ inside
          · intro own others disk' known holds
            rw [← List.append_assoc]
            apply filesBelow_ext
            intro file
            rw [mem_filesBelow_concat_iff kept, mem_filesBelow_concat_iff kept,
              same own others disk' known.1 holds, here']
        · exact ⟨rfl, known, rfl⟩
    rw [← foldl_foundBy here]
    refine (Upholds.foldlM (P := pact.Since P disk) ?_ since []).mono id
      fun _ _ _ ⟨found, known, kept⟩ => ⟨found, known.1, kept⟩
    intro files entry member own known
    refine (visits entry member own known).bind_mono ?_
    rintro _ own' _ ⟨rfl, known', rfl⟩
    exact ⟨rfl, known', rfl⟩

/-- A scan among others finds all files, if they are the same whenever they are looked at. -/
theorem upholds_scan {files : List Place} (notes : pact.Notes P) (start : P part)
    (resolved : ∀ own others disk, P own → pact own others disk → disk.resolve source = .ok top)
    (directory : ∀ own others disk, P own → pact own others disk →
      disk.kind? top = some .directory)
    (same : ∀ own others disk, P own → pact own others disk → filesBelow disk top = files) :
    (scan source).Upholds rewriter pact blocked
      (fun found own store' => found = files.map (Scan.pathTo source) ∧ P own ∧ store' = store) part
      store := by
  apply Upholds.disk_bind
  intro others disk holds
  refine ⟨part, holds, ?_⟩
  have found := resolved part others disk start holds
  have here := directory part others disk start holds
  obtain rfl := same part others disk start holds
  have walked : (walk source top (reach disk) []).Upholds rewriter pact blocked
      (fun places own store' => places = (filesBelow disk (top ++ [])).map ([] ++ ·) ∧ P own ∧
        store' = store) part store :=
    upholds_walk notes start (by rwa [List.append_nil]) (by rwa [List.append_nil])
      (length_le_reach _)
  simp only [List.append_nil, List.nil_append, List.map_id'] at walked
  rw [isFile_of_directory found here, found]
  change (walk source top (reach disk) [] >>= fun files =>
    return files.map (Scan.pathTo source)).Upholds _ _ _ _ _ _
  refine walked.bind_mono ?_
  rintro _ own _ ⟨rfl, still, rfl⟩
  exact ⟨rfl, still, rfl⟩

end

end ClassTree
end ClassCoverage
