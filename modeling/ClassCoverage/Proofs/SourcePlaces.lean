import ClassCoverage.SourceLookup
import ClassCoverage.Proofs.TreePaths

/-! Where source files are found. A file is looked for by what a class name says about its
directory, and names have all their dots turned into slashes, so there is nothing in such a
directory that leads up. Only a name that starts with a dot or a slash leads away from the roots, to
the root of the disk. -/
namespace ClassCoverage
open ClassCoverage.Path

namespace Text

private theorem mem_of_mem_split {mark char : Char} {text piece : List Char}
    (member : piece ∈ split (· == mark) text) (inside : char ∈ piece) : char ∈ text := by
  induction text generalizing piece with
  | nil =>
    simp only [split, List.mem_singleton] at member
    exact absurd inside (by simp [member])
  | cons first rest ih =>
    by_cases same : first = mark
    · simp only [split, same, beq_self_eq_true, ↓reduceIte, List.mem_cons] at member
      rcases member with rfl | later
      · cases inside
      · exact List.mem_cons_of_mem _ (ih later inside)
    · obtain ⟨head, pieces, shown⟩ := List.exists_cons_of_ne_nil (split_ne_nil (· == mark) rest)
      simp only [split, beq_iff_eq, same, ↓reduceIte, shown, List.mem_cons] at member
      rcases member with rfl | later
      · rcases List.mem_cons.mp inside with rfl | behind
        · exact List.mem_cons_self ..
        · exact List.mem_cons_of_mem _ (ih (by simp [shown]) behind)
      · exact List.mem_cons_of_mem _ (ih (by simp [shown, later]) inside)

/-- An ending without slashes lies behind the last slash. -/
theorem stripSuffix?_append {ending before text : List Char} (plain : '/' ∉ ending)
    (closed : before = [] ∨ before.getLast? = some '/') :
    stripSuffix? ending (before ++ text) = (stripSuffix? ending text).map (before ++ ·) := by
  have same : ending <:+ before ++ text ↔ ending <:+ text := by
    refine ⟨fun ends => ?_, fun ends => ends.trans (List.suffix_append before text)⟩
    rcases List.suffix_or_suffix_of_suffix ends
      (List.suffix_append before text) with inside | ⟨front, rfl⟩
    · exact inside
    obtain ⟨rest, whole⟩ := ends
    rw [← List.append_assoc] at whole
    have split : rest ++ front = before := List.append_cancel_right whole
    rcases List.eq_nil_or_concat' front with rfl | ⟨start, last, rfl⟩
    · exact List.suffix_rfl
    have slash : last = '/' := by
      rcases closed with rfl | slash
      · simp at split
      · rw [← split, ← List.append_assoc, List.getLast?_concat] at slash
        exact Option.some.inj slash
    exact absurd (by simp [slash]) plain
  unfold stripSuffix?
  by_cases ends : ending <:+ text
  · have fits := ends.length_le
    rw [if_pos (List.isSuffixOf_iff_suffix.mpr ends),
      if_pos (List.isSuffixOf_iff_suffix.mpr (same.mpr ends)),
      Option.map_some, List.length_append, Nat.add_sub_assoc fits, List.take_length_add_append]
  · rw [if_neg (mt List.isSuffixOf_iff_suffix.mp ends),
      if_neg (mt List.isSuffixOf_iff_suffix.mp (mt same.mp ends)), Option.map_none]

end Text

namespace Path

/-- A path none of whose segments leads up or stays. -/
def Descending (path : Path) : Prop := ∀ segment ∈ path.segments, segment = "" ∨ IsName segment

theorem descending_of_dotless {path : Path} (dotless : '.' ∉ path.chars) : path.Descending := by
  intro segment member
  have plain := plain_of_mem_segments member
  have noDot : '.' ∉ segment.toList := fun dot => by
    obtain ⟨piece, inside, rfl⟩ := List.mem_map.mp member
    exact dotless (Text.mem_of_mem_split inside (by simpa using dot))
  by_cases empty : segment = ""
  · exact .inl empty
  · exact .inr ⟨empty, fun here => noDot (by simp [here]), fun up => noDot (by simp [up]), plain⟩

namespace Descending
variable {path : Path}

private theorem isName (descending : path.Descending) {step : String}
    (member : step ∈ path.steps) : IsName step := by
  obtain ⟨segment, leads⟩ := List.mem_filter.mp member
  exact (descending step segment).resolve_left fun empty => by simp [isStep, empty] at leads

theorem named_eq (descending : path.Descending) : path.named = path.steps.map .name := by
  have all (segments : List String) (own : ∀ segment ∈ segments, segment = "" ∨ IsName segment) :
      segments.filterMap segmentPart? = (segments.filter isStep).map .name := by
    induction segments with
    | nil => rfl
    | cons segment rest ih =>
      have later := ih fun other member => own other (List.mem_cons_of_mem _ member)
      rcases own segment (List.mem_cons_self ..) with rfl | named
      · rw [List.filterMap_cons_none rfl, List.filter_cons_of_neg (by decide), later]
      · rw [List.filterMap_cons_some (segmentPart?_of_isName named),
          List.filter_cons_of_pos named.isStep, later,
          List.map_cons]
  exact all path.segments descending

private theorem parts_eq (descending : path.Descending) :
    path.parts = (if path.isAbsolute then [.root] else []) ++ path.steps.map .name := by
  have apart : path.segments.head? ≠ some "." := fun here => by
    rcases descending "." (List.mem_of_mem_head? here) with empty | own
    · exact absurd empty (by decide)
    · exact own.notHere rfl
  rw [Path.parts_eq, descending.named_eq, if_neg apart]

/-- Where a path that leads down goes to from a root. -/
theorem parts_join (descending : path.Descending) (root : Path) :
    (root.join path).parts = (if path.isAbsolute then [.root] else root.parts) ++
      path.steps.map .name := by
  by_cases absolute : path.isAbsolute = true
  · rw [join_of_isAbsolute root absolute, descending.parts_eq]
    simp [absolute]
  · by_cases empty : root.spelling = ""
    · obtain ⟨_⟩ := root
      cases empty
      have none : (⟨""⟩ : Path).parts = [] := by decide
      rw [empty_join, descending.parts_eq, if_neg absolute, if_neg absolute, none]
    · rw [parts_join_of_relative empty (by simpa using absolute),
        descending.named_eq, if_neg absolute]

end Descending

/-- A joined path keeps its last segment. -/
theorem exists_segments_join (root : Path) {relative : Path} {before : List String} {last : String}
    (split : relative.segments = before ++ [last]) :
    ∃ earlier, (root.join relative).segments = earlier ++ [last] := by
  by_cases absolute : relative.isAbsolute = true
  · exact ⟨before, by rw [join_of_isAbsolute root absolute, split]⟩
  · by_cases empty : root.spelling = ""
    · obtain ⟨_⟩ := root
      cases empty
      exact ⟨before, by rw [empty_join, split]⟩
    · obtain ⟨front, joined, -⟩ := join_of_relative (by simpa using absolute) empty
      exact ⟨front ++ before, by rw [joined, split, List.append_assoc]⟩

end Path

namespace Disk

/-- A file that lies below a directory, at the place its path spells by one or more names. -/
structure Descends (disk : Disk) (directory path : Path) (names : List String) : Prop where
  below : names ≠ []
  named : ∀ name ∈ names, IsName name
  parts : path.parts = directory.parts ++ names.map .name
  resolved : disk.resolve path = .ok (disk.aim directory ++ names)
  file : ∃ content, disk.kind? (disk.aim directory ++ names) = some (.file content)

/-- Names behind the parts of a path lead down from where the path leads to. -/
theorem aim_of_parts_append {directory path : Path} {names : List String}
    (own : ∀ name ∈ names, IsName name) (parts : path.parts = directory.parts ++ names.map .name)
    (disk : Disk) :
    disk.aim path = disk.aim directory ++ names := by
  obtain ⟨absolute, steps⟩ := steps_of_parts parts
  unfold aim start
  rw [absolute, steps, lead_append, lead_names own]

/-- Files are named by the last segments of their paths. -/
theorem isName_of_isFile {disk : Disk} (rooted : disk.Rooted) {path : Path}
    (found : disk.isFile path = true) {before : List String} {last : String}
    (split : path.segments = before ++ [last]) : IsName last := by
  obtain ⟨_, _, ⟨front, name, _, split', own, _, _⟩, _⟩ := lands_of_isFile rooted found
  obtain ⟨-, same⟩ := List.append_inj' (split.symm.trans split') rfl
  rw [List.cons.injEq] at same
  exact same.1 ▸ own

theorem descends_of_parts {disk : Disk} (rooted : disk.Rooted) {directory path : Path}
    (found : disk.isFile path = true) {names : List String} (below : names ≠ [])
    (own : ∀ name ∈ names, IsName name) (parts : path.parts = directory.parts ++ names.map .name) :
    disk.Descends directory path names := by
  obtain ⟨place, content, lands, kind⟩ := lands_of_isFile rooted found
  have resolved := lands.resolve kind
  have aimed : disk.aim directory ++ names = place := by
    rw [← aim_of_parts_append own parts, aim_of_resolve resolved]
  exact ⟨below, own, parts, aimed ▸ resolved, content, aimed ▸ kind⟩

end Disk

namespace ClassName

/-- The names whose files are looked for from the root of the disk. -/
def StartsAbove (name : String) :
    Prop := name.toList.head? = some '.' ∨ name.toList.head? = some '/'

private theorem dotToSlash_ne_dot (char : Char) : dotToSlash char ≠ '.' := by
  unfold dotToSlash
  split
  · decide
  · assumption

private theorem dotToSlash_eq_slash {char : Char} (slash : dotToSlash char = '/') :
    char = '.' ∨ char = '/' := by
  unfold dotToSlash at slash
  split at slash
  · exact .inl ‹_›
  · exact .inr slash

/-- No dots are left in the directory a class name starts with. -/
theorem dotless_of_starts {name text : String}
    (starts : text.toList ++ ['/'] <+: name.toList.map dotToSlash) :
    '.' ∉ text.toList := by
  intro dot
  obtain ⟨char, -, same⟩ := List.mem_map.mp (starts.subset (List.mem_append_left _ dot))
  exact dotToSlash_ne_dot char same

/-- What stands before a file that is looked for: nothing, or the directory the class name starts
with. -/
inductive Front (name : String) : String → Prop where
  | none : Front name ""
  | directory {text : String} (starts : text.toList ++ ['/'] <+: name.toList.map dotToSlash) :
    Front name (text ++ "/")

namespace Front
variable {name front file : String}

theorem closed (fronts : Front name front) :
    front.toList = [] ∨ front.toList.getLast? = some '/' := by
  cases fronts with
  | none => exact .inl rfl
  | directory starts => exact .inr (by simp)

private theorem starts (fronts : Front name front) :
    front.toList <+: name.toList.map dotToSlash := by
  cases fronts with
  | none => exact List.nil_prefix
  | @directory text starts => simpa using starts

/-- Nothing before the file of a class leads up. -/
theorem segments (fronts : Front name front) (plain : '/' ∉ file.toList) :
    ∃ before, (⟨front ++ file⟩ : Path).segments = before ++ [file] ∧
      ∀ segment ∈ before, segment = "" ∨ IsName segment := by
  cases fronts with
  | none =>
    refine ⟨[], ?_, fun _ member => absurd member List.not_mem_nil⟩
    rw [String.empty_append]
    exact segmentsOf_of_plain plain
  | @directory text starts =>
    refine ⟨(⟨text⟩ : Path).segments, ?_, descending_of_dotless (dotless_of_starts starts)⟩
    have shown : (text ++ "/" ++ file).toList = text.toList ++ '/' :: file.toList := by simp
    rw [segments_eq, chars, shown, segmentsOf_append, segmentsOf_of_plain plain]
    rfl

theorem descending (fronts : Front name front) (own : IsName file) :
    (⟨front ++ file⟩ : Path).Descending := by
  obtain ⟨before, shown, down⟩ := fronts.segments own.plain
  intro segment member
  rw [shown, List.mem_append, List.mem_singleton] at member
  rcases member with inside | rfl
  · exact down segment inside
  · exact .inr own

private theorem startsAbove (fronts : Front name front) (plain : '/' ∉ file.toList)
    (absolute : (⟨front ++ file⟩ : Path).isAbsolute = true) : StartsAbove name := by
  obtain ⟨body, spelled⟩ := (isAbsolute_iff _).mp absolute
  rw [chars, String.toList_append] at spelled
  cases opening : front.toList with
  | nil =>
    rw [opening, List.nil_append] at spelled
    exact absurd (by simp [spelled]) plain
  | cons first rest =>
    rw [opening, List.cons_append, List.cons.injEq] at spelled
    obtain ⟨tail, whole⟩ := fronts.starts
    rw [opening, List.cons_append, spelled.1] at whole
    cases letters : name.toList with
    | nil => simp [letters] at whole
    | cons letter others =>
      rw [letters, List.map_cons, List.cons.injEq] at whole
      unfold StartsAbove
      rw [letters, List.head?_cons, Option.some.injEq, Option.some.injEq]
      exact dotToSlash_eq_slash whole.1.symm

end Front

/-- The source file of a class lies in the directory its name starts with. -/
theorem exists_front (name : String) {ending : String} (plain : '/' ∉ ending.toList) :
    ∃ front file, Front name front ∧ '/' ∉ file.toList ∧
      sourceFile name ending = front ++ file := by
  have outer : (name.toList.takeWhile (· != '$')).map dotToSlash <+: name.toList.map dotToSlash :=
    (List.takeWhile_prefix _).map _
  unfold sourceFile
  cases found : Text.splitLast? '/' ((name.toList.takeWhile (· != '$')).map dotToSlash) with
  | none =>
    refine ⟨"", _, .none, ?_, (String.empty_append).symm⟩
    simpa using ⟨by simpa using Text.not_mem_of_splitLast? found, plain⟩
  | some parts =>
    obtain ⟨before, after⟩ := parts
    obtain ⟨shown, last⟩ := Text.append_of_splitLast? found
    rw [shown] at outer ⊢
    refine ⟨String.ofList before ++ "/", String.ofList after ++ ending, .directory ?_, ?_, ?_⟩
    · rw [String.toList_ofList]
      refine List.IsPrefix.trans ⟨after, ?_⟩ outer
      simp
    · simpa using ⟨last, plain⟩
    · rw [← String.toList_inj]
      simp

end ClassName

/-- The directory of a package with the slash behind it. The default package has none. -/
def Record.packageDirectory (record : Record) : String :=
  if record.packageName = "" then "" else record.packageName.map ClassName.dotToSlash ++ "/"

namespace SourceLookup
open ClassName
variable {lookup : SourceLookup} {disk : Disk}

theorem resolveFile_eq_some {file : String} {location : SourceLocation}
    (found : lookup.resolveFile disk file = some location) :
    location.relative ∈ lookup.candidates file ∧ location.root ∈ lookup.roots ∧
      disk.isFile location.path = true := by
  obtain ⟨candidate, member, inRoot⟩ := List.exists_of_findSome?_eq_some found
  obtain ⟨root, first, rfl⟩ := Option.map_eq_some_iff.mp inRoot
  have here := List.find?_some first
  exact ⟨member, List.mem_of_find?_eq_some first, here⟩

/-- What stands before a file stands before all its candidates. -/
theorem candidates_append {front : String}
    (closed : front.toList = [] ∨ front.toList.getLast? = some '/') (lookup : SourceLookup)
    (file : String) :
    lookup.candidates (front ++ file) = (lookup.candidates file).map (front ++ ·) := by
  unfold candidates
  rw [String.toList_append, Text.stripSuffix?_append (by decide) closed]
  cases Text.stripSuffix? sourceExtension.toList file.toList with
  | none => rfl
  | some stem =>
    simp only [Option.map_some, List.map_cons, List.map_map, List.cons.injEq, true_and]
    refine List.map_congr_left fun extension _ => ?_
    rw [← String.toList_inj]
    simp

private theorem plain_of_mem_candidates
    (extensions : ∀ extension ∈ lookup.alternates, '/' ∉ extension.toList) {file other : String}
    (plain : '/' ∉ file.toList) (member : other ∈ lookup.candidates file) :
    '/' ∉ other.toList := by
  unfold candidates at member
  rcases List.mem_cons.mp member with rfl | later
  · exact plain
  · unfold Text.stripSuffix? at later
    split at later
    · rename_i stem stripped
      split at stripped
      · obtain ⟨extension, given, rfl⟩ := List.mem_map.mp later
        cases stripped
        rw [String.toList_append, String.toList_ofList, List.mem_append]
        exact fun slash => slash.elim (fun early => plain (List.mem_of_mem_take early))
          (extensions extension given)
      · cases stripped
    · cases later

/-- A file that is found is named by one of the candidates, and no segment before it leads up. -/
theorem descending_of_found (rooted : disk.Rooted)
    (extensions : ∀ extension ∈ lookup.alternates, '/' ∉ extension.toList)
    {name front file : String} (fronts : Front name front) (plain : '/' ∉ file.toList)
    {location : SourceLocation} (found : lookup.resolveFile disk (front ++ file) = some location) :
    location.root ∈ lookup.roots ∧ disk.isFile location.path = true ∧
      ∃ other ∈ lookup.candidates file, location.relative = front ++ other ∧ IsName other := by
  obtain ⟨member, fromRoot, isFile⟩ := resolveFile_eq_some found
  rw [candidates_append fronts.closed] at member
  obtain ⟨other, candidate, relative⟩ := List.mem_map.mp member
  obtain ⟨before, segments, -⟩ :=
    fronts.segments (plain_of_mem_candidates extensions plain candidate)
  obtain ⟨earlier, joined⟩ := exists_segments_join location.root segments
  rw [relative] at joined
  exact ⟨fromRoot, isFile, other, candidate, relative.symm,
    Disk.isName_of_isFile rooted isFile joined⟩

/-- A file that is found lies below its root, or below the root of the disk. -/
theorem descends_of_found (rooted : disk.Rooted)
    (extensions : ∀ extension ∈ lookup.alternates, '/' ∉ extension.toList)
    {name front file : String} (fronts : Front name front) (plain : '/' ∉ file.toList)
    {location : SourceLocation} (found : lookup.resolveFile disk (front ++ file) = some location) :
    ∃ names, disk.Descends location.root location.path names ∨
      StartsAbove name ∧ disk.Descends ⟨"/"⟩ location.path names := by
  obtain ⟨-, isFile, other, -, relative, own⟩ :=
    descending_of_found rooted extensions fronts plain found
  have descending := fronts.descending own
  rw [← relative] at descending
  have parts : location.path.parts = _ := descending.parts_join location.root
  have below : (⟨location.relative⟩ : Path).steps ≠ [] := by
    obtain ⟨before, segments, -⟩ := fronts.segments own.plain
    rw [relative, Disk.steps_of_segments segments own.isLead]
    simp
  refine ⟨(⟨location.relative⟩ : Path).steps, ?_⟩
  by_cases absolute : (⟨location.relative⟩ : Path).isAbsolute = true
  · right
    rw [if_pos absolute] at parts
    refine ⟨fronts.startsAbove own.plain (by rw [← relative]; exact absolute), ?_⟩
    exact Disk.descends_of_parts rooted isFile below (fun _ => descending.isName) parts
  · left
    rw [if_neg absolute] at parts
    exact Disk.descends_of_parts rooted isFile below (fun _ => descending.isName) parts

/-- A file with one step more than a directory lies directly in it. -/
theorem descends_of_steps (rooted : disk.Rooted) {location : SourceLocation}
    (isFile : disk.isFile location.path = true) {directory other : String} (own : IsName other)
    (down : (⟨directory⟩ : Path).Descending) (relative : (⟨location.relative⟩ : Path).Descending)
    (absolute : (⟨location.relative⟩ : Path).isAbsolute = (⟨directory⟩ : Path).isAbsolute)
    (steps : (⟨location.relative⟩ : Path).steps = (⟨directory⟩ : Path).steps ++ [other]) :
    disk.Descends (location.root.join ⟨directory⟩) location.path [other] := by
  have parts : location.path.parts = (location.root.join ⟨directory⟩).parts ++
      [other].map .name := by
    rw [SourceLocation.path, relative.parts_join, down.parts_join, absolute, steps, List.map_append,
      List.append_assoc]
  exact Disk.descends_of_parts rooted isFile (by simp) (by simpa using own) parts

/-- A file that is found in a directory lies directly in it. -/
theorem descends_of_found_directory (rooted : disk.Rooted)
    (extensions : ∀ extension ∈ lookup.alternates, '/' ∉ extension.toList)
    {name directory file : String}
    (starts : directory.toList ++ ['/'] <+: name.toList.map dotToSlash) (spelled : directory ≠ "")
    (plain : '/' ∉ file.toList) {location : SourceLocation}
    (found : lookup.resolveFile disk (directory ++ "/" ++ file) = some location) :
    ∃ other ∈ lookup.candidates file,
      disk.Descends (location.root.join ⟨directory⟩) location.path [other] := by
  obtain ⟨-, isFile, other, candidate, relative, own⟩ :=
    descending_of_found rooted extensions (.directory starts) plain found
  have whole : (⟨directory ++ "/" ++ other⟩ : Path).chars = directory.toList ++
      '/' :: other.toList := by
    simp [chars]
  have absolute : (⟨directory ++ "/" ++ other⟩ : Path).isAbsolute =
      (⟨directory⟩ : Path).isAbsolute := by
    obtain ⟨first, rest, letters⟩ :=
      List.exists_cons_of_ne_nil (mt String.toList_eq_nil_iff.mp spelled)
    rw [isAbsolute, isAbsolute, whole, chars, letters]
    rfl
  have steps : (⟨directory ++ "/" ++ other⟩ : Path).steps =
      (⟨directory⟩ : Path).steps ++ [other] := by
    rw [Path.steps, whole, stepsOf_append, stepsOf, stepsOf, segmentsOf_of_plain own.plain,
      List.filter_cons_of_pos own.isStep]
    rfl
  rw [← relative] at absolute steps
  have down : (⟨location.relative⟩ : Path).Descending :=
    relative ▸ Front.descending (.directory starts) own
  exact ⟨other, candidate,
    descends_of_steps rooted isFile own (descending_of_dotless (dotless_of_starts starts)) down
    absolute steps⟩

/-- A file that is found without a directory before it lies directly in its root. -/
theorem descends_of_found_here (rooted : disk.Rooted)
    (extensions : ∀ extension ∈ lookup.alternates, '/' ∉ extension.toList) {name file : String}
    (fronts : Front name "") (plain : '/' ∉ file.toList) {location : SourceLocation}
    (found : lookup.resolveFile disk ("" ++ file) = some location) :
    ∃ other ∈ lookup.candidates file,
      disk.Descends (location.root.join ⟨""⟩) location.path [other] := by
  obtain ⟨-, isFile, other, candidate, relative, own⟩ :=
    descending_of_found rooted extensions fronts plain found
  have down : (⟨location.relative⟩ : Path).Descending := relative ▸ fronts.descending own
  rw [String.empty_append] at relative
  have absolute : (⟨location.relative⟩ : Path).isAbsolute = (⟨""⟩ : Path).isAbsolute := by
    rw [relative, Scan.relative_of_isName own]
    rfl
  have steps : (⟨location.relative⟩ : Path).steps = (⟨""⟩ : Path).steps ++ [other] := by
    rw [relative, Path.steps, stepsOf, chars, segmentsOf_of_plain own.plain,
      List.filter_cons_of_pos own.isStep]
    rfl
  have dotless : '.' ∉ (⟨""⟩ : Path).chars := by decide
  exact ⟨other, candidate, descends_of_steps rooted isFile own (descending_of_dotless dotless) down
    absolute steps⟩

/-- The directory of a package is what the name of its classes starts with. -/
theorem starts_package {record : Record} (nonempty : record.packageName ≠ "") :
    (record.packageName.map dotToSlash).toList ++ ['/'] <+: record.name.toList.map dotToSlash := by
  unfold Record.packageName at *
  cases found : Text.splitLast? '.' record.name.toList with
  | none => simp [found] at nonempty
  | some parts =>
    obtain ⟨package, last⟩ := parts
    obtain ⟨shown, -⟩ := Text.append_of_splitLast? found
    refine ⟨last.map dotToSlash, ?_⟩
    simp [shown, dotToSlash]

theorem front_packageDirectory (record : Record) : Front record.name record.packageDirectory := by
  unfold Record.packageDirectory
  split
  · exact .none
  · rename_i nonempty
    exact .directory (starts_package nonempty)

private theorem slash_not_mem_of_isPlain {hint : String} (plain : isPlain hint = true) :
    '/' ∉ hint.toList := by
  simp only [isPlain, Bool.and_eq_true] at plain
  simpa using plain.1.1.2

/-- The hint counts if it is plain, and stands for a file of the package. -/
theorem hintedFile?_eq (record : Record) :
    hintedFile? record = (record.sourceFile.filter isPlain).map (record.packageDirectory ++ ·) := by
  unfold hintedFile? Record.packageDirectory
  cases record.sourceFile with
  | none => rfl
  | some hint =>
    cases plain : isPlain hint with
    | false => simp [plain, Option.filter]
    | true =>
      by_cases empty : record.packageName = ""
      · simp [plain, empty, Option.filter, pure]
      · simp [plain, empty, Option.filter, pure]

/-- A hint is a plain name that is looked for in the directory of the package. -/
theorem hintedFile?_eq_some {record : Record} {file : String}
    (hinted : hintedFile? record = some file) :
    ∃ hint, record.sourceFile = some hint ∧ '/' ∉ hint.toList ∧
      file = record.packageDirectory ++ hint := by
  rw [hintedFile?_eq] at hinted
  obtain ⟨hint, kept, rfl⟩ := Option.map_eq_some_iff.mp hinted
  obtain ⟨given, plain⟩ := Option.filter_eq_some_iff.mp kept
  exact ⟨hint, given, slash_not_mem_of_isPlain plain, rfl⟩

private theorem extensions_plain (roots : List Path) :
    ∀ extension ∈ ({ roots } : SourceLookup).alternates, '/' ∉ extension.toList := by
  change ∀ extension ∈ [".as", ".mxml"], '/' ∉ extension.toList
  decide

/-- A file found through the hint lies below its root as the class says, and directly in the
package. -/
theorem descends_of_hinted (rooted : disk.Rooted) {roots : List Path} {record : Record}
    {location : SourceLocation}
    (found : (hintedFile? record).bind (resolveFile { roots } disk) = some location) :
    location.root ∈ roots ∧
      (∃ names, disk.Descends location.root location.path names ∨
        StartsAbove record.name ∧ disk.Descends ⟨"/"⟩ location.path names) ∧
      ∃ hint, record.sourceFile = some hint ∧ ∃ file ∈ candidates { roots } hint,
        disk.Descends (location.root.join ⟨record.packageName.map dotToSlash⟩)
          location.path [file] := by
  obtain ⟨file, hinted, resolved⟩ := Option.bind_eq_some_iff.mp found
  obtain ⟨hint, given, plain, rfl⟩ := hintedFile?_eq_some hinted
  have extensions := extensions_plain roots
  refine ⟨(resolveFile_eq_some resolved).2.1,
    descends_of_found rooted extensions (front_packageDirectory record) plain resolved, hint, given,
    ?_⟩
  unfold Record.packageDirectory at resolved
  by_cases empty : record.packageName = ""
  · rw [if_pos empty] at resolved
    have package : record.packageName.map dotToSlash = "" := by simp [empty]
    rw [package]
    exact descends_of_found_here rooted extensions
      (Front.none : Front record.name "") plain resolved
  · rw [if_neg empty] at resolved
    have spelled : record.packageName.map dotToSlash ≠ "" := by simpa using empty
    exact descends_of_found_directory rooted extensions (starts_package empty)
      spelled plain resolved

/-- The source file of a class is looked for below the roots, and only a class name that starts with
a dot or a slash makes it a file below the root of the disk. A file found through the hint lies
directly in its package. -/
theorem resolveRecord_descends (rooted : disk.Rooted) {roots : List Path} {record : Record}
    {location : SourceLocation} (found : resolveRecord { roots } disk record = some location) :
    location.root ∈ roots ∧
      (∃ names, disk.Descends location.root location.path names ∨
        StartsAbove record.name ∧ disk.Descends ⟨"/"⟩ location.path names) ∧
      ((hintedFile? record).bind (resolveFile { roots } disk) = some location →
        ∃ hint, record.sourceFile = some hint ∧ ∃ file ∈ candidates { roots } hint,
          disk.Descends (location.root.join ⟨record.packageName.map dotToSlash⟩)
            location.path [file]) := by
  rcases Option.or_eq_some_iff.mp found with hinted | ⟨-, resolved⟩
  · obtain ⟨fromRoot, descends, direct⟩ := descends_of_hinted rooted hinted
    exact ⟨fromRoot, descends, fun _ => direct⟩
  · obtain ⟨front, file, fronts, plain, spelled⟩ :=
      exists_front record.name (show '/' ∉ sourceExtension.toList by decide)
    unfold resolve at resolved
    rw [spelled] at resolved
    exact ⟨(resolveFile_eq_some resolved).2.1,
      descends_of_found rooted (extensions_plain roots) fronts plain resolved,
      fun hinted => (descends_of_hinted rooted hinted).2.2⟩

/-! A class in a package, next to a file outside of the sources. -/

private def sources : Disk where
  root := .directory "etc" (.file "passwd" [] .empty)
    (.directory "src" (.directory "acme" (.file "Foo.as" [] .empty) .empty) .empty)
  ordered := ⟨by decide, ⟨by decide, trivial⟩, by decide,
    ⟨by decide, ⟨by decide, trivial⟩, trivial⟩, trivial⟩
  workPlace := []

private theorem rooted_sources :
    sources.Rooted := ⟨rfl, fun _ member => absurd member List.not_mem_nil⟩

private def nested : Record := ⟨"acme.Foo$Bar", some "Foo.java", [], []⟩

theorem resolveRecord_descends_of_nested :
    resolveRecord { roots := [⟨"gone"⟩, ⟨"./src/"⟩] } sources nested =
      some ⟨⟨"./src/"⟩, "acme/Foo.as"⟩ ∧
      (∃ names, sources.Descends ⟨"./src/"⟩ ⟨"./src/acme/Foo.as"⟩ names) ∧
      ∃ file ∈ candidates { roots := [⟨"gone"⟩, ⟨"./src/"⟩] } "Foo.java",
        sources.Descends ⟨"./src/acme"⟩ ⟨"./src/acme/Foo.as"⟩ [file] := by
  have found : resolveRecord { roots := [⟨"gone"⟩, ⟨"./src/"⟩] } sources nested =
      some ⟨⟨"./src/"⟩, "acme/Foo.as"⟩ := by decide +kernel
  obtain ⟨-, ⟨names, descends⟩, direct⟩ := resolveRecord_descends rooted_sources found
  obtain ⟨hint, given, file, candidate, directly⟩ := direct (by decide +kernel)
  cases given
  have path : SourceLocation.path ⟨⟨"./src/"⟩, "acme/Foo.as"⟩ = ⟨"./src/acme/Foo.as"⟩ := by
    decide +kernel
  have directory :
      (⟨"./src/"⟩ : Path).join ⟨nested.packageName.map dotToSlash⟩ = ⟨"./src/acme"⟩ := by
    decide +kernel
  have anchored : ¬ StartsAbove nested.name := by
    unfold StartsAbove
    decide +kernel
  rw [path] at descends directly
  rw [directory] at directly
  exact ⟨found, ⟨names, descends.resolve_right fun above => anchored above.1⟩,
    file, candidate, directly⟩

private def unanchored : Record := ⟨".etc.Foo", some "passwd", [], []⟩

/-- A class name that starts with a dot leads to a file outside of the roots. -/
theorem resolveRecord_leaves_root :
    resolveRecord { roots := [⟨"src"⟩] } sources unanchored = some ⟨⟨"src"⟩, "/etc/passwd"⟩ ∧
      ¬ ∃ names, sources.Descends ⟨"src"⟩ (SourceLocation.path ⟨⟨"src"⟩, "/etc/passwd"⟩) names := by
  refine ⟨by decide +kernel, fun ⟨names, descends⟩ => ?_⟩
  have outside : (SourceLocation.path ⟨⟨"src"⟩, "/etc/passwd"⟩).parts = [.root, .name "etc",
      .name "passwd"] := by
    decide +kernel
  have inside : (⟨"src"⟩ : Path).parts = [.name "src"] := by decide +kernel
  have parts := descends.parts
  rw [outside, inside] at parts
  simp at parts

end SourceLookup

end ClassCoverage
