import ClassCoverage.Proofs.SourceCandidates

/-! Source files and packages. A class is looked for in the directory of its package, by its hint
and by its name, as long as a `$` stands only inside its simple name and a dot only behind a
package. -/
namespace ClassCoverage

namespace ClassName

/-- What stands behind the last dot. -/
def simpleName (name : String) : String :=
  match Text.splitLast? '.' name.toList with
  | some (_, last) => String.ofList last
  | none => name

/-- What stands before the first `$`. -/
def dollarless (text : List Char) : List Char := text.takeWhile (· != '$')

private theorem dollar_not_mem_dollarless (text : List Char) : '$' ∉ dollarless text := by
  intro member
  have kept := List.all_eq_true.mp (List.all_takeWhile (p := (· != '$')) (l := text)) '$' member
  simp at kept

theorem dollarless_append {front : List Char} (plain : '$' ∉ front) (back : List Char) :
    dollarless (front ++ back) = front ++ dollarless back := by
  unfold dollarless
  rw [List.takeWhile_append_of_pos]
  intro char member
  simpa using fun same : char = '$' => plain (same ▸ member)

private theorem prefix_dollarless {front text : List Char} (starts : front <+: text)
    (plain : '$' ∉ front) :
    front <+: dollarless text := by
  obtain ⟨back, rfl⟩ := starts
  rw [dollarless_append plain]
  exact List.prefix_append ..

private theorem dollarless_ne_nil {text : List Char} (nonempty : text ≠ [])
    (plain : text.head? ≠ some '$') :
    dollarless text ≠ [] := by
  cases text with
  | nil => exact absurd rfl nonempty
  | cons char rest =>
    have different : char ≠ '$' := by simpa using plain
    simp [dollarless, different]

private theorem dollar_mem_map_iff (text : List Char) : '$' ∈ text.map dotToSlash ↔ '$' ∈ text := by
  have same (char : Char) : dotToSlash char = '$' ↔ char = '$' := by
    unfold dotToSlash
    split
    · rename_i dot
      subst dot
      decide
    · rfl
  simp [same]

private theorem map_dotToSlash_of_dotless {text : List Char} (dotless : '.' ∉ text) :
    text.map dotToSlash = text := by
  have unchanged (char : Char) (member : char ∈ text) : dotToSlash char = id char :=
    if_neg fun dot : char = '.' => dotless (dot ▸ member)
  rw [List.map_congr_left unchanged, List.map_id]

theorem toList_sourceFile (name extension : String) :
    (sourceFile name extension).toList = (dollarless name.toList).map dotToSlash ++
      extension.toList := by
  simp [sourceFile, dollarless]

/-- A name is a package and a simple name with a dot between them, or a simple name alone. -/
theorem name_cases (record : Record) :
    (∃ package last, record.name.toList = package ++ '.' :: last ∧ '.' ∉ last ∧
      record.packageName = String.ofList package ∧ simpleName record.name = String.ofList last) ∨
    ('.' ∉ record.name.toList ∧ record.packageName = "" ∧
    simpleName record.name = record.name) := by
  unfold Record.packageName simpleName
  cases found : Text.splitLast? '.' record.name.toList with
  | none => exact .inr ⟨Text.not_mem_of_splitLast? found, rfl, rfl⟩
  | some parts =>
    obtain ⟨package, last⟩ := parts
    obtain ⟨whole, dotless⟩ := Text.append_of_splitLast? found
    exact .inl ⟨package, last, whole, dotless, rfl, rfl⟩

end ClassName
open ClassName

/-- A class whose name does not lead its source file out of the package: no `$` stands in the
package or at the start of the simple name, and there is no dot without a package before it. -/
structure Record.NamedInPackage (record : Record) : Prop where
  package : '$' ∉ record.packageName.toList
  simple : (simpleName record.name).toList.head? ≠ some '$'
  anchored : record.packageName = "" → '.' ∉ record.name.toList

/-- A file in the directory of the package, named by the start of the simple name and an
extension. -/
def Record.FileInPackage (record : Record) (extension file : String) : Prop :=
  ∃ front, front ≠ "" ∧ front.toList <+: (simpleName record.name).toList ∧
    file = record.packageDirectory ++ front ++ extension

namespace ClassName
variable {record : Record}

theorem toList_packageDirectory (packaged : record.packageName ≠ "") :
    record.packageDirectory.toList = record.packageName.toList.map dotToSlash ++ ['/'] := by
  simp [Record.packageDirectory, packaged]

private theorem fileInPackage_sourceFile (inside : record.NamedInPackage)
    (named : simpleName record.name ≠ "") (extension : String) :
    record.FileInPackage extension (sourceFile record.name extension) := by
  refine ⟨String.ofList (dollarless (simpleName record.name).toList), ?_, ?_, ?_⟩
  · intro empty
    refine dollarless_ne_nil (mt String.toList_eq_nil_iff.mp named) inside.simple ?_
    simpa using congrArg String.toList empty
  · rw [String.toList_ofList]
    exact List.takeWhile_prefix _
  · rw [← String.toList_inj, toList_sourceFile, String.toList_append, String.toList_append,
      String.toList_ofList]
    refine congrArg (· ++ extension.toList) ?_
    rcases name_cases record with ⟨package, last, whole, dotless, packageName,
      simple⟩ | ⟨dotless, packageName, simple⟩
    · have packaged : record.packageName ≠ "" :=
        fun empty => inside.anchored empty (by simp [whole])
      have plain : '$' ∉ package ++ ['.'] := by
        have own := inside.package
        rw [packageName, String.toList_ofList] at own
        simpa using own
      have unchanged : (dollarless last).map dotToSlash = dollarless last :=
        map_dotToSlash_of_dotless fun dot => dotless ((List.takeWhile_prefix _).subset dot)
      rw [toList_packageDirectory packaged, packageName, simple, String.toList_ofList,
        String.toList_ofList, whole,
        List.append_cons, dollarless_append plain, List.map_append, unchanged, List.map_append]
      rfl
    · have unchanged : (dollarless record.name.toList).map dotToSlash =
          dollarless record.name.toList :=
        map_dotToSlash_of_dotless fun dot => dotless ((List.takeWhile_prefix _).subset dot)
      rw [simple, unchanged]
      simp [Record.packageDirectory, packageName]

theorem namedInPackage_of_fileInPackage {extension : String}
    (inside : record.FileInPackage extension (sourceFile record.name extension)) :
    record.NamedInPackage := by
  obtain ⟨front, nonempty, starts, spelled⟩ := inside
  have whole : (dollarless record.name.toList).map dotToSlash =
      record.packageDirectory.toList ++ front.toList := by
    have letters := congrArg String.toList spelled
    rw [toList_sourceFile, String.toList_append, String.toList_append] at letters
    exact List.append_cancel_right letters
  -- Neither the directory nor the file has a `$`, since all that stands before the extension has
  -- none.
  have plain : '$' ∉ record.packageDirectory.toList ++ front.toList := by
    rw [← whole, dollar_mem_map_iff]
    exact dollar_not_mem_dollarless _
  rw [List.mem_append, not_or] at plain
  obtain ⟨plainDirectory, plainFront⟩ := plain
  have letters : front.toList ≠ [] := mt String.toList_eq_nil_iff.mp nonempty
  refine ⟨fun member => ?_, fun first => ?_, fun empty dot => ?_⟩
  · apply plainDirectory
    have packaged : record.packageName ≠ "" := by
      intro empty
      simp [empty] at member
    rw [toList_packageDirectory packaged]
    exact List.mem_append_left _ ((dollar_mem_map_iff _).mpr member)
  · obtain ⟨char, rest, shown⟩ := List.exists_cons_of_ne_nil letters
    obtain ⟨back, own⟩ := starts
    rw [← own, shown, List.cons_append, List.head?_cons, Option.some.injEq] at first
    exact plainFront (by simp [shown, first])
  · rcases name_cases record with ⟨package, last, split, -, packageName, simple⟩ | ⟨dotless, -, -⟩
    · have none : package = [] := by simpa [packageName] using empty
      have before := (prefix_dollarless starts plainFront).length_le
      rw [split, none, List.nil_append, ← List.singleton_append,
        dollarless_append (by decide)] at whole
      have sizes := congrArg List.length whole
      simp only [Record.packageDirectory, empty, simple, String.toList_ofList,
        List.length_map, List.length_append,
        if_pos, String.toList_empty, List.length_nil, List.length_singleton] at sizes before
      omega
    · exact dotless dot

/-- The source file of a class lies in the directory of its package for any extension, or for none:
`NamedInPackage` says for which names. Then a lookup looks in this directory only, by the hint and
by the name. -/
theorem sourceFile_in_package_iff (record : Record) (named : simpleName record.name ≠ "") :
    (∀ extension, record.FileInPackage extension (sourceFile record.name extension) ↔
    record.NamedInPackage) ∧
      ∀ lookup : SourceLookup,
        (∀ hinted, SourceLookup.hintedFile? record = some hinted →
        ∀ file ∈ lookup.candidates hinted,
          ∃ hint, record.sourceFile = some hint ∧ '/' ∉ hint.toList ∧
            ∃ own ∈ lookup.candidates hint,
            file = record.packageDirectory ++ own) ∧
        (record.NamedInPackage →
        ∀ file ∈ lookup.candidates (sourceFile record.name sourceExtension),
          ∃ extension ∈ ".java" :: lookup.alternates, record.FileInPackage extension file) := by
  have inPackage (inside : record.NamedInPackage) (extension : String) :
      record.FileInPackage extension (sourceFile record.name extension) :=
      fileInPackage_sourceFile inside named extension
  refine ⟨fun extension => ⟨namedInPackage_of_fileInPackage, fun inside =>
    inPackage inside extension⟩,
    fun lookup => ⟨fun hinted found file candidate => ?_, fun inside file candidate => ?_⟩⟩
  · obtain ⟨hint, given, plain, rfl⟩ := SourceLookup.hintedFile?_eq_some found
    rw [SourceLookup.candidates_append
      (SourceLookup.front_packageDirectory record).closed] at candidate
    obtain ⟨own, member, rfl⟩ := List.mem_map.mp candidate
    exact ⟨hint, given, plain, own, member, rfl⟩
  · rw [SourceLookup.candidates_sourceFile] at candidate
    obtain ⟨extension, member, rfl⟩ := List.mem_map.mp candidate
    exact ⟨extension, member, inPackage inside extension⟩

private def nestedTwice : Record := ⟨"acme.util.Foo$Bar$1", some "Foo.java", [], []⟩

theorem sourceFile_in_package_of_nested :
    simpleName nestedTwice.name ≠ "" ∧
      (∀ extension, nestedTwice.FileInPackage extension (sourceFile nestedTwice.name extension)) ∧
      (∀ file ∈ SourceLookup.candidates { roots := [⟨"src"⟩] } "acme/util/Foo.java",
        ∃ extension ∈ [".java", ".as", ".mxml"], nestedTwice.FileInPackage extension file) := by
  have named : simpleName nestedTwice.name ≠ "" := by decide +kernel
  have inside : nestedTwice.NamedInPackage :=
    ⟨by decide +kernel, by decide +kernel, fun empty => absurd empty (by decide +kernel)⟩
  obtain ⟨all, lookups⟩ := sourceFile_in_package_iff nestedTwice named
  have spelled : sourceFile nestedTwice.name sourceExtension = "acme/util/Foo.java" := by
    decide +kernel
  refine ⟨named, fun extension => (all extension).mpr inside, ?_⟩
  have byName := (lookups { roots := [⟨"src"⟩] }).2 inside
  rw [spelled] at byName
  exact byName

/-- A `$` in the package, or at the start of the simple name, ends the file name before the class
does, and a dot without a package before it leads to the root of the disk. -/
theorem sourceFile_outside_package :
    sourceFile "a$b.C" ".java" = "a.java" ∧ sourceFile "acme.$Proxy" ".java" = "acme/.java" ∧
      sourceFile ".X" ".java" = "/X.java" ∧
      ∀ name ∈ ["a$b.C", "acme.$Proxy", ".X"], simpleName name ≠ "" ∧
        ¬ (Record.mk name none [] []).FileInPackage ".java" (sourceFile name ".java") := by
  refine ⟨by decide +kernel, by decide +kernel, by decide +kernel, fun name member => ⟨?_,
    fun inside => ?_⟩⟩
  · revert name
    decide +kernel
  · obtain ⟨package, simple, anchored⟩ := namedInPackage_of_fileInPackage inside
    simp only [List.mem_cons, List.not_mem_nil, or_false] at member
    rcases member with rfl | rfl | rfl
    · exact package (by decide +kernel)
    · exact simple (by decide +kernel)
    · exact anchored (by decide +kernel) (by decide +kernel)

end ClassName
end ClassCoverage
