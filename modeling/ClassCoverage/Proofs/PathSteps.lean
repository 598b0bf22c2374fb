import ClassCoverage.Path

/-! The steps of a path: its segments without those that lead nowhere. The directory of a path has
all of its steps but the last, and joining paths appends their steps. -/
namespace ClassCoverage

namespace Text

theorem split_of_not_mem {mark : Char} {text : List Char} (plain : mark ∉ text) :
    split (· == mark) text = [text] := by
  induction text with
  | nil => rfl
  | cons char rest ih =>
    have different : mark ≠ char := List.ne_of_not_mem_cons plain
    have later : mark ∉ rest := List.not_mem_of_not_mem_cons plain
    simp [split, ih later, Ne.symm different]

/-- A separator cuts a text in two, neither of which sees the other. -/
theorem split_append_cons {separator : Char → Bool} {mark : Char} (cuts : separator mark = true)
    (front back : List Char) :
    split separator (front ++ mark :: back) = split separator front ++ split separator back := by
  induction front with
  | nil => simp [split, cuts]
  | cons char rest ih =>
    cases separates : separator char with
    | true => simp [split, separates, ih]
    | false =>
      obtain ⟨piece, pieces, shown⟩ := List.exists_cons_of_ne_nil (split_ne_nil separator rest)
      simp [split, separates, ih, shown]

theorem split_append (mark : Char) (front back : List Char) :
    split (· == mark) (front ++ mark :: back) =
      split (· == mark) front ++ split (· == mark) back :=
  split_append_cons (by simp) front back

theorem not_mem_of_mem_split {mark : Char} {text piece : List Char}
    (member : piece ∈ split (· == mark) text) : mark ∉ piece := by
  induction text generalizing piece with
  | nil => simp [split] at member; simp [member]
  | cons char rest ih =>
    by_cases same : char = mark
    · simp only [split, same, beq_self_eq_true, ↓reduceIte, List.mem_cons] at member
      rcases member with rfl | later
      · simp
      · exact ih later
    · obtain ⟨first, pieces, shown⟩ := List.exists_cons_of_ne_nil (split_ne_nil (· == mark) rest)
      simp only [split, beq_iff_eq, same, ↓reduceIte, shown, List.mem_cons] at member
      rcases member with rfl | later
      · have inside : mark ∉ first := ih (by simp [shown])
        simp [inside, Ne.symm same]
      · exact ih (by simp [shown, later])

end Text

namespace Path

/-- Does a segment lead on, down or up? -/
def isStep (segment : String) : Bool := segment ≠ "" && segment ≠ "."

/-- A segment that can only lead down. -/
structure IsName (segment : String) : Prop where
  nonempty : segment ≠ ""
  notHere : segment ≠ "."
  notUp : segment ≠ ".."
  plain : '/' ∉ segment.toList

theorem IsName.of_length {segment : String} (size : 2 < segment.toList.length)
    (plain : '/' ∉ segment.toList) :
    IsName segment := by
  have longer {short : String} (few : short.toList.length ≤ 2) : segment ≠ short := by
    rintro rfl
    omega
  exact ⟨longer (by decide), longer (by decide), longer (by decide), plain⟩

instance (segment : String) : Decidable (IsName segment) :=
  decidable_of_iff (segment ≠ "" ∧ segment ≠ "." ∧ segment ≠ ".." ∧ '/' ∉ segment.toList)
    ⟨fun ⟨nonempty, notHere, notUp, plain⟩ => ⟨nonempty, notHere, notUp, plain⟩,
      fun named => ⟨named.nonempty, named.notHere, named.notUp, named.plain⟩⟩

/-- A segment that leads on, down or up. -/
structure IsLead (segment : String) : Prop where
  nonempty : segment ≠ ""
  notHere : segment ≠ "."
  plain : '/' ∉ segment.toList

theorem IsName.isLead {segment : String} (named : IsName segment) : IsLead segment :=
  ⟨named.nonempty, named.notHere, named.plain⟩

theorem IsLead.isStep {segment : String} (leads : IsLead segment) : Path.isStep segment = true := by
  simp [Path.isStep, leads.nonempty, leads.notHere]

theorem IsName.isStep {segment : String} (named : IsName segment) : isStep segment = true := by
  simp [Path.isStep, named.nonempty, named.notHere]

def segmentsOf (chars : List Char) : List String := (Text.split (· == '/') chars).map String.ofList

def stepsOf (chars : List Char) : List String := (segmentsOf chars).filter isStep

def steps (path : Path) : List String := stepsOf path.chars

theorem segments_eq (path : Path) : path.segments = segmentsOf path.chars := rfl

theorem spelling_ne_empty_of_segments {path : Path} {front : List String} {last : String}
    (split : path.segments = front ++ [last]) (nonempty : last ≠ "") : path.spelling ≠ "" := by
  intro empty
  have single : path.segments = [""] := by
    rw [segments_eq, chars, empty]
    decide
  rw [single] at split
  obtain ⟨_, same⟩ := List.append_inj' (show [] ++ [""] = front ++ [last] from split) rfl
  exact nonempty (List.cons.inj same).1.symm

theorem segmentsOf_append (front back : List Char) :
    segmentsOf (front ++ '/' :: back) = segmentsOf front ++ segmentsOf back := by
  simp [segmentsOf, Text.split_append]

theorem segmentsOf_of_plain {text : String} (plain : '/' ∉ text.toList) :
    segmentsOf text.toList = [text] := by
  simp [segmentsOf, Text.split_of_not_mem plain]

theorem plain_of_mem_segments {path : Path} {segment : String} (member : segment ∈ path.segments) :
    '/' ∉ segment.toList := by
  obtain ⟨piece, inside, rfl⟩ := List.mem_map.mp member
  simpa using Text.not_mem_of_mem_split inside

@[simp] theorem stepsOf_nil : stepsOf [] = [] := by decide

@[simp] theorem stepsOf_dot : stepsOf ['.'] = [] := by decide

theorem stepsOf_append (front back : List Char) :
    stepsOf (front ++ '/' :: back) = stepsOf front ++ stepsOf back := by
  simp [stepsOf, segmentsOf_append]

theorem stepsOf_cons_slash (back : List Char) : stepsOf ('/' :: back) = stepsOf back := by
  simpa using stepsOf_append [] back

theorem stepsOf_dropIdle (dotCounts : Bool) (reversed : List Char) :
    stepsOf (dropIdle dotCounts reversed).reverse = stepsOf reversed.reverse := by
  fun_induction dropIdle dotCounts reversed with
  | case1 rest ih => rw [ih, List.reverse_cons, stepsOf_append, stepsOf_nil, List.append_nil]
  | case2 => rfl
  | case3 => simp
  | case4 rest ih =>
    rw [ih, List.reverse_cons, stepsOf_append, stepsOf_nil, List.reverse_cons, List.reverse_cons,
      List.append_assoc, List.singleton_append, stepsOf_append, stepsOf_dot]
  | case5 => rfl

theorem dropIdle_suffix (dotCounts : Bool) (reversed : List Char) :
    dropIdle dotCounts reversed <:+ reversed := by
  fun_induction dropIdle dotCounts reversed with
  | case1 rest ih => exact ih.trans (List.suffix_cons _ _)
  | case2 => exact List.suffix_rfl
  | case3 => exact List.nil_suffix
  | case4 rest ih => exact ih.trans (List.suffix_cons _ _)
  | case5 => exact List.suffix_rfl

/-- A segment at the end that leads on is not idle. -/
theorem dropIdle_of_isLead {name : String} (leads : IsLead name) (dotCounts : Bool)
    (front : List Char) :
    dropIdle dotCounts (name.toList.reverse ++ '/' :: front) = name.toList.reverse ++ '/' :: front ∧
      dropIdle dotCounts name.toList.reverse = name.toList.reverse := by
  have plain : '/' ∉ name.toList.reverse := by simpa using leads.plain
  cases shown : name.toList.reverse with
  | nil => exact absurd (by simpa using shown) leads.nonempty
  | cons last before =>
    rw [shown] at plain
    have notSlash : last ≠ '/' := fun same => plain (by simp [same])
    have notDot : ¬ (last = '.' ∧ before = []) := fun ⟨dot, alone⟩ => leads.notHere <| by
      rw [← String.toList_inj, ← List.reverse_inj, shown, dot, alone]
      rfl
    constructor
    · rw [List.cons_append, dropIdle]
      · intro rest same
        exact notSlash (List.cons.inj same).1
      · intro same
        simp at same
      · intro rest same
        obtain ⟨dot, behind⟩ := List.cons.inj same
        cases before with
        | nil => exact notDot ⟨dot, rfl⟩
        | cons next before =>
          simp only [List.cons_append, List.cons.injEq] at behind
          exact plain (by simp [behind.1])
    · rw [dropIdle]
      · intro rest same
        exact notSlash (List.cons.inj same).1
      · intro same
        simp only [List.cons.injEq] at same
        exact notDot same
      · intro rest same
        obtain ⟨_, behind⟩ := List.cons.inj same
        exact plain (by simp [behind])

private theorem dropWhile_name {name : String} (plain : '/' ∉ name.toList) (front : List Char) :
    (name.toList.reverse ++ front).dropWhile (· != '/') = front.dropWhile (· != '/') := by
  rw [List.dropWhile_append_of_pos]
  intro char member
  have different : char ≠ '/' := fun same => plain (by simpa [same] using member)
  simpa using different

theorem parentOf_single {name : String} (leads : IsLead name) (dotCounts : Bool) :
    parentOf dotCounts name.toList = some [] := by
  have kept := (dropIdle_of_isLead leads dotCounts []).2
  have dropped := dropWhile_name leads.plain []
  rw [List.append_nil] at dropped
  cases shown : name.toList.reverse with
  | nil => exact absurd (by simpa using shown) leads.nonempty
  | cons last before =>
    rw [shown] at kept dropped
    simp [parentOf, shown, kept, dropped, dropIdle]

theorem parentOf_append {name : String} (leads : IsLead name) (dotCounts : Bool)
    (front : List Char) :
    parentOf dotCounts (front ++ '/' :: name.toList) =
      some (dropIdle dotCounts ('/' :: front.reverse)).reverse := by
  have kept := (dropIdle_of_isLead leads dotCounts front.reverse).1
  have dropped := dropWhile_name leads.plain ('/' :: front.reverse)
  have shown : (front ++ '/' :: name.toList).reverse = name.toList.reverse ++
      '/' :: front.reverse := by
    simp
  unfold parentOf
  rw [shown, kept]
  cases reversed : name.toList.reverse ++ '/' :: front.reverse with
  | nil => simp at reversed
  | cons last before =>
    rw [reversed] at dropped
    simp [dropped]

/-- A path whose last segment is a name consists of this name and what stands before it. -/
theorem chars_of_segments {path : Path} {front : List String} {name : String}
    (split : path.segments = front ++ [name]) :
    (path.chars = name.toList ∧ front = []) ∨
      ∃ before, path.chars = before ++ '/' :: name.toList ∧ front = segmentsOf before := by
  rw [segments_eq] at split
  cases found : Text.splitLast? '/' path.chars with
  | none =>
    have plain := Text.not_mem_of_splitLast? found
    rw [segmentsOf, Text.split_of_not_mem plain] at split
    have single : [String.ofList path.chars] = front ++ [name] := by simpa using split
    cases front with
    | nil =>
      left
      simp only [List.nil_append, List.cons.injEq, and_true] at single
      exact ⟨by rw [← single, String.toList_ofList], rfl⟩
    | cons first rest => simp at single
  | some parts =>
    obtain ⟨before, after⟩ := parts
    obtain ⟨shown, plain⟩ := Text.append_of_splitLast? found
    rw [shown, segmentsOf_append] at split
    rw [segmentsOf, segmentsOf, Text.split_of_not_mem plain] at split
    obtain ⟨same, last⟩ := List.append_inj' split rfl
    simp only [List.map_cons, List.map_nil, List.cons.injEq, and_true] at last
    right
    exact ⟨before, by rw [shown, ← last, String.toList_ofList], same.symm⟩

theorem isAbsolute_iff (path : Path) :
    path.isAbsolute = true ↔ ∃ body, path.chars = '/' :: body := by
  unfold isAbsolute
  cases path.chars with
  | nil => simp
  | cons char body => simp

theorem not_isAbsolute {path : Path} (relative : ∀ body, path.chars ≠ '/' :: body) :
    path.isAbsolute = false := by
  rw [Bool.eq_false_iff, ne_eq, isAbsolute_iff]
  rintro ⟨body, absolute⟩
  exact relative body absolute

/-- A path with nothing idle at its end. -/
inductive Tidy (path : Path) : Prop where
  | empty (spelled : path.spelling = "")
  | here (spelled : path.spelling = ".")
  | root (spelled : path.spelling = "/")
  | leads {front : List String} {last : String} (split : path.segments = front ++ [last])
      (leads : IsLead last)

/-- What is left of a spelling without what is idle at its end. -/
theorem tidy_dropIdle (dotCounts : Bool) (reversed : List Char) :
    dropIdle dotCounts reversed = [] ∨ (dotCounts = true ∧ dropIdle dotCounts reversed = ['.']) ∨
      ∃ front last, segmentsOf (dropIdle dotCounts reversed).reverse =
        front ++ [last] ∧ IsLead last := by
  fun_induction dropIdle dotCounts reversed with
  | case1 rest ih => exact ih
  | case2 counts => exact .inr (.inl ⟨counts, rfl⟩)
  | case3 => exact .inl rfl
  | case4 rest ih => exact ih
  | case5 reversed notSlash notDot notDotSlash =>
    cases found : Text.splitLast? '/' reversed.reverse with
    | none =>
      have plain := Text.not_mem_of_splitLast? found
      cases reversed with
      | nil => exact .inl rfl
      | cons last before =>
        refine .inr (.inr ⟨[], String.ofList (last :: before).reverse, ?_, ?_, ?_, ?_⟩)
        · rw [segmentsOf, Text.split_of_not_mem plain]
          rfl
        · intro empty
          simpa using congrArg String.toList empty
        · intro dot
          have shown := congrArg (fun text => text.toList.reverse) dot
          simp only [String.toList_ofList, List.reverse_reverse] at shown
          exact notDot shown
        · rwa [String.toList_ofList]
    | some parts =>
      obtain ⟨before, after⟩ := parts
      obtain ⟨shown, plain⟩ := Text.append_of_splitLast? found
      have spelled := congrArg List.reverse shown
      rw [List.reverse_reverse, List.reverse_append, List.reverse_cons,
        List.append_assoc] at spelled
      refine .inr (.inr ⟨segmentsOf before, String.ofList after, ?_, ?_, ?_, ?_⟩)
      · rw [shown, segmentsOf_append]
        congr 1
        rw [segmentsOf, Text.split_of_not_mem plain]
        rfl
      · intro empty
        have none := congrArg String.toList empty
        rw [String.toList_ofList] at none
        rw [none] at spelled
        exact notSlash _ spelled
      · intro dot
        have single := congrArg String.toList dot
        rw [String.toList_ofList] at single
        rw [single] at spelled
        exact notDotSlash _ spelled
      · rwa [String.toList_ofList]

/-- What is left of a relative spelling. -/
theorem tidy_relative (reversed : List Char) :
    Tidy ⟨String.ofList (dropIdle true reversed).reverse⟩ := by
  rcases tidy_dropIdle true reversed with none | ⟨-, dot⟩ | ⟨front, last, split, leads⟩
  · rw [none]
    exact .empty rfl
  · rw [dot]
    exact .here rfl
  · have whole : (⟨String.ofList (dropIdle true reversed).reverse⟩ : Path).segments =
        front ++ [last] := by
      rw [segments_eq, chars, String.toList_ofList]
      exact split
    exact .leads whole leads

/-- What is left of a spelling behind the slash that it starts with. -/
theorem tidy_absolute (reversed : List Char) :
    Tidy ⟨String.ofList ('/' :: (dropIdle false reversed).reverse)⟩ := by
  rcases tidy_dropIdle false reversed with none | ⟨counts, -⟩ | ⟨front, last, split, leads⟩
  · rw [none]
    exact .root rfl
  · cases counts
  · have whole : (⟨String.ofList ('/' :: (dropIdle false reversed).reverse)⟩ : Path).segments =
        ("" :: front) ++ [last] := by
      rw [segments_eq, chars, String.toList_ofList]
      exact (segmentsOf_append [] _).trans (congrArg ("" :: ·) split)
    exact .leads whole leads

/-- The directory a file lies in is spelled with nothing idle at the end, whatever the spelling of
the file. -/
theorem tidy_directory (path : Path) : path.directory.Tidy := by
  have parents (parent : Path) (found : path.parent? = some parent) : parent.Tidy := by
    unfold parent? at found
    split at found
    · obtain ⟨rest, shown, rfl⟩ := Option.map_eq_some_iff.mp found
      unfold parentOf at shown
      split at shown
      · cases shown
      · cases shown
        exact tidy_absolute _
    · obtain ⟨rest, shown, rfl⟩ := Option.map_eq_some_iff.mp found
      unfold parentOf at shown
      split at shown
      · cases shown
      · cases shown
        exact tidy_relative _
  unfold directory
  split
  · rename_i parent found
    split
    · exact .here rfl
    · exact parents parent found
  · exact .here rfl

theorem IsLead.length_pos {segment : String} (leads : IsLead segment) :
    0 < segment.toList.length := by
  rw [List.length_pos_iff]
  intro empty
  exact leads.nonempty (String.toList_inj.mp empty)

/-! A path without its last segment is spelled with or without a root as the whole path is, but for
the working place, which has the empty spelling. -/

structure Parent (path parent : Path) (front : List String) : Prop where
  found : path.parent? = some parent
  steps : parent.steps = front.filter isStep
  rooted : parent.spelling ≠ "" → parent.isAbsolute = path.isAbsolute
  here : parent.spelling = "" → path.isAbsolute = false
  shorter : parent.chars.length < path.chars.length
  tidy : parent.Tidy

private theorem parent_of_single {path : Path} {name : String} (whole : path.chars = name.toList)
    (leads : IsLead name) : Parent path ⟨""⟩ [] where
  found := by
    unfold parent?
    rw [whole]
    split
    · rename_i body shown
      exact absurd (by simp [shown]) leads.plain
    · rw [parentOf_single leads]
      rfl
  steps := rfl
  rooted := by simp
  here _ := not_isAbsolute fun body absolute => leads.plain (by simp [← whole, absolute])
  shorter := by
    rw [whole]
    exact leads.length_pos
  tidy := .empty rfl

private theorem parent_of_root {path : Path} {name : String}
    (whole : path.chars = '/' :: name.toList) (leads : IsLead name) :
    Parent path ⟨"/"⟩ (segmentsOf []) where
  found := by
    unfold parent?
    rw [whole]
    simp [parentOf_single leads]
  steps := by decide
  rooted _ := by
    rw [(isAbsolute_iff path).mpr ⟨_, whole⟩]
    decide
  here := by simp
  shorter := by
    have some := leads.length_pos
    rw [whole, List.length_cons]
    change 1 < _
    omega
  tidy := .root rfl

private theorem parent_of_absolute {path : Path} {before : List Char} {name : String}
    (whole : path.chars = '/' :: before ++ '/' :: name.toList) (leads : IsLead name) :
    Parent path ⟨String.ofList ('/' :: (dropIdle false ('/' :: before.reverse)).reverse)⟩
      (segmentsOf ('/' :: before)) where
  found := by
    unfold parent?
    rw [whole, List.cons_append]
    simp [parentOf_append leads]
  steps := by
    rw [Path.steps, chars, String.toList_ofList, stepsOf_cons_slash, stepsOf_dropIdle,
      List.reverse_cons, List.reverse_reverse, stepsOf_append, stepsOf_nil, List.append_nil]
    exact (stepsOf_cons_slash before).symm
  rooted _ := by
    rw [(isAbsolute_iff path).mpr ⟨_, whole⟩, isAbsolute_iff]
    exact ⟨_, String.toList_ofList⟩
  here empty := by
    have shown := congrArg String.toList empty
    simp at shown
  shorter := by
    have some := leads.length_pos
    have kept := (dropIdle_suffix false ('/' :: before.reverse)).length_le
    rw [whole, chars, String.toList_ofList]
    simp only [List.length_cons, List.length_reverse, List.length_append] at kept ⊢
    omega
  tidy := tidy_absolute _

private theorem parent_of_relative {path : Path} {first : Char} {before : List Char} {name : String}
    (whole : path.chars = first :: before ++ '/' :: name.toList) (noSlash : first ≠ '/')
    (leads : IsLead name) :
    Parent path ⟨String.ofList (dropIdle true ('/' :: (first :: before).reverse)).reverse⟩
      (segmentsOf (first :: before)) := by
  have relative : path.isAbsolute = false := by
    refine not_isAbsolute fun body absolute => ?_
    rw [whole] at absolute
    exact noSlash (List.cons.inj absolute).1
  refine ⟨?_, ?_, fun _ => ?_, fun _ => relative, ?_, ?_⟩
  · unfold parent?
    rw [whole]
    split
    · rename_i body shown
      exact absurd (List.cons.inj shown).1 noSlash
    · rw [parentOf_append leads]
      rfl
  · rw [steps, chars, String.toList_ofList, stepsOf_dropIdle, List.reverse_cons,
      List.reverse_reverse, stepsOf_append, stepsOf_nil, List.append_nil]
    rfl
  · rw [relative]
    refine not_isAbsolute fun body absolute => ?_
    rw [chars, String.toList_ofList] at absolute
    -- What is left of the spelling starts as the whole spelling does.
    have front : (dropIdle true ('/' :: (first :: before).reverse)).reverse <+:
        ('/' :: (first :: before).reverse).reverse :=
      List.reverse_prefix.mpr (dropIdle_suffix _ _)
    rw [absolute] at front
    obtain ⟨rest, shown⟩ := front
    simp only [List.cons_append, List.reverse_cons, List.reverse_append, List.reverse_nil,
      List.nil_append, List.reverse_reverse, List.cons.injEq] at shown
    exact noSlash shown.1.symm
  · have some := leads.length_pos
    have kept := (dropIdle_suffix true ('/' :: (first :: before).reverse)).length_le
    rw [whole, chars, String.toList_ofList]
    simp only [List.length_cons, List.length_reverse, List.length_append] at kept ⊢
    omega
  · exact tidy_relative _

theorem parent_of_segments {path : Path} {front : List String} {name : String}
    (split : path.segments = front ++ [name]) (leads : IsLead name) :
    ∃ parent, Parent path parent front := by
  rcases chars_of_segments split with ⟨whole, rfl⟩ | ⟨before, whole, rfl⟩
  · exact ⟨_, parent_of_single whole leads⟩
  · cases before with
    | nil => exact ⟨_, parent_of_root whole leads⟩
    | cons first before =>
      by_cases slash : first = '/'
      · subst slash
        exact ⟨_, parent_of_absolute whole leads⟩
      · exact ⟨_, parent_of_relative whole slash leads⟩

/-- The directory a file lies in is never spelled by the empty text. -/
theorem spelling_directory_ne_empty (path : Path) : path.directory.spelling ≠ "" := by
  unfold directory
  split
  · rename_i parent _
    split
    · decide
    · rename_i nonempty
      exact fun empty => nonempty (String.isEmpty_iff.mpr empty)
  · decide

theorem steps_directory {path : Path} {front : List String} {name : String}
    (split : path.segments = front ++ [name]) (leads : IsLead name) :
    path.directory.steps = front.filter isStep := by
  obtain ⟨parent, found, steps, _, _, _, _⟩ := parent_of_segments split leads
  unfold directory
  rw [found]
  by_cases empty : parent.spelling = ""
  · have shown : parent.steps = [] := by
      rw [Path.steps, chars, empty]
      rfl
    rw [← steps, shown]
    simp only [String.isEmpty_iff.mpr empty, ↓reduceIte]
    decide
  · simp [empty, steps]

theorem isAbsolute_directory {path : Path} {front : List String} {name : String}
    (split : path.segments = front ++ [name]) (leads : IsLead name) :
    path.directory.isAbsolute = path.isAbsolute := by
  obtain ⟨parent, found, _, same, relative, _, _⟩ := parent_of_segments split leads
  unfold directory
  rw [found]
  by_cases empty : parent.spelling = ""
  · rw [relative empty]
    simp only [String.isEmpty_iff.mpr empty, ↓reduceIte]
    decide
  · simp [empty, same empty]

theorem fileName?_of_segments {path : Path} {front : List String} {name : String}
    (split : path.segments = front ++ [name]) (named : IsName name) :
    path.fileName? = some name := by
  have part : segmentPart? name = some (.name name) := by
    unfold segmentPart?
    split
    · exact absurd rfl named.nonempty
    · exact absurd rfl named.notHere
    · exact absurd rfl named.notUp
    · rfl
  have last : path.parts.getLast? = some (.name name) := by
    simp only [parts, split, List.filterMap_append, List.filterMap_cons, part, List.filterMap_nil]
    split
    · rw [← List.cons_append, List.getLast?_concat]
    · split
      · rw [← List.cons_append, List.getLast?_concat]
      · rw [List.getLast?_concat]
  simp [fileName?, last]

/-- Joining appends segments, in the stead of an empty one at the end. -/
theorem segments_join {root relative : Path} (apart : relative.isAbsolute = false)
    (nonempty : root.spelling ≠ "") :
    ∃ front, (root.join relative).segments = front ++ relative.segments ∧
      (root.segments = front ∨ root.segments = front ++ [""]) ∧
      (root.join relative).isAbsolute = root.isAbsolute := by
  have shown : root.chars ≠ [] := by simpa [chars] using nonempty
  obtain ⟨first, rest, spelled⟩ := List.exists_cons_of_ne_nil shown
  have head (joined : Path) (starts : ∃ tail, joined.chars = root.chars ++ tail) :
      joined.isAbsolute = root.isAbsolute := by
    obtain ⟨tail, whole⟩ := starts
    simp [isAbsolute, whole, spelled]
  unfold join
  simp only [apart, Bool.false_eq_true, ↓reduceIte]
  by_cases closed : root.chars.getLast? = some '/'
  · obtain ⟨before, split⟩ := List.getLast?_eq_some_iff.mp closed
    simp only [closed, beq_self_eq_true, Bool.or_true, ↓reduceIte]
    refine ⟨segmentsOf before, ?_, .inr ?_, head _ ⟨relative.chars, by simp [chars]⟩⟩
    · rw [segments_eq, chars, String.toList_append]
      change segmentsOf (root.chars ++ _) = _
      rw [split, List.append_assoc, List.singleton_append, segmentsOf_append]
      rfl
    · rw [segments_eq, split, segmentsOf_append]
      rfl
  · have choice : (root.spelling.isEmpty || root.chars.getLast? == some '/') = false := by
      simp [nonempty, closed]
    simp only [choice, Bool.false_eq_true, ↓reduceIte]
    refine ⟨root.segments, ?_, .inl rfl, head _ ⟨'/' :: relative.chars, by simp [chars]⟩⟩
    rw [segments_eq, chars, String.toList_append, String.toList_append, List.append_assoc]
    exact segmentsOf_append root.chars relative.chars

theorem join_of_relative {root relative : Path} (apart : relative.isAbsolute = false)
    (nonempty : root.spelling ≠ "") :
    ∃ front, (root.join relative).segments = front ++ relative.segments ∧
      front.filter isStep = root.steps ∧ (root.join relative).isAbsolute = root.isAbsolute := by
  obtain ⟨front, segments, same, absolute⟩ := segments_join apart nonempty
  have filtered : root.steps = root.segments.filter isStep := rfl
  refine ⟨front, segments, ?_, absolute⟩
  rcases same with rfl | closed
  · exact filtered.symm
  · rw [filtered, closed, List.filter_append, List.filter_cons_of_neg (by decide), List.filter_nil,
      List.append_nil]

theorem join_of_isAbsolute (root : Path) {path : Path} (absolute : path.isAbsolute = true) :
    root.join path = path := by
  simp [join, absolute]

/-- Names that are joined are the segments of what they are joined to. -/
theorem segmentsOf_joined {names : List String} (some : names ≠ [])
    (named : ∀ name ∈ names, IsName name) :
    segmentsOf (Text.join "/" names).toList = names := by
  induction names with
  | nil => exact absurd rfl some
  | cons name names ih =>
    have first := named name (List.mem_cons_self ..)
    have own : segmentsOf name.toList = [name] := segmentsOf_of_plain first.plain
    cases names with
    | nil => simpa [Text.join] using own
    | cons next names =>
      have later := ih (by simp) fun other member => named other (List.mem_cons_of_mem _ member)
      have slash : "/".toList = ['/'] := rfl
      rw [Text.join] at later
      rw [Text.join, String.intercalate_cons_cons, String.toList_append, String.toList_append,
        List.append_assoc, slash, List.singleton_append, segmentsOf_append, own, later]
      rfl

/-- The path from the root of a disk to a place with names that paths can spell. -/
theorem steps_rooted {place : List String} (named : ∀ name ∈ place, IsName name) :
    steps ⟨"/" ++ Text.join "/" place⟩ = place := by
  have joined : stepsOf (Text.join "/" place).toList = place := by
    cases place with
    | nil => decide
    | cons name place =>
      rw [stepsOf, segmentsOf_joined (by simp) named, List.filter_eq_self]
      intro other member
      exact (named other member).isStep
  have slash : "/".toList = ['/'] := rfl
  rw [steps, chars, String.toList_append, slash, List.singleton_append, stepsOf_cons_slash, joined]

end Path
end ClassCoverage
