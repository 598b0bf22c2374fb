import ClassCoverage.Proofs.DecisionCounts
import ClassCoverage.Proofs.PathSteps

/-! The figures of a source text are those of its lines. A line feed cuts a text in two parts that
do not see one another, and neither a carriage return at the end of a line nor what stands behind a
comment mark counts for anything. -/
namespace ClassCoverage.SourceStats
open Text

private theorem linesOf_append (front back : List Char) :
    linesOf (front ++ '\n' :: back) = (split (· == '\n') front).map dropReturn ++ linesOf back := by
  have behind := split_ne_nil (· == '\n') back
  simp only [linesOf, split_append, List.dropLast_append_of_ne_nil behind,
    List.getLastD_eq_getLast?,
    List.getLast?_append_of_ne_nil _ behind, List.map_append, List.append_assoc]

private theorem linesOf_of_not_mem {line : List Char} (plain : '\n' ∉ line) :
    linesOf line = if line = [] then [] else [line] := by
  simp [linesOf, split_of_not_mem plain]

private theorem code_return (line : List Char) :
    code (line ++ ['\r']) = code line ∨ code (line ++ ['\r']) = code line ++ ['\r'] := by
  have cut := isCode_code line
  generalize code line = front at cut ⊢
  cases cut with
  | cut first remark =>
    rw [List.append_assoc _ remark]
    exact .inl (IsCode.cut first _).code_eq
  | whole absent =>
    refine .inr (IsCode.whole fun found => ?_).code_eq
    rcases List.infix_concat_iff.mp found with ends | inside
    · obtain ⟨front, shown⟩ := ends
      have last := congrArg List.getLast? shown
      simp at last
    · exact absent inside

private theorem wordDecisions_return (code : List Char) :
    wordDecisions (code ++ ['\r']) = wordDecisions code := by
  have cuts : (!isWordChar '\r') = true := by decide +kernel
  have nothing : [] ∉ decisionWords := by decide
  change List.countP _ (split (fun char => !isWordChar char) (code ++ '\r' :: [])) = _
  rw [split_append_cons cuts, List.countP_append]
  simp [wordDecisions, split, nothing]

/-- A pattern without a character stands at no further place in a text that has this character at
its end as well. -/
theorem prefix_drop_concat_iff {pattern text : List Char} {mark : Char} (absent : mark ∉ pattern)
    {place : Nat} : pattern <+: (text ++ [mark]).drop place ↔ pattern <+: text.drop place := by
  by_cases inside : place ≤ text.length
  · rw [List.drop_append_of_le_length inside, List.prefix_concat_iff]
    constructor
    · rintro (rfl | stands)
      · exact absurd (List.mem_append_right _ List.mem_cons_self) absent
      · exact stands
    · exact .inr
  · have short : (text ++ [mark]).length ≤ place := by
      rw [List.length_append, List.length_singleton]
      omega
    rw [List.drop_eq_nil_of_le short, List.drop_eq_nil_of_le (by omega)]

private theorem occurrences_concat {pattern : List Char} (full : pattern ≠ []) {mark : Char}
    (absent : mark ∉ pattern) (text : List Char) :
    occurrences pattern (text ++ [mark]) = occurrences pattern text := by
  have same (places : List Nat) : Apart pattern (text ++ [mark]) places ↔
      Apart pattern text places :=
    ⟨fun here => ⟨fun place member =>
      (prefix_drop_concat_iff absent).mp (here.stands place member), here.apart⟩,
      fun here => ⟨fun place member =>
      (prefix_drop_concat_iff absent).mpr (here.stands place member), here.apart⟩⟩
  have room := hasRoomFor_occurrences full (text ++ [mark])
  unfold HasRoomFor at room
  simp only [same] at room
  exact room.unique (hasRoomFor_occurrences full text)

theorem decisions_return (line : List Char) : decisions (line ++ ['\r']) = decisions line := by
  unfold decisions
  rcases code_return line with same | longer
  · rw [same]
  · have plain : ∀ operator ∈ decisionOperators, '\r' ∉ operator := by decide
    have operators : operatorDecisions (code line ++ ['\r']) = operatorDecisions (code line) := by
      unfold operatorDecisions
      rw [List.map_congr_left fun operator known =>
        occurrences_concat (ne_nil_of_mem_decisionOperators operator known)
          (plain operator known) (code line)]
    rw [longer, wordDecisions_return, operators]

private theorem decisions_dropReturn (line : List Char) :
    decisions (dropReturn line) = decisions line := by
  unfold dropReturn
  split
  · rename_i ends
    obtain ⟨content, rfl⟩ := List.getLast?_eq_some_iff.mp ends
    rw [List.dropLast_concat, decisions_return]
  · rfl

/-- The decision points of all lines of a text. -/
def decisionsIn (text : List Char) : Nat := ((linesOf text).map decisions).sum

/-- Neither carriage returns nor a last line without characters make a difference. -/
theorem decisionsIn_eq (text : List Char) :
    decisionsIn text = ((split (· == '\n') text).map decisions).sum := by
  have last := List.dropLast_append_getLast (split_ne_nil (· == '\n') text)
  generalize (split (· == '\n') text).getLast (split_ne_nil (· == '\n') text) = open_ at last
  have nothing : decisions [] = 0 := by decide +kernel
  have same : decisions ∘ dropReturn = decisions := funext decisions_dropReturn
  simp only [decisionsIn, linesOf]
  rw [← last]
  by_cases empty : open_ = []
  · simp [same, empty, nothing]
  · simp [same, empty]

theorem decisionsIn_of_not_mem {line : List Char} (plain : '\n' ∉ line) :
    decisionsIn line = decisions line := by
  rw [decisionsIn_eq, split_of_not_mem plain, List.map_singleton, List.sum_singleton]

theorem decisionsIn_append (front back : List Char) :
    decisionsIn (front ++ '\n' :: back) = decisionsIn front + decisionsIn back := by
  rw [decisionsIn_eq, decisionsIn_eq, decisionsIn_eq, split_append,
    List.map_append, List.sum_append]

private theorem ofText_eq (text : List Char) :
    ofText text = ⟨(linesOf text).length, 1 + decisionsIn text⟩ := rfl

/-- What stands in front of a line feed adds to the figures of what stands behind it. -/
theorem ofText_append (front back : List Char) :
    ofText (front ++ '\n' :: back) =
      ⟨(split (· == '\n') front).length + (ofText back).lines,
      decisionsIn front + (ofText back).complexity⟩ := by
  simp only [ofText_eq, linesOf_append, decisionsIn_append, List.length_append,
    List.length_map, Nat.add_left_comm]

theorem ofText_line_append {line : List Char} (plain : '\n' ∉ line) (back : List Char) :
    ofText (line ++ '\n' :: back) = ⟨1 + (ofText back).lines,
    decisions line + (ofText back).complexity⟩ := by
  rw [ofText_append, split_of_not_mem plain, decisionsIn_of_not_mem plain, List.length_singleton]

theorem ofText_of_not_mem {line : List Char} (plain : '\n' ∉ line) :
    ofText line = ⟨if line = [] then 0 else 1, 1 + decisions line⟩ := by
  rw [ofText_eq, linesOf_of_not_mem plain, decisionsIn_of_not_mem plain, apply_ite List.length]
  rfl

private theorem code_append_mark (line remark : List Char) :
    code (line ++ ['/', '/'] ++ remark) = code (line ++ ['/', '/']) := by
  unfold code
  induction line with
  | nil => rfl
  | cons char rest ih =>
    have starts : ['/', '/'] <+: char :: (rest ++ ['/', '/'] ++ remark) ↔
        ['/', '/'] <+: char :: (rest ++ ['/', '/']) :=
      ⟨fun found => List.prefix_of_prefix_length_le found ⟨remark, by simp⟩ (by simp),
        fun found => found.trans ⟨remark, by simp⟩⟩
    simp only [List.cons_append, before, List.isPrefixOf_iff_prefix, starts, ih]

/-- A line is as good without the remark behind a comment mark. -/
theorem ofText_line_remark {line remark back : List Char} (plain : '\n' ∉ line)
    (silent : '\n' ∉ remark) (ends : ∀ char ∈ back.head?, char = '\n') :
    ofText (line ++ ['/', '/'] ++ remark ++ back) = ofText (line ++ ['/', '/'] ++ back) := by
  have marked : '\n' ∉ line ++ ['/', '/'] := by simp [plain]
  have remarked : '\n' ∉ line ++ ['/', '/'] ++ remark := by simp [plain, silent]
  have same : decisions (line ++ ['/', '/'] ++ remark) = decisions (line ++ ['/', '/']) := by
    rw [decisions, decisions, code_append_mark]
  cases back with
  | nil =>
    rw [List.append_nil, List.append_nil, ofText_of_not_mem remarked,
      ofText_of_not_mem marked, same,
      if_neg (by simp), if_neg (by simp)]
  | cons char back =>
    obtain rfl := ends char rfl
    rw [ofText_line_append remarked, ofText_line_append marked, same]

private theorem ofText_remark (front : List Char) {remark back : List Char} (silent : '\n' ∉ remark)
    (ends : ∀ char ∈ back.head?, char = '\n') :
    ofText (front ++ ['/', '/'] ++ remark ++ back) = ofText (front ++ ['/', '/'] ++ back) := by
  cases cut : splitLast? '\n' front with
  | none => exact ofText_line_remark (not_mem_of_splitLast? cut) silent ends
  | some parts =>
    -- Only the last line of the front goes on with the remark.
    obtain ⟨rfl, plain⟩ := append_of_splitLast? cut
    have line := ofText_line_remark plain silent ends
    simp only [List.append_assoc, List.cons_append] at line ⊢
    rw [ofText_append, ofText_append, line]

inductive LineEnd
  | feed
  | returnFeed

def LineEnd.text : LineEnd → List Char
  | .feed => ['\n']
  | .returnFeed => ['\r', '\n']

/-- A text is written as lines with their ends, and a last line without one. -/
structure WrittenAs (text : List Char) (lines : List (List Char × LineEnd)) (last : List Char) :
    Prop where
  spelled : text = (lines.flatMap fun line => line.1 ++ line.2.text) ++ last
  plain : ∀ line ∈ lines, '\n' ∉ line.1
  unended : '\n' ∉ last

private theorem exists_writtenAs (text : List Char) : ∃ lines last, WrittenAs text lines last := by
  induction text with
  | nil => exact ⟨[], [], rfl, nofun, nofun⟩
  | cons char rest ih =>
    obtain ⟨lines, last, spelled, plain, unended⟩ := ih
    by_cases feed : '\n' = char
    · refine ⟨([], .feed) :: lines, last, ?_, List.forall_mem_cons.mpr ⟨nofun, plain⟩, unended⟩
      rw [spelled, ← feed]
      rfl
    · cases lines with
      | nil => exact ⟨[],
        char :: last, by rw [spelled]; rfl, nofun, List.not_mem_cons_of_ne_of_not_mem feed unended⟩
      | cons line lines =>
        obtain ⟨first, others⟩ := List.forall_mem_cons.mp plain
        refine ⟨(char :: line.1, line.2) :: lines, last, by rw [spelled]; rfl, ?_, unended⟩
        exact List.forall_mem_cons.mpr ⟨List.not_mem_cons_of_ne_of_not_mem feed first, others⟩

private theorem ofText_ended {line : List Char} (plain : '\n' ∉ line) (ending : LineEnd)
    (back : List Char) :
    ofText (line ++ ending.text ++ back) = ⟨1 + (ofText back).lines,
    decisions line + (ofText back).complexity⟩ := by
  cases ending with
  | feed => rw [LineEnd.text, List.append_assoc, List.singleton_append, ofText_line_append plain]
  | returnFeed =>
    have returned : '\n' ∉ line ++ ['\r'] := by simp [plain]
    have spelled : line ++ LineEnd.returnFeed.text ++ back = (line ++ ['\r']) ++ '\n' :: back := by
      simp [LineEnd.text]
    rw [spelled, ofText_line_append returned, decisions_return]

theorem WrittenAs.ofText_eq {text last : List Char} {lines : List (List Char × LineEnd)}
    (written : WrittenAs text lines last) :
    ofText text = ⟨lines.length + (if last = [] then 0 else 1),
      1 + ((lines.map Prod.fst ++ [last]).map decisions).sum⟩ := by
  obtain ⟨rfl, plain, unended⟩ := written
  induction lines with
  | nil => simp [ofText_of_not_mem unended]
  | cons line lines ih =>
    obtain ⟨first, others⟩ := List.forall_mem_cons.mp plain
    rw [List.flatMap_cons, List.append_assoc, ofText_ended first, ih others]
    simp only [List.length_cons, List.map_cons, List.cons_append, List.sum_cons, mk.injEq]
    omega

/-- The figures of a text are those of its lines. What stands in front of a line feed and what
stands behind it add up; a remark behind a comment mark can be any other; and however the lines end,
and with an end of the last one or without, there is one point more than the lines have decision
words and operators in their code. -/
theorem figures_by_line :
    (∀ front back : List Char,
      (ofText (front ++ '\n' :: back)).lines = (ofText (front ++ ['\n'])).lines +
        (ofText back).lines ∧
      (ofText (front ++ '\n' :: back)).complexity - 1 =
        ((ofText front).complexity - 1) + ((ofText back).complexity - 1)) ∧
    (∀ front remark remark' back : List Char, '\n' ∉ remark → '\n' ∉ remark' →
    (∀ char ∈ back.head?, char = '\n') →
      ofText (front ++ ['/', '/'] ++ remark ++ back) =
        ofText (front ++ ['/', '/'] ++ remark' ++ back)) ∧
    (∀ text : List Char, ∃ lines last, WrittenAs text lines last) ∧
    ∀ (contents : List (List Char)) (last : List Char), ∃ counts,
      List.Forall₂ Counts (contents ++ [last]) counts ∧
      ∀ (text : List Char) (lines : List (List Char × LineEnd)), WrittenAs text lines last →
        lines.map Prod.fst = contents →
          ofText text = ⟨contents.length + (if last = [] then 0 else 1), 1 + counts.sum⟩ := by
  refine ⟨fun front back => ⟨?_, ?_⟩, ?_, exists_writtenAs, ?_⟩
  · rw [ofText_append, ofText_append]
    rfl
  · simp only [SourceStats.ofText_eq, decisionsIn_append, Nat.add_sub_cancel_left]
  · intro front remark remark' back silent silent' ends
    rw [ofText_remark front silent ends, ofText_remark front silent' ends]
  · intro contents last
    refine ⟨(contents ++ [last]).map decisions, ?_, ?_⟩
    · rw [List.forall₂_map_right_iff, List.forall₂_same]
      exact fun line _ => counts_iff.mpr rfl
    · rintro text lines written rfl
      rw [written.ofText_eq, List.length_map]

/-- A carriage return, a remark and a last line without an end. -/
theorem figures_by_line_of_remark :
    let contents := ["if (a && b) // for".toList]
    let last := "x ? y : case_".toList
    let text := "if (a && b) // for\r\nx ? y : case_".toList
    (∃ counts, List.Forall₂ Counts (contents ++ [last]) counts ∧
      ofText text = ⟨2, 1 + counts.sum⟩) ∧
      ofText text = ofText "if (a && b) // ? while\r\nx ? y : case_".toList ∧
      ofText text = ⟨2, 4⟩ := by
  intro contents last text
  obtain ⟨-, blind, -, figures⟩ := figures_by_line
  obtain ⟨counts, each, shown⟩ := figures contents last
  have written : WrittenAs text [("if (a && b) // for".toList, .returnFeed)] last :=
    ⟨by decide, by decide, by decide⟩
  refine ⟨⟨counts, each, shown text _ written rfl⟩, ?_, ?_⟩
  · exact blind "if (a && b) ".toList " for\r".toList " ? while\r".toList
      "\nx ? y : case_".toList (by decide)
      (by decide) (by simp)
  · decide +kernel

end ClassCoverage.SourceStats
