import ClassCoverage.Proofs.PackageGroups
import ClassCoverage.Proofs.ShownCounts
import ClassCoverage.Report.Table

/-! Reading a report as a text: the total in its last line, and the row of every class. -/
namespace ClassCoverage.Report.Table
open ClassCoverage.Text

/-- The counts at the first digit of a text such as "lines 1/2 (50%)". -/
def readFraction? (text : List Char) :
    Option (Nat × Nat) := readPair? ' ' (text.dropWhile fun char => !char.isDigit)

/-- The counts in the last line of a report. -/
def readTotals? (document : String) : Option Counts :=
  match (split (· == '\n') document.toList).reverse with
  | _ :: last :: _ =>
    match split (· == ',') last with
    | [_, lines, branches] => do return .ofPairs (← readFraction? lines) (← readFraction? branches)
    | _ => none
  | _ => none

theorem toList_fraction (covered valid : Nat) (rate : Float) :
    (fraction covered valid rate).toList =
      pairChars ' ' (covered, valid) ('(' :: ((toString (percent rate)).toList ++ ['%', ')'])) := by
  simp only [fraction, pairChars, String.toList_append, List.append_assoc]
  rfl

theorem not_mem_fraction {covered valid : Nat} {rate : Float} {char : Char}
    (sign : char.isDigit = false) (plain : char ∉ ['/', ' ', '(', '%', ')']) :
    char ∉ (fraction covered valid rate).toList := by
  simp only [List.mem_cons, List.not_mem_nil, or_false, not_or] at plain
  simp only [toList_fraction, pairChars, List.mem_append, List.mem_cons,
    List.not_mem_nil, or_false, not_or]
  exact ⟨not_mem_toString sign, plain.1, not_mem_toString sign, plain.2.1, plain.2.2.1,
    not_mem_toString sign,
    plain.2.2.2⟩

theorem readFraction?_fraction (front : List Char)
    (words : front.all (fun char => !char.isDigit) = true) (covered valid : Nat) (rate : Float)
    {after : List Char} (later : '/' ∉ after) :
    readFraction? (front ++ ((fraction covered valid rate).toList ++ after)) =
      some (covered, valid) := by
  have starts : ((fraction covered valid rate).toList ++ after).dropWhile (fun char =>
      !char.isDigit) =
      (fraction covered valid rate).toList ++ after := by
    rw [toList_fraction, pairChars]
    cases spelled : (toString covered).toList with
    | nil =>
      rw [toList_toString] at spelled
      exact absurd spelled Nat.toDigits_ne_nil
    | cons first rest =>
      have digit : first.isDigit = true := isDigit_of_mem_toString (spelled ▸ List.mem_cons_self ..)
      simp [digit]
  have plain : '/' ∉ '(' :: ((toString (percent rate)).toList ++ ['%', ')']) ++ after := by
    simp only [List.mem_cons, List.mem_append, not_or]
    exact ⟨⟨by decide, not_mem_toString (by decide), by decide, by decide, by simp⟩, later⟩
  have whole : (fraction covered valid rate).toList ++ after =
      pairChars ' ' (covered, valid)
        ('(' :: ((toString (percent rate)).toList ++ ['%', ')']) ++ after) := by
    simp only [toList_fraction, pairChars, List.append_assoc, List.cons_append]
  rw [readFraction?, List.dropWhile_append_of_pos (List.all_eq_true.mp words), starts, whole]
  exact readPair?_pairChars ' ' (by decide) (by decide) (covered, valid) plain

/-- The last line of a report. -/
def totalLine (store : Store) : List Char :=
  ("Total: ".toList ++ ((toString store.size).toList ++ " classes".toList)) ++
    ',' :: ((" lines ".toList ++
      (fraction store.linesCovered store.totalLines store.lineRate).toList) ++
      ',' :: (" branches ".toList ++
        (fraction store.branchesCovered store.totalBranches store.branchRate).toList))

private theorem toList_totals (store : Store) :
    (totals store).toList = '\n' :: (totalLine store ++ ['\n']) := by
  have opens : (toString "\nTotal: ").toList = '\n' :: "Total: ".toList := by decide
  have first : (toString " classes, lines ").toList = " classes".toList ++
      ',' :: " lines ".toList := by decide
  have second : (toString ", branches ").toList = ',' :: " branches ".toList := by decide
  have ends : (toString "\n").toList = ['\n'] := by decide
  unfold totals totalLine
  simp only [String.toList_append, opens, first, second, ends, List.append_assoc, List.cons_append]
  rfl

private theorem not_mem_totalLine (store : Store) : '\n' ∉ totalLine store := by
  unfold totalLine
  simp only [List.mem_append, List.mem_cons, not_or]
  exact ⟨⟨by decide, not_mem_toString (by decide), by decide⟩, by decide,
    ⟨by decide, not_mem_fraction (by decide) (by decide)⟩, by decide,
    by decide, not_mem_fraction (by decide) (by decide)⟩

private theorem split_totalLine (store : Store) :
    split (· == ',') (totalLine store) =
      ["Total: ".toList ++ ((toString store.size).toList ++ " classes".toList),
        " lines ".toList ++ (fraction store.linesCovered store.totalLines store.lineRate).toList,
        " branches ".toList ++
          (fraction store.branchesCovered store.totalBranches store.branchRate).toList] := by
  have size : ',' ∉ "Total: ".toList ++ ((toString store.size).toList ++ " classes".toList) := by
    simp only [List.mem_append, not_or]
    exact ⟨by decide, not_mem_toString (by decide), by decide⟩
  have lines : ',' ∉ " lines ".toList ++
      (fraction store.linesCovered store.totalLines store.lineRate).toList := by
    simp only [List.mem_append, not_or]
    exact ⟨by decide, not_mem_fraction (by decide) (by decide)⟩
  have branches :
      ',' ∉ " branches ".toList ++
        (fraction store.branchesCovered store.totalBranches store.branchRate).toList := by
    simp only [List.mem_append, not_or]
    exact ⟨by decide, not_mem_fraction (by decide) (by decide)⟩
  unfold totalLine
  rw [split_append, split_append, split_of_not_mem size, split_of_not_mem lines,
    split_of_not_mem branches]
  rfl

theorem readTotals?_render (context : Context) :
    readTotals? (render context) = some (.ofStore context.store) := by
  have lines : split (· == '\n') (render context).toList =
      split (· == '\n') ("Coverage report generated " ++
        Calendar.text context.generatedAt ++ "\n\n" ++
        boxed titles (context.classes.map classRow)).toList ++ [totalLine context.store, []] := by
    unfold render
    rw [String.toList_append, toList_totals, split_append, split_append,
      split_of_not_mem (not_mem_totalLine _)]
    rfl
  have first := readFraction?_fraction " lines ".toList (by decide) context.store.linesCovered
    context.store.totalLines context.store.lineRate (List.not_mem_nil (a := '/'))
  have second :=
    readFraction?_fraction " branches ".toList (by decide) context.store.branchesCovered
    context.store.totalBranches context.store.branchRate (List.not_mem_nil (a := '/'))
  rw [List.append_nil] at first second
  unfold readTotals?
  rw [lines]
  simp only [List.reverse_append, List.reverse_cons, List.reverse_nil,
    List.nil_append, List.cons_append,
    split_totalLine, first, second]
  rfl

/-- What stands behind the text of a column, the blanks that fill the column up and its stroke. -/
def afterColumn? (text line : List Char) : Option (List Char) :=
  if text.isPrefixOf line then
    match (line.drop text.length).dropWhile (· == ' ') with
    | '│' :: rest => some rest
    | _ => none
  else none

/-- The columns behind the first one, in a line that has the given text in its first column. -/
def readColumns? (text : List Char) : List Char → Option (List (List Char))
  | '│' :: ' ' :: line => (afterColumn? text line).map (split (· == '│'))
  | _ => none

/-- Does a line have a text in its first column, and nothing in the columns of the counts? -/
def isContinued (text line : List Char) : Bool :=
  match readColumns? text line with
  | some (lines :: branches :: _) => lines.all (· == ' ') && branches.all (· == ' ')
  | _ => false

/-- The counts of a row that shows a name line by line, and the counts once, in its first line. -/
def readRow? (name row : String) : Option Counts :=
  match split (· == '\n') row.toList with
  | first :: others =>
    match readColumns? ((cell name).getD 0 []) first with
    | some (lines :: branches :: _) =>
      if (cell name).length ≤ others.length ∧
          others.dropLast.zipIdx.all (fun (line, index) =>
          isContinued ((cell name).getD (index + 1) []) line) then do
        return .ofPairs (← readFraction? lines) (← readFraction? branches)
      else none
    | _ => none
  | [] => none

private theorem cell_fraction (covered valid : Nat) (rate : Float) :
    cell (fraction covered valid rate) = [(fraction covered valid rate).toList] := by
  have oneLine : '\n' ∉ (fraction covered valid rate).toList :=
    not_mem_fraction (by decide) (by decide)
  obtain ⟨front, spelled⟩ : ∃ front, (fraction covered valid rate).toList = front ++ [')'] := by
    refine ⟨(toString covered).toList ++ '/' :: ((toString valid).toList ++ ' ' :: '(' ::
      ((toString (percent rate)).toList ++ ['%'])), ?_⟩
    rw [toList_fraction, pairChars]
    simp only [List.append_assoc, List.cons_append, List.nil_append]
  unfold cell SourceStats.linesOf
  rw [split_of_not_mem oneLine]
  simp [spelled]

private theorem not_mem_cell {text : String} {line : List Char}
    (listed : line ∈ cell text) : '\n' ∉ line := by
  intro inside
  have whole : ∀ piece ∈ split (· == '\n') text.toList, '\n' ∉ piece := fun _ =>
    not_mem_of_mem_split
  rcases List.mem_append.mp listed with returned | last
  · obtain ⟨piece, member, rfl⟩ := List.mem_map.mp returned
    refine whole piece (List.mem_of_mem_dropLast member) ?_
    unfold SourceStats.dropReturn at inside
    split at inside
    · exact List.mem_of_mem_dropLast inside
    · exact inside
  · split at last
    · cases last
    · obtain rfl := List.mem_singleton.mp last
      refine whole _ ?_ inside
      rw [List.getLastD_eq_getLast?, List.getLast?_eq_some_getLast (split_ne_nil _ _)]
      exact List.getLast_mem _

private theorem length_columnWidths {size : Nat} {row : Row} {rows : List Row}
    (even : ∀ other ∈ row :: rows, other.length = size) :
    (columnWidths (row :: rows)).length = size := by
  induction rows generalizing row with
  | nil =>
    simp [columnWidths, even]
  | cons next rows ih =>
    rw [List.forall_mem_cons] at even
    have below := ih even.2
    rw [columnWidths]
    split
    · rw [List.length_map, even.1]
    · rw [List.length_zipWith, List.length_map, below, even.1, Nat.min_self]

/-- The text of a column, the blanks that fill it up, and what stands behind its stroke. -/
def column (width : Nat) (text after : List Char) : List Char :=
  text ++ (List.replicate (width - columns text) ' ' ++ ' ' :: '│' :: after)

private theorem afterColumn?_column (width : Nat) (text after : List Char) :
    afterColumn? text (column width text after) = some after := by
  have blanks :
      (List.replicate (width - columns text) ' ' ++ ' ' :: '│' :: after).dropWhile (· == ' ') =
      '│' :: after := by
    rw [List.dropWhile_append_of_pos fun char member => by simp [List.eq_of_mem_replicate member]]
    simp [List.dropWhile]
  unfold afterColumn? column
  rw [if_pos (List.isPrefixOf_iff_prefix.mpr (List.prefix_append _ _)), List.drop_left, blanks]
  rfl

theorem split_column {text : List Char} (plain : '│' ∉ text) (width : Nat) (after : List Char) :
    split (· == '│') (' ' :: column width text after) =
      (' ' :: (text ++ (List.replicate (width - columns text) ' ' ++ [' ']))) ::
        split (· == '│') after := by
  have front : '│' ∉ ' ' :: (text ++ (List.replicate (width - columns text) ' ' ++ [' '])) := by
    simp only [List.mem_cons, List.mem_append, List.mem_replicate, not_or]
    exact ⟨by decide, plain, by simp, by simp⟩
  have cut := split_append '│'
    (' ' :: (text ++ (List.replicate (width - columns text) ' ' ++ [' ']))) after
  rw [split_of_not_mem front] at cut
  rw [List.singleton_append] at cut
  rw [← cut, column]
  simp only [List.cons_append, List.append_assoc, List.nil_append]

/-- One line of a row of five cells. -/
def lineChars (a b c d e : Nat) (name lines branches complexity source : Cell)
    (line : Nat) : List Char :=
  '│' :: ' ' :: column a (name.getD line []) (' ' :: column b (lines.getD line [])
    (' ' :: column c (branches.getD line []) (' ' :: column d (complexity.getD line [])
      (' ' :: column e (source.getD line []) []))))

section Lines
variable {a b c d e : Nat} {name lines branches complexity source : Cell}

private theorem toList_rowLine (line : Nat) :
    (rowLine [a, b, c, d, e] [name, lines, branches, complexity, source] line).toList =
      lineChars a b c d e name lines branches complexity source line ++ ['\n'] := by
  have stroke : " │ ".toList = [' ', '│', ' '] := by decide
  have opened : "│ ".toList = ['│', ' '] := by decide
  have closed : " │\n".toList = [' ', '│', '\n'] := by decide
  simp only [rowLine, lineChars, column, padded, join, List.zipWith_cons_cons,
    List.zipWith_nil_left,
    String.intercalate_cons_cons, String.intercalate_singleton, String.toList_append,
    String.toList_ofList,
    stroke, opened, closed, List.append_assoc, List.cons_append, List.nil_append]

private theorem not_mem_lineChars
    (plain : ∀ cell ∈ [name, lines, branches, complexity, source], ∀ text ∈ cell, '\n' ∉ text)
    (line : Nat) : '\n' ∉ lineChars a b c d e name lines branches complexity source line := by
  have own (cell : Cell) (member : cell ∈ [name, lines, branches, complexity, source]) :
      '\n' ∉ cell.getD line [] := by
    rw [List.getD_eq_getElem?_getD]
    cases found : cell[line]? with
    | none => exact List.not_mem_nil
    | some text => exact plain cell member text (List.mem_of_getElem? found)
  rw [List.forall_mem_cons, List.forall_mem_cons, List.forall_mem_cons, List.forall_mem_cons,
    List.forall_mem_cons] at own
  obtain ⟨name, lines, branches, complexity, source, -⟩ := own
  have blank (amount : Nat) : '\n' ∉ List.replicate amount ' ' := by simp
  simp only [lineChars, column, List.mem_cons, List.mem_append, not_or]
  exact ⟨by decide, by decide, name, blank _, by decide, by decide, by decide, lines, blank _,
    by decide, by decide, by decide, branches, blank _, by decide, by decide, by decide, complexity,
    blank _, by decide, by decide, by decide, source, blank _, by decide, by
    decide, List.not_mem_nil⟩

theorem readColumns?_lineChars (line : Nat) :
    readColumns? (name.getD line [])
      (lineChars a b c d e name lines branches complexity source line) =
      some (split (· == '│') (' ' :: column b (lines.getD line [])
        (' ' :: column c (branches.getD line [])
        (' ' :: column d (complexity.getD line [])
          (' ' :: column e (source.getD line []) []))))) := by
  rw [lineChars, readColumns?, afterColumn?_column]
  rfl

/-- Cells of one line have nothing in the other lines. -/
theorem isContinued_lineChars {first second : List Char} (line : Nat) :
    isContinued (name.getD (line + 1) [])
      (lineChars a b c d e name [first] [second] complexity source (line + 1)) =
      true := by
  have nothing (text : List Char) : List.getD [text] (line + 1) [] = [] := rfl
  rw [isContinued, readColumns?_lineChars, nothing, nothing, split_column List.not_mem_nil,
    split_column List.not_mem_nil]
  simp

end Lines

private theorem split_lines {lines : List (List Char)} (plain : ∀ line ∈ lines, '\n' ∉ line) :
    split (· == '\n') (lines.flatMap (· ++ ['\n'])) = lines ++ [[]] := by
  induction lines with
  | nil => rfl
  | cons line lines ih =>
    rw [List.forall_mem_cons] at plain
    rw [List.flatMap_cons, List.append_assoc, List.singleton_append, split_append,
      split_of_not_mem plain.1,
      ih plain.2]
    rfl

private theorem le_rowHeight {row : Row} {cell : Cell} (member : cell ∈ row) :
    max 1 cell.length ≤ rowHeight row := by
  have grows (heights : List Nat) (start : Nat) : start ≤ heights.foldl max start ∧
      ∀ height ∈ heights, height ≤ heights.foldl max start := by
    induction heights generalizing start with
    | nil => simp
    | cons height heights ih =>
      have above := ih (max start height)
      exact ⟨Nat.le_trans (Nat.le_max_left ..) above.1, List.forall_mem_cons.mpr
        ⟨Nat.le_trans (Nat.le_max_right ..) above.1, above.2⟩⟩
  exact (grows _ 0).2 _ (List.mem_map_of_mem member)

/-- A row is read from its lines, the first of which has all of the counts. -/
theorem readRow?_lineChars {a b c d e : Nat} {name : String} {lineRate branchRate : Float}
    {counts : Counts} {complexity source : Cell} {row : String} {others : Nat}
    (high : (cell name).length ≤ others + 1)
    (written : split (· == '\n') row.toList = (List.range (others + 1)).map
      (lineChars a b c d e (cell name)
        [(fraction counts.linesCovered counts.linesValid lineRate).toList]
          [(fraction counts.branchesCovered counts.branchesValid branchRate).toList]
            complexity source) ++ [[]]) :
    readRow? name row = some counts := by
  have slash (amount : Nat) : '/' ∉ List.replicate amount ' ' ++ [' '] := by simp
  have blank : [' '].all (fun char => !char.isDigit) = true := by decide
  have first := readFraction?_fraction [' '] blank counts.linesCovered counts.linesValid lineRate
    (slash (b - columns (fraction counts.linesCovered counts.linesValid lineRate).toList))
  have second :=
    readFraction?_fraction [' '] blank counts.branchesCovered counts.branchesValid branchRate
    (slash (c - columns (fraction counts.branchesCovered counts.branchesValid branchRate).toList))
  rw [List.range_succ_eq_map, List.map_cons, List.map_map, List.cons_append] at written
  have columns : readColumns? ((cell name).getD 0 []) (lineChars a b c d e (cell name)
      [(fraction counts.linesCovered counts.linesValid lineRate).toList]
      [(fraction counts.branchesCovered counts.branchesValid branchRate).toList]
        complexity source 0) = _ :=
    readColumns?_lineChars 0
  rw [List.getD_cons_zero, List.getD_cons_zero,
    split_column (not_mem_fraction (by decide) (by decide)),
    split_column (not_mem_fraction (by decide) (by decide))] at columns
  unfold readRow?
  simp only [written, columns]
  rw [if_pos]
  · rw [List.singleton_append] at first second
    rw [first, second]
    rfl
  · rw [List.length_append, List.length_map, List.length_range,
      List.dropLast_concat, List.all_eq_true]
    refine ⟨high, ?_⟩
    rintro ⟨line, index⟩ listed
    simp only
    rw [List.mem_zipIdx_iff_getElem?, List.getElem?_map] at listed
    obtain ⟨number, counted, shown⟩ := Option.map_eq_some_iff.mp listed
    obtain ⟨inside, here⟩ := List.getElem?_eq_some_iff.mp counted
    rw [List.getElem_range] at here
    simp only at here shown
    subst here shown
    exact isContinued_lineChars index

private theorem classRow_eq (summary : ClassSummary) :
    ∃ complexity source, classRow summary = [cell summary.name,
      [(fraction summary.linesCovered summary.linesValid summary.lineRate).toList],
      [(fraction summary.branchesCovered summary.branchesValid summary.branchRate).toList],
      cell complexity, cell source] := by
  unfold classRow
  rw [cell_fraction, cell_fraction]
  exact ⟨_, _, rfl⟩

private theorem readRow?_rowText {widths : List Nat} (five : widths.length = 5)
    (summary : ClassSummary) :
    readRow? summary.name (rowText widths (classRow summary)) = some summary.counts := by
  obtain ⟨a, b, c, d, e, rfl⟩ : ∃ a b c d e, widths = [a, b, c, d, e] := by
    match widths, five with
    | [a, b, c, d, e], _ => exact ⟨a, b, c, d, e, rfl⟩
  obtain ⟨complexity, source, cells⟩ := classRow_eq summary
  have plain : ∀ column ∈ classRow summary, ∀ text ∈ column, '\n' ∉ text := by
    simp only [classRow, List.forall_mem_cons]
    exact ⟨fun _ => not_mem_cell, fun _ => not_mem_cell, fun _ => not_mem_cell, fun _ =>
      not_mem_cell,
      fun _ => not_mem_cell, by simp⟩
  have high : max 1 (cell summary.name).length ≤ rowHeight (classRow summary) :=
    le_rowHeight (List.mem_cons_self ..)
  obtain ⟨others, shown⟩ : ∃ others, rowHeight (classRow summary) = others + 1 :=
    Nat.exists_eq_succ_of_ne_zero (by omega)
  rw [cells] at plain
  have lines : split (· == '\n') (rowText [a, b, c, d, e] (classRow summary)).toList =
      (List.range (others + 1)).map (lineChars a b c d e (cell summary.name)
        [(fraction summary.linesCovered summary.linesValid summary.lineRate).toList]
        [(fraction summary.branchesCovered summary.branchesValid summary.branchRate).toList]
        (cell complexity) (cell source)) ++ [[]] := by
    rw [← split_lines, List.flatMap_map, rowText, shown, String.toList_join,
      List.flatMap_map, cells]
    · rw [funext toList_rowLine]
    · intro line listed
      obtain ⟨number, -, rfl⟩ := List.mem_map.mp listed
      exact not_mem_lineChars plain number
  exact readRow?_lineChars (by omega) lines

/-- What stands in front of the rows, and behind them. -/
def opening (context : Context) (widths : List Nat) : String :=
  "Coverage report generated " ++ Calendar.text context.generatedAt ++ "\n\n" ++
    (rule widths "┌" "┬" "┐" ++ rowText widths titles ++ rule widths "├" "┼" "┤")

def closing (context : Context) (widths : List Nat) : String :=
  rule widths "└" "┴" "┘" ++ totals context.store

private theorem render_eq (context : Context) {widths : List Nat}
    (own : columnWidths (titles :: context.classes.map classRow) = widths) :
    render context = opening context widths ++
      String.join ((context.classes.map classRow).map (rowText widths)) ++
        closing context widths := by
  subst own
  unfold render boxed opening closing
  simp only [String.append_assoc]

/-- Between the titles of the table and its lower edge there is one row for each class, and nothing
else. -/
theorem render_rows (context : Context) :
    ∃ widths rows, widths.length = titles.length ∧
      render context = opening context widths ++ String.join rows ++ closing context widths ∧
      List.Forall₂ (fun row summary => readRow? summary.name row = some summary.counts) rows
        context.classes := by
  have even : ∀ row ∈ titles :: context.classes.map classRow, row.length = 5 := by
    intro row member
    rcases List.mem_cons.mp member with rfl | listed
    · rfl
    · obtain ⟨summary, -, rfl⟩ := List.mem_map.mp listed
      rfl
  have five := length_columnWidths even
  obtain ⟨widths, own⟩ : ∃ widths, columnWidths (titles :: context.classes.map classRow) = widths :=
    ⟨_, rfl⟩
  rw [own] at five
  have rows : List.Forall₂ (fun row summary => readRow? summary.name row = some summary.counts)
      ((context.classes.map classRow).map (rowText widths)) context.classes := by
    rw [List.forall₂_map_left_iff, List.forall₂_map_left_iff]
    exact List.forall₂_same.mpr fun summary _ => readRow?_rowText five summary
  exact ⟨widths, _, five, render_eq context own, rows⟩

end ClassCoverage.Report.Table
