import ClassCoverage.Proofs.PathSteps
import ClassCoverage.Store

/-! Counts, and counts in texts. Covered and total counts are written as "1/2", mostly in
parentheses, and can be read from there. -/
namespace ClassCoverage.Report
open ClassCoverage.Text

/-- The line counters that ran and all of them, and the arms taken and all of them. -/
structure Counts where
  linesCovered : Nat
  linesValid : Nat
  branchesCovered : Nat
  branchesValid : Nat
  deriving DecidableEq, Repr

namespace Counts

def ofPairs (lines branches : Nat × Nat) : Counts := ⟨lines.1, lines.2, branches.1, branches.2⟩

def ofRecord (record : Record) : Counts :=
  ⟨record.linesCovered, record.lines.length, record.branchesCovered, record.branches.length⟩

def ofStore (store : Store) : Counts :=
  ⟨store.linesCovered, store.totalLines, store.branchesCovered, store.totalBranches⟩

def sum (parts : List Counts) : Counts :=
  ⟨(parts.map linesCovered).sum, (parts.map linesValid).sum, (parts.map branchesCovered).sum,
    (parts.map branchesValid).sum⟩

theorem sum_perm {parts parts' : List Counts} (order : parts.Perm parts') :
    sum parts = sum parts' := by
  unfold sum
  rw [(order.map linesCovered).sum_nat, (order.map linesValid).sum_nat,
    (order.map branchesCovered).sum_nat,
    (order.map branchesValid).sum_nat]

/-- The sum of the sums of several groups. -/
theorem sum_flatMap {α : Type} (groups : List α) (parts : α → List Counts) :
    sum (groups.flatMap parts) = sum (groups.map fun group => sum (parts group)) := by
  induction groups with
  | nil => rfl
  | cons group groups ih =>
    simp only [sum, List.flatMap_cons, List.map_cons, List.map_append,
      List.sum_append, List.sum_cons,
      Counts.mk.injEq] at ih ⊢
    exact ⟨by rw [ih.1], by rw [ih.2.1], by rw [ih.2.2.1], by rw [ih.2.2.2]⟩

theorem sum_records (store : Store) : sum (store.records.map ofRecord) = ofStore store := by
  simp only [sum, List.map_map]
  rfl

end Counts

/-- A number in decimal digits. -/
def readNumber? (text : List Char) : Option Nat :=
  if text.isEmpty || !text.all Char.isDigit then none else some (Nat.ofDigitChars 10 text 0)

/-- The two numbers at the start of a text such as "1/2) and so on". -/
def readPair? (stop : Char) (text : List Char) : Option (Nat × Nat) :=
  match split (· == '/') text with
  | [covered, rest] =>
    match split (· == stop) rest with
    | [] => none
    | valid :: _ => do return (← readNumber? covered, ← readNumber? valid)
  | _ => none

/-- The pairs of numbers that follow opening parentheses. -/
def readPairs? (text : String) : Option (List (Nat × Nat)) :=
  (split (· == '(') text.toList).tail.mapM (readPair? ')')

/-- The pair of numbers of a text that has one. -/
def readCounts? (text : String) : Option (Nat × Nat) :=
  match readPairs? text with
  | some [counts] => some counts
  | _ => none

theorem toList_toString (number : Nat) : (toString number).toList = Nat.toDigits 10 number := by
  rw [Nat.toString_eq_ofList_toDigits, String.toList_ofList]

theorem isDigit_of_mem_toString {number : Nat} {char : Char}
    (member : char ∈ (toString number).toList) :
    char.isDigit = true := by
  rw [toList_toString] at member
  exact Nat.isDigit_of_mem_toDigits (by decide) (by decide) member

theorem not_mem_toString {number : Nat} {char : Char} (sign : char.isDigit = false) :
    char ∉ (toString number).toList := by
  intro member
  rw [isDigit_of_mem_toString member] at sign
  cases sign

theorem readNumber?_toString (number : Nat) :
    readNumber? (toString number).toList = some number := by
  have digits : (toString number).toList.all Char.isDigit = true :=
    List.all_eq_true.mpr fun char member => isDigit_of_mem_toString member
  have filled : (toString number).toList.isEmpty = false := by
    rw [toList_toString, List.isEmpty_eq_false_iff]
    exact Nat.toDigits_ne_nil
  rw [readNumber?, digits, filled, toList_toString, Nat.ofDigitChars_ten_toDigits]
  rfl

/-- How a pair of numbers is written, and what follows it. -/
def pairChars (stop : Char) (counts : Nat × Nat) (after : List Char) : List Char :=
  (toString counts.1).toList ++ '/' :: ((toString counts.2).toList ++ stop :: after)

theorem readPair?_pairChars (stop : Char) (sign : stop.isDigit = false) (other : stop ≠ '/')
    (counts : Nat × Nat) {after : List Char} (plain : '/' ∉ after) :
    readPair? stop (pairChars stop counts after) = some counts := by
  have alone : '/' ∉ (toString counts.2).toList ++ stop :: after := by
    intro member
    rcases List.mem_append.mp member with digit | later
    · exact not_mem_toString (by decide) digit
    · rcases List.mem_cons.mp later with same | inside
      · exact other same.symm
      · exact plain inside
  have first :=
    split_append '/' (toString counts.1).toList ((toString counts.2).toList ++ stop :: after)
  rw [split_of_not_mem (not_mem_toString (by decide)), split_of_not_mem alone] at first
  have second := split_append stop (toString counts.2).toList after
  rw [split_of_not_mem (not_mem_toString sign)] at second
  unfold readPair? pairChars
  rw [first]
  simp only [List.singleton_append, second]
  rw [readNumber?_toString, readNumber?_toString]
  rfl

/-- Pairs of numbers in parentheses, each with the text behind it. -/
def pairsChars (pairs : List ((Nat × Nat) × List Char)) : List Char :=
  pairs.flatMap fun (counts, after) => '(' :: pairChars ')' counts after

private theorem not_mem_pairChars {counts : Nat × Nat} {after : List Char} (plain : '(' ∉ after) :
    '(' ∉ pairChars ')' counts after := by
  unfold pairChars
  simp only [List.mem_append, List.mem_cons, not_or]
  exact ⟨not_mem_toString (by decide), by decide, not_mem_toString (by decide), by decide, plain⟩

private theorem split_pairsChars {front : List Char} {pairs : List ((Nat × Nat) × List Char)}
    (plain : '(' ∉ front) (between : ∀ pair ∈ pairs, '(' ∉ pair.2) :
    split (· == '(') (front ++ pairsChars pairs) =
      front :: pairs.map fun (counts, after) => pairChars ')' counts after := by
  induction pairs generalizing front with
  | nil => rw [pairsChars, List.flatMap_nil, List.append_nil, split_of_not_mem plain, List.map_nil]
  | cons pair pairs ih =>
    rw [List.forall_mem_cons] at between
    have whole : pairsChars (pair :: pairs) =
        '(' :: (pairChars ')' pair.1 pair.2 ++ pairsChars pairs) := rfl
    rw [whole, split_append, split_of_not_mem plain, ih (not_mem_pairChars between.1) between.2]
    rfl

theorem readPairs?_of_chars {text : String} {front : List Char}
    {pairs : List ((Nat × Nat) × List Char)} (shown : text.toList = front ++ pairsChars pairs)
    (plain : '(' ∉ front) (between : ∀ pair ∈ pairs, '(' ∉ pair.2 ∧ '/' ∉ pair.2) :
    readPairs? text = some (pairs.map Prod.fst) := by
  rw [readPairs?, shown, split_pairsChars plain fun pair member =>
    (between pair member).1, List.tail_cons,
    List.mapM_map]
  clear shown
  induction pairs with
  | nil => rfl
  | cons pair pairs ih =>
    rw [List.forall_mem_cons] at between
    rw [List.mapM_cons, ih between.2]
    simp only [Function.comp_apply,
      readPair?_pairChars ')' (by decide) (by decide) pair.1 between.1.2]
    rfl

theorem readCounts?_of_chars {text : String} (front : List Char) {covered valid : Nat}
    (after : List Char) (shown : text.toList = front ++ '(' :: pairChars ')' (covered, valid) after)
    (plain : '(' ∉ front) (bracket : '(' ∉ after) (slash : '/' ∉ after) :
    readCounts? text = some (covered, valid) := by
  have single : text.toList = front ++ pairsChars [((covered, valid), after)] := by
    rw [shown, pairsChars, List.flatMap_singleton]
  rw [readCounts?, readPairs?_of_chars single plain (by simp [bracket, slash])]
  rfl

end ClassCoverage.Report
