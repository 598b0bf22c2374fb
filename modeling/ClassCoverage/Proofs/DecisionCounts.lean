import ClassCoverage.Bytes
import ClassCoverage.SourceStats
import ClassCoverage.Text
import Mathlib.Data.Nat.Count
import Mathlib.Order.Bounds.Basic

/-! What is counted in a line of a source, place by place: the decision words with no word character
beside them, and as many occurrences of an operator as have room without overlapping, all of them
before the first comment mark. -/
namespace ClassCoverage.SourceStats
open Text

/-- No word goes on behind this text. -/
def EndsWord (front : List Char) : Prop := ∀ char ∈ front.getLast?, isWordChar char = false

instance (front : List Char) : Decidable (EndsWord front) :=
  decidable_of_iff (front.getLast?.all (fun char => !isWordChar char) = true)
    (by simp [EndsWord, Option.all_eq_true])

/-- A text begins with a decision word that ends before the next character. -/
def StartsDecision (text : List Char) : Prop :=
  ∃ word ∈ decisionWords, word <+: text ∧ ∀ char ∈ (text.drop word.length).head?,
    isWordChar char = false

private theorem isWordChar_of_mem_decisionWords {word : List Char} (known : word ∈ decisionWords) :
    ∀ char ∈ word, isWordChar char = true := by
  have words : ∀ word ∈ decisionWords, word.all isWordChar = true := by decide +kernel
  exact List.all_eq_true.mp (words word known)

theorem startsDecision_iff (text : List Char) :
    StartsDecision text ↔ text.takeWhile isWordChar ∈ decisionWords := by
  constructor
  · rintro ⟨word, known, ⟨behind, rfl⟩, ends⟩
    rw [List.drop_left] at ends
    have whole : (word ++ behind).takeWhile isWordChar = word := by
      rw [List.takeWhile_append_of_pos (isWordChar_of_mem_decisionWords known)]
      cases behind with
      | nil => simp
      | cons char behind => simp [ends char rfl]
    rwa [whole]
  · intro known
    refine ⟨_, known, List.takeWhile_prefix _, fun char next => ?_⟩
    have rest : text.drop (text.takeWhile isWordChar).length = text.dropWhile isWordChar :=
      calc text.drop (text.takeWhile isWordChar).length
        _ = (text.takeWhile isWordChar ++ text.dropWhile isWordChar).drop
          (text.takeWhile isWordChar).length := by
          rw [List.takeWhile_append_dropWhile]
        _ = text.dropWhile isWordChar := List.drop_left
    have stops := List.head?_dropWhile_not isWordChar text
    rw [rest] at next
    rw [Option.mem_def.mp next] at stops
    exact stops

instance (text : List Char) : Decidable (StartsDecision text) :=
  decidable_of_iff (decisionWords.contains (text.takeWhile isWordChar) = true)
    (List.contains_iff_mem.trans (startsDecision_iff text).symm)

/-- A decision word stands at this place, with no word character before or behind it. -/
def IsWordPlace (code : List Char) (place : Nat) : Prop :=
  EndsWord (code.take place) ∧ StartsDecision (code.drop place)

instance (code : List Char) :
    DecidablePred (IsWordPlace code) := fun _ => inferInstanceAs (Decidable (_ ∧ _))

/-- The words of a text, with an empty one wherever no word stands between two other characters. -/
def wordsOf (text : List Char) : List (List Char) := split (fun char => !isWordChar char) text

theorem wordsOf_ne_nil (text : List Char) : wordsOf text ≠ [] := split_ne_nil _ text

/-- The first of the words is the one that the text begins with. -/
theorem wordsOf_eq (text : List Char) :
    wordsOf text = text.takeWhile isWordChar :: (wordsOf text).tail := by
  induction text with
  | nil => simp [wordsOf, split]
  | cons char rest ih =>
    obtain ⟨word, words, shown⟩ := List.exists_cons_of_ne_nil (wordsOf_ne_nil rest)
    rw [shown, List.tail_cons, List.cons.injEq] at ih
    unfold wordsOf at shown ⊢
    cases inside : isWordChar char with
    | false => simp [split, inside]
    | true => simp [split, inside, shown, ih.1]

/-- The words behind the first one. A character that is in no word ends a word, if only an empty
one. -/
theorem tail_wordsOf_cons (char : Char) (rest : List Char) :
    (wordsOf (char :: rest)).tail = if isWordChar char = false then wordsOf rest
    else (wordsOf rest).tail := by
  obtain ⟨word, words, shown⟩ := List.exists_cons_of_ne_nil (wordsOf_ne_nil rest)
  unfold wordsOf at shown ⊢
  cases inside : isWordChar char with
  | false => simp [split, inside]
  | true => simp [split, inside, shown]

/-- The places of decision words behind a front, which tells whether a word can begin at the first
of them. -/
theorem count_isWordPlace (front text : List Char) :
    Nat.count (fun place => IsWordPlace (front ++ text) (front.length + place)) text.length =
      if EndsWord front then (wordsOf text).countP (· ∈ decisionWords)
      else (wordsOf text).tail.countP (· ∈ decisionWords) := by
  induction text generalizing front with
  | nil =>
    have nothing : [] ∉ decisionWords := by decide
    simp [wordsOf, split, nothing]
  | cons char rest ih =>
    have here : IsWordPlace (front ++ char :: rest) (front.length + 0) ↔
        EndsWord front ∧ StartsDecision (char :: rest) := by
      rw [IsWordPlace, Nat.add_zero, List.take_left, List.drop_left]
    -- The later places are those behind a front with one more character.
    have later := ih (front ++ [char])
    have place (index : Nat) : (front ++ [char]).length + index = front.length + (index + 1) := by
      rw [List.length_append, List.length_singleton, Nat.add_assoc, Nat.add_comm 1]
    have ends : EndsWord (front ++ [char]) ↔ isWordChar char = false := by simp [EndsWord]
    simp only [List.append_assoc, List.singleton_append, place, ends] at later
    rw [List.length_cons, Nat.count_succ', later, wordsOf_eq (char :: rest),
      List.tail_cons, List.countP_cons,
      tail_wordsOf_cons]
    by_cases open_ : EndsWord front
    · have starts : IsWordPlace (front ++ char :: rest) (front.length + 0) ↔
          decide ((char :: rest).takeWhile isWordChar ∈ decisionWords) = true := by
        rw [here, startsDecision_iff, decide_eq_true_eq]
        exact and_iff_right open_
      rw [if_pos open_, apply_ite (List.countP _)]
      simp only [starts]
    · rw [if_neg open_, if_neg fun stands => open_ (here.mp stands).1, Nat.add_zero,
        apply_ite (List.countP _)]

/-- Cutting a text into its words counts the places of the decision words. -/
theorem wordDecisions_eq_count (code : List Char) :
    wordDecisions code = Nat.count (IsWordPlace code) code.length := by
  have counted := count_isWordPlace [] code
  simp only [List.nil_append, List.length_nil, Nat.zero_add] at counted
  rw [counted, if_pos (by simp [EndsWord])]
  rfl

/-- Places at which a pattern stands, and its occurrences there do not overlap. -/
structure Apart (pattern text : List Char) (places : List Nat) : Prop where
  stands : ∀ place ∈ places, pattern <+: text.drop place
  apart : places.Pairwise fun one other => one + pattern.length ≤ other

namespace Apart
variable {pattern text : List Char} {places : List Nat}

/-- What stands behind the first characters stands at smaller places in the rest. -/
theorem drop {count : Nat} (here : Apart pattern text places)
    (behind : ∀ place ∈ places, count ≤ place) :
    Apart pattern (text.drop count) (places.map (· - count)) where
  stands := by
    intro place member
    obtain ⟨old, former, rfl⟩ := List.mem_map.mp member
    rw [List.drop_drop, Nat.add_sub_cancel' (behind old former)]
    exact here.stands old former
  apart := by
    rw [List.pairwise_map]
    refine here.apart.imp_of_mem fun {one other} member member' order => ?_
    have least := behind one member
    omega

theorem shift {count : Nat} (here : Apart pattern (text.drop count) places) :
    Apart pattern text (places.map (count + ·)) where
  stands := by
    intro place member
    obtain ⟨old, former, rfl⟩ := List.mem_map.mp member
    rw [← List.drop_drop]
    exact here.stands old former
  apart := by
    rw [List.pairwise_map]
    exact here.apart.imp fun order => by omega

private theorem first (starts : pattern <+: text)
    (later : Apart pattern (text.drop pattern.length) places) :
    Apart pattern text (0 :: places.map (pattern.length + ·)) where
  stands := List.forall_mem_cons.mpr ⟨starts, later.shift.stands⟩
  apart := List.pairwise_cons.mpr ⟨by simp, later.shift.apart⟩

/-- All but the first stand behind an occurrence at the start as well, wherever the first one is. -/
theorem others {place : Nat} (here : Apart pattern text (place :: places)) :
    Apart pattern (text.drop pattern.length) (places.map (· - pattern.length)) := by
  have order := List.pairwise_cons.mp here.apart
  have free : Apart pattern text places :=
    ⟨fun other member => here.stands other (List.mem_cons_of_mem _ member), order.2⟩
  exact free.drop fun other member => Nat.le_trans (Nat.le_add_left _ _) (order.1 other member)

end Apart

/-- As many occurrences of a pattern have room in a text without overlapping, and no more. -/
def HasRoomFor (pattern text : List Char) (count : Nat) : Prop :=
  IsGreatest {size | ∃ places, Apart pattern text places ∧ places.length = size} count

/-- No choice of occurrences does better than taking each from the left as soon as it stands free of
the last one. -/
theorem hasRoomFor_occurrences {pattern : List Char} (full : pattern ≠ []) (text : List Char) :
    HasRoomFor pattern text (occurrences pattern text) := by
  have long : 0 < pattern.length := List.length_pos_iff.mpr full
  induction text using occurrences.induct pattern with
  | case1 =>
    rw [occurrences]
    refine ⟨⟨[], ⟨by simp, List.Pairwise.nil⟩, rfl⟩, ?_⟩
    rintro _ ⟨places, here, rfl⟩
    cases places with
    | nil => exact Nat.le_refl 0
    | cons place places =>
      have stands := here.stands place List.mem_cons_self
      rw [List.drop_nil, List.prefix_nil] at stands
      exact absurd stands full
  | case2 char rest starts ih =>
    have behind : rest.drop (pattern.length - 1) = (char :: rest).drop pattern.length := by
      rw [← Nat.succ_pred_eq_of_pos long, List.drop_succ_cons,
        Nat.pred_eq_sub_one, Nat.succ_sub_one]
    rw [occurrences, if_pos starts, Nat.add_comm]
    rw [behind] at ih ⊢
    obtain ⟨⟨later, free, counted⟩, most⟩ := ih
    constructor
    · exact ⟨_, .first (List.isPrefixOf_iff_prefix.mp starts) free, by simp [counted]⟩
    · rintro _ ⟨places, here, rfl⟩
      cases places with
      | nil => exact Nat.zero_le _
      | cons place places =>
        have bound := most ⟨_, here.others, rfl⟩
        rw [List.length_map] at bound
        exact Nat.succ_le_succ bound
  | case3 char rest differs ih =>
    rw [occurrences, if_neg differs]
    obtain ⟨⟨later, free, counted⟩, most⟩ := ih
    constructor
    · exact ⟨later.map (1 + ·), free.shift, by simp [counted]⟩
    · rintro _ ⟨places, here, rfl⟩
      have far : ∀ place ∈ places, 1 ≤ place := by
        intro place member
        refine Nat.one_le_iff_ne_zero.mpr ?_
        rintro rfl
        exact differs (List.isPrefixOf_iff_prefix.mpr (here.stands 0 member))
      have bound := most ⟨_, here.drop far, rfl⟩
      rwa [List.length_map] at bound

/-- The part of a line in front of its first comment mark, or all of a line that has none. -/
inductive IsCode : (line code : List Char) → Prop
  | whole {line : List Char} (absent : ¬ ['/', '/'] <:+: line) : IsCode line line
  | cut {code : List Char} (first : ¬ ['/', '/'] <:+: code ++ ['/']) (remark : List Char) :
    IsCode (code ++ ['/', '/'] ++ remark) code

theorem isCode_code (line : List Char) : IsCode line (code line) := by
  induction line with
  | nil => exact .whole (by simp)
  | cons char rest ih =>
    unfold code at ih ⊢
    rw [before]
    split
    · rename_i marked
      obtain ⟨remark, shown⟩ := List.isPrefixOf_iff_prefix.mp marked
      rw [← shown]
      exact @IsCode.cut [] (by decide) remark
    · rename_i unmarked
      rw [List.isPrefixOf_iff_prefix] at unmarked
      generalize before ['/', '/'] rest = front at ih ⊢
      cases ih with
      | whole absent => exact .whole fun found =>
        (List.infix_cons_iff.mp found).elim unmarked absent
      | cut first remark =>
        refine @IsCode.cut (char :: front) (fun found => ?_) remark
        rcases List.infix_cons_iff.mp found with starts | later
        · exact unmarked (starts.trans ⟨'/' :: remark, by simp⟩)
        · exact first later

theorem IsCode.code_eq {line code : List Char} (cut : IsCode line code) :
    SourceStats.code line = code := by
  unfold SourceStats.code
  cases cut with
  | whole absent =>
    induction line with
    | nil => rfl
    | cons char rest ih =>
      rw [List.infix_cons_iff, not_or, ← List.isPrefixOf_iff_prefix] at absent
      rw [before, if_neg absent.1, ih absent.2]
  | cut first remark =>
    induction code with
    | nil => rfl
    | cons char rest ih =>
      rw [List.cons_append, List.infix_cons_iff, not_or] at first
      -- A mark at the start would end before the slash that the first mark has behind it.
      have unmarked :
          ¬ (['/', '/'].isPrefixOf (char :: (rest ++ ['/', '/'] ++ remark)) = true) := by
        rw [List.isPrefixOf_iff_prefix]
        intro starts
        exact first.1 (List.prefix_of_prefix_length_le starts ⟨'/' :: remark, by simp⟩ (by simp))
      rw [List.cons_append, List.cons_append, before, if_neg unmarked, ih first.2]

/-- The decision points of a line are the decision words of its code and as many of every operator
as have room in it. -/
inductive Counts (line : List Char) : Nat → Prop
  | ofCode {code : List Char} {operators : List Char → Nat} (cut : IsCode line code)
    (room : ∀ operator ∈ decisionOperators, HasRoomFor operator code (operators operator)) :
    Counts line (Nat.count (IsWordPlace code) code.length + (decisionOperators.map operators).sum)

theorem ne_nil_of_mem_decisionOperators : ∀ operator ∈ decisionOperators, operator ≠ [] := by decide

theorem counts_iff {line : List Char} {count : Nat} :
    Counts line count ↔ decisions line = count := by
  constructor
  · rintro ⟨cut, room⟩
    have same : ∀ operator ∈ decisionOperators, occurrences operator (code line) = _ :=
      fun operator known =>
      (hasRoomFor_occurrences (ne_nil_of_mem_decisionOperators operator known) _).unique
        (cut.code_eq ▸ room operator known)
    unfold decisions operatorDecisions
    rw [wordDecisions_eq_count, List.map_congr_left same, cut.code_eq]
  · rintro rfl
    unfold decisions operatorDecisions
    rw [wordDecisions_eq_count]
    exact .ofCode (isCode_code line) fun operator known =>
      hasRoomFor_occurrences (ne_nil_of_mem_decisionOperators operator known) _

end ClassCoverage.SourceStats
