/-! Text as lists of characters: cutting, joining, trimming and substitution.
A piece never contains its separator, and the pieces joined again give the text back. -/
namespace ClassCoverage

-- The characters of a text are looked at, not all characters there are.
scoped instance (priority := 2000) decidableCharacters (text : List Char) (holds : Char → Prop)
    [DecidablePred holds] : Decidable (∀ char ∈ text, holds char) :=
  List.decidableBAll holds text

namespace Text

/-- The pieces between separating characters. There is always at least one piece. -/
def split (separator : Char → Bool) : List Char → List (List Char)
  | [] => [[]]
  | char :: rest =>
    if separator char then [] :: split separator rest
    else match split separator rest with
      | [] => [[char]]
      | piece :: pieces => (char :: piece) :: pieces

/-- The texts before and after the last occurrence of `mark`. -/
def splitLast? (mark : Char) : List Char → Option (List Char × List Char)
  | [] => none
  | char :: rest =>
    match splitLast? mark rest with
    | some (before, after) => some (char :: before, after)
    | none => if char = mark then some ([], rest) else none

/-- What stands before the first occurrence of `pattern`, or the whole text. -/
def before (pattern : List Char) : List Char → List Char
  | [] => []
  | char :: rest =>
    if pattern.isPrefixOf (char :: rest) then [] else char :: before pattern rest

def stripPrefix? (front : List Char) (text : List Char) : Option (List Char) :=
  if front.isPrefixOf text then some (text.drop front.length) else none

def stripSuffix? (ending : List Char) (text : List Char) : Option (List Char) :=
  if ending.isSuffixOf text then some (text.take (text.length - ending.length)) else none

def trimLeft (blank : Char → Bool) (text : List Char) : List Char := text.dropWhile blank

def trim (blank : Char → Bool) (text : List Char) : List Char :=
  ((text.dropWhile blank).reverse.dropWhile blank).reverse

/-- Replaces each character by the text `image` gives for it. -/
def substitute (image : Char → List Char) (text : List Char) : List Char := text.flatMap image

/-- Does `pattern` occur somewhere in the text? -/
def contains (pattern : List Char) : List Char → Bool
  | [] => pattern.isEmpty
  | char :: rest => pattern.isPrefixOf (char :: rest) || contains pattern rest

/-- Characters with the white space property. -/
def isBlank (char : Char) : Bool :=
  let code := char.val
  (9 ≤ code && code ≤ 13) || code == 0x20 || code == 0x85 || code == 0xA0 || code == 0x1680 ||
  (0x2000 ≤ code && code ≤ 0x200A) || code == 0x2028 || code == 0x2029 || code == 0x202F ||
  code == 0x205F || code == 0x3000

/-- Letters `A` to `Z` made small; every other character is kept. -/
def lower (text : String) : String := text.map Char.toLower

def join (separator : String) (pieces : List String) : String := separator.intercalate pieces

/-- Applies a function on character lists to a string. -/
def onChars (change : List Char → List Char) (text : String) : String :=
  String.ofList (change text.toList)

theorem split_ne_nil (separator : Char → Bool) (text : List Char) : split separator text ≠ [] := by
  cases text with
  | nil => simp [split]
  | cons char rest => simp only [split]; split <;> (try split) <;> simp

theorem toList_lower (text : String) : (lower text).toList = text.toList.map Char.toLower := by
  simp [lower]

theorem not_mem_of_splitLast? {mark : Char} {text : List Char}
    (absent : splitLast? mark text = none) : mark ∉ text := by
  induction text with
  | nil => simp
  | cons char rest ih =>
    simp only [splitLast?] at absent
    split at absent
    · simp at absent
    · rename_i none
      split at absent
      · simp at absent
      · rename_i different
        exact List.not_mem_cons_of_ne_of_not_mem (Ne.symm different) (ih none)

theorem append_of_splitLast? {mark : Char} {text before after : List Char}
    (found : splitLast? mark text = some (before, after)) :
    text = before ++ mark :: after ∧ mark ∉ after := by
  induction text generalizing before after with
  | nil => simp [splitLast?] at found
  | cons char rest ih =>
    simp only [splitLast?] at found
    split at found
    · rename_i front back inner
      simp only [Option.some.injEq, Prod.mk.injEq] at found
      obtain ⟨rfl, rfl⟩ := found
      exact ⟨by rw [(ih inner).1, List.cons_append], (ih inner).2⟩
    · rename_i absent
      split at found
      · rename_i same
        simp only [Option.some.injEq, Prod.mk.injEq] at found
        obtain ⟨rfl, rfl⟩ := found
        exact ⟨by simp [same], not_mem_of_splitLast? absent⟩
      · simp at found

end Text
end ClassCoverage
