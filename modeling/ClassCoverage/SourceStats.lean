import ClassCoverage.Text
import ClassCoverage.Text.Alphanumeric

/-! Line count and complexity of a source text. Complexity is one plus the decision words and
operators before the first line comment of each line; lines do not see one another. -/
namespace ClassCoverage

structure SourceStats where
  lines : Nat
  complexity : Nat
  deriving DecidableEq, Repr

namespace SourceStats

/-- The text of a line without the carriage return that belongs to its end. -/
def dropReturn (line : List Char) : List Char :=
  if line.getLast? = some '\r' then line.dropLast else line

/-- The lines of a text. A line feed at the very end starts no further line, and a line without its
line feed keeps its carriage return. -/
def linesOf (text : List Char) : List (List Char) :=
  let pieces := Text.split (· == '\n') text
  let last := pieces.getLastD []
  pieces.dropLast.map dropReturn ++ if last = [] then [] else [last]

def code (line : List Char) : List Char := Text.before ['/', '/'] line

def isWordChar (char : Char) : Bool := Text.isAlphanumeric char || char == '_'

def decisionWords : List (List Char) :=
  ["if".toList, "for".toList, "while".toList, "case".toList, "catch".toList]

def decisionOperators : List (List Char) := ["&&".toList, "||".toList, "?".toList]

/-- The places from the left at which a pattern occurs, no two of them overlapping. -/
def occurrences (pattern : List Char) (text : List Char) : Nat :=
  match text with
  | [] => 0
  | char :: rest =>
    if pattern.isPrefixOf (char :: rest) then 1 + occurrences pattern
      (rest.drop (pattern.length - 1))
    else occurrences pattern rest
termination_by text.length
decreasing_by all_goals (simp only [List.length_drop, List.length_cons]; omega)

def wordDecisions (code : List Char) : Nat :=
  (Text.split (fun char => !isWordChar char) code).countP fun word => word ∈ decisionWords

def operatorDecisions (code : List Char) : Nat :=
  (decisionOperators.map fun operator => occurrences operator code).sum

def decisions (line : List Char) : Nat := wordDecisions (code line) + operatorDecisions (code line)

def ofText (text : List Char) : SourceStats :=
  let lines := linesOf text
  { lines := lines.length, complexity := 1 + (lines.map decisions).sum }

end SourceStats
end ClassCoverage
