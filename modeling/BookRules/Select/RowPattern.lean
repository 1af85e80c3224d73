import BookRules.Error
import BookRules.Node
import BookRules.Regex.Search

/-!
# Rows of a pattern

A text can be cut into rows by regular expressions joined with `&&`.  Each
pattern but the last narrows the text to its matches, put one after the other;
every match of the last pattern is a row with its groups.
-/

namespace BookRules.Select.RowPattern

/-- Read a pattern. -/
def pattern (text : List Char) : Except RuleError Regex.Search :=
  match Regex.programs.search? (String.ofList text) with
  | some p => .ok p
  | none => .error (.invalidRegex (String.ofList text))

/-- The matches of a pattern, put one after the other. -/
def narrowed (p : Regex.Search) (text : Array Char) : Array Char :=
  ((p.matchesIn text).flatMap fun m => m.group text 0).toArray

def rowsOf (text : Array Char) : List (List Char) → Except RuleError (List Node)
  | [] => .error .emptyRowPattern
  | [last] => do
    let p ← pattern last
    return (p.matchesIn text).map fun m => .groups (m.texts text)
  | first :: rest => do
    let p ← pattern first
    rowsOf (narrowed p text) rest

/-- The rows that patterns joined with `&&` find in a text. -/
def rows (text patterns : String) : Except RuleError (List Node) :=
  rowsOf text.toList.toArray
    ((Text.splitAll ['&', '&'] patterns.toList).filter fun p => !p.isEmpty)

end BookRules.Select.RowPattern
