import BookRules.Limits
import BookRules.Script.Syntax
import BookRules.Script.Token

/-!
# Reading tokens of scripts

Steps that look at the next token and pass over it, the words that are kept for
the language, and the operators with their precedence.
-/

namespace BookRules.Script

/-- A reader of tokens. -/
abbrev Parse := StateT (List Token) Option

namespace Parse

/-- Where a statement stands. -/
structure Place where
  /-- How much deeper expressions may be nested. -/
  depth : Nat
  inLoop : Bool

/-- One level deeper. -/
def Place.deeper (place : Place) : Parse Place :=
  match place.depth with
  | 0 => failure
  | depth + 1 => return { place with depth }

def next? : Parse (Option Token) :=
  return (← get).head?

def skip : Parse Unit :=
  modify List.tail

/-- Whether the next token is a mark. -/
def atMark (spelling : String) : Parse Bool := do
  match ← next? with
  | some (.mark m) => return m == spelling
  | _ => return false

/-- Whether the next token is a word. -/
def atWord (name : String) : Parse Bool := do
  match ← next? with
  | some (.word w) => return w == name
  | _ => return false

/-- Pass over a mark, if it is next. -/
def passMark (spelling : String) : Parse Bool := do
  if ← atMark spelling then skip; return true else return false

/-- Pass over a word, if it is next. -/
def passWord (name : String) : Parse Bool := do
  if ← atWord name then skip; return true else return false

def needMark (spelling : String) : Parse Unit := do
  if ← passMark spelling then return else failure

def needWord (name : String) : Parse Unit := do
  if ← passWord name then return else failure

/-- Words that have a meaning of their own. -/
def keptWords : List String :=
  ["true", "false", "let", "const", "if", "else", "switch", "do", "while", "until", "loop", "for",
    "in", "continue", "break", "return", "throw", "try", "catch", "fn", "this", "global", "Fn",
    "call", "curry", "type_of", "is_def_fn", "is_def_var", "is_shared", "print", "debug"]

/-- Kept words that may be called like functions. -/
def functionWords : List String :=
  ["Fn", "call", "curry", "type_of", "is_def_fn", "is_def_var", "is_shared", "print", "debug"]

/-- Kept words that may be called like methods. -/
def methodWords : List String :=
  ["call", "curry", "type_of", "is_shared"]

def isName (word : String) : Bool :=
  !keptWords.contains word && !idleWords.contains word && word != "_"

/-- A name for a variable or a function. -/
def name : Parse String := do
  match ← next? with
  | some (.word w) => if isName w then skip; return w else failure
  | _ => failure

/-- Operators by spelling, with their precedence. -/
def operators : List (String × Nat × Operator) :=
  [("|", 30, .bitOr), ("^", 30, .bitXor), ("&", 60, .bitAnd), ("==", 90, .eq), ("!=", 90, .ne),
    ("<", 130, .lt), ("<=", 130, .le), (">", 130, .gt), (">=", 130, .ge), ("+", 150, .add),
    ("-", 150, .sub), ("*", 180, .mul), ("/", 180, .div), ("%", 180, .rem), ("**", 190, .pow),
    ("<<", 210, .shiftLeft), (">>", 210, .shiftRight)]

/-- Assignments by spelling. -/
def assignments : List (String × Option Operator) :=
  [("=", none), ("+=", some .add), ("-=", some .sub), ("*=", some .mul), ("/=", some .div),
    ("%=", some .rem), ("**=", some .pow), ("<<=", some .shiftLeft), (">>=", some .shiftRight),
    ("&=", some .bitAnd), ("|=", some .bitOr), ("^=", some .bitXor)]

/-- An operator with its precedence, how many tokens it takes, whether it groups
to the right, and the expression it makes. -/
structure Joint where
  precedence : Nat
  tokens : Nat
  toRight : Bool
  make : Expr → Expr → Expr

/-- The operator that is next; `bars` tells whether a bar is one. -/
def joint? (bars : Bool) : Parse (Option Joint) := do
  match ← get with
  | .mark "||" :: _ => return some ⟨30, 1, false, .or⟩
  | .mark "&&" :: _ => return some ⟨60, 1, false, .and⟩
  | .mark "??" :: _ => return some ⟨135, 1, false, .orElse⟩
  | .mark ".." :: _ => return some ⟨140, 1, false, fun a b => .range a b false⟩
  | .mark "..=" :: _ => return some ⟨140, 1, false, fun a b => .range a b true⟩
  | .word "in" :: _ => return some ⟨110, 1, false, .binary .inside⟩
  | .mark "!" :: .word "in" :: _ => return some ⟨110, 2, false, fun a b => .not (.binary .inside a b)⟩
  | .mark m :: _ =>
    if m == "|" && !bars then return none
    else
      return (operators.find? fun o => o.1 == m).map fun (_, precedence, op) =>
        ⟨precedence, 1, op == .pow, .binary op⟩
  | _ => return none

/-- The negative of a number as written, or of a value. -/
def negated : Expr → Expr
  | .int n => .int (-n)
  | .float x => .float (-x)
  | e => .negate e

/-- Patterns are written out. -/
def isLiteral : Expr → Bool
  | .unit | .bool _ | .int _ | .float _ | .char _ | .text _ => true
  | .range (.int _) (.int _) _ => true
  | _ => false

/-- What can be assigned to. -/
def isTarget : Expr → Bool
  | .variable _ | .property _ _ _ | .index _ _ _ => true
  | _ => false

/-- The names between bars or parentheses, up to the mark that closes them. -/
def names (close : String) : Nat → Parse (List String)
  | 0 => failure
  | fuel + 1 => do
    if ← passMark close then return []
    let first ← name
    if ← passMark "," then return first :: (← names close fuel)
    else
      needMark close
      return [first]

end Parse

end BookRules.Script
