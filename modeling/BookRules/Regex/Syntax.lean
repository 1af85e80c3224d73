import BookRules.Regex.CharSet

/-!
# Regular expressions

A regular expression matches one character out of a set, a place between
characters, or a composition of these.  Case and the meaning of the dot are
settled when an expression is read, so that they do not occur here.
-/

namespace BookRules.Regex

/-- A condition on a place between two characters. -/
inductive Place
  | textStart
  | textEnd
  | lineStart
  | lineEnd
  /-- A line may also end with a carriage return. -/
  | anyLineStart
  | anyLineEnd
  /-- `before` and `after` say what is required of the two sides: a word
  character, none, or either. -/
  | wordEdge (ascii : Bool) (before after : Option Bool)
  /-- A word character on one side only, or the opposite of that. -/
  | wordBoundary (ascii negated : Bool)
  deriving DecidableEq, Repr

inductive Syntax
  | empty
  | char (set : CharSet)
  | place (p : Place)
  | seq (first second : Syntax)
  /-- The first alternative is preferred. -/
  | alt (first second : Syntax)
  /-- More repetitions are preferred when `greedy` is set, fewer otherwise. -/
  | repeated (inner : Syntax) (least : Nat) (most : Option Nat) (greedy : Bool)
  | group (index : Nat) (inner : Syntax)
  deriving Repr

namespace Syntax

/-- The length of the shortest match. -/
def leastLength : Syntax → Nat
  | .empty => 0
  | .char _ => 1
  | .place _ => 0
  | .seq a b => a.leastLength + b.leastLength
  | .alt a b => min a.leastLength b.leastLength
  | .repeated inner least _ _ => least * inner.leastLength
  | .group _ inner => inner.leastLength

/-- Every match is empty. -/
def isEmptyOnly : Syntax → Bool
  | .empty => true
  | .char _ => false
  | .place _ => true
  | .seq a b => a.isEmptyOnly && b.isEmptyOnly
  | .alt a b => a.isEmptyOnly && b.isEmptyOnly
  | .repeated inner _ most _ => most == some 0 || inner.isEmptyOnly
  | .group _ inner => inner.isEmptyOnly

/-- A repetition.  What matches only the empty text need not be repeated more
than once, and no repetitions at all are the empty expression. -/
def repeat_ (inner : Syntax) (least : Nat) (most : Option Nat) (greedy : Bool) : Syntax :=
  let (least, most) :=
    if inner.isEmptyOnly then (min least 1, some ((most.map (min 1)).getD 1)) else (least, most)
  if least == 0 && most == some 0 then .empty
  else if least == 1 && most == some 1 then inner
  else .repeated inner least most greedy

/-- The space that the expression takes when its repetitions are written out, in
bytes.  A range beyond ASCII is counted with what such ranges take on average. -/
def weight : Syntax → Nat
  | .empty => 32
  | .char set => set.ranges.foldl (fun n (_, b) => n + if b < 128 then 8 else 26) 32
  | .place _ => 32
  | .seq a b => a.weight + b.weight
  | .alt a b => a.weight + b.weight + 32
  | .repeated inner least most _ =>
    match most with
    | none => max least 1 * inner.weight + 32
    | some most => most * inner.weight + 32 * (most - least)
  | .group _ inner => inner.weight + 64

/-- The greatest number of a group. -/
def lastGroup : Syntax → Nat
  | .empty => 0
  | .char _ => 0
  | .place _ => 0
  | .seq a b => max a.lastGroup b.lastGroup
  | .alt a b => max a.lastGroup b.lastGroup
  | .repeated inner _ _ _ => inner.lastGroup
  | .group index inner => max index inner.lastGroup

end Syntax

/-- How deep parts are nested that are put together; a single part stands by itself. -/
def joinedDepth : List Nat → Nat
  | [] => 0
  | [depth] => depth
  | depths => depths.foldl max 0 + 1

end BookRules.Regex
