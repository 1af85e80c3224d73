import BookRules.Regex.Program

/-!
# Searching

All threads of a program advance over the text together, in order of preference,
and no two threads stand at one instruction.  The first match from the left is
found; among the matches from one position the preferred one wins.

Further matches are looked for behind the last one.  An empty match directly
behind the last match does not count.  This is so whatever finds the first match
at a position, and the programs of this library are one engine that does.
-/

namespace BookRules.Regex

/-- Positions by slot: two slots for each group. -/
abbrev Slots :=
  Array (Option Nat)

/-- A way through the program and the positions it has noted. -/
structure Thread where
  at_ : Nat
  slots : Slots

/-- Whether the characters beside a position are word characters. -/
def wordAt (ascii : Bool) (text : Array Char) (position : Nat) : Bool :=
  match text[position]? with
  | some c => if ascii then c.isAlphanum || c == '_' else Unicode.isWord c.toNat
  | none => false

def wordBefore (ascii : Bool) (text : Array Char) (position : Nat) : Bool :=
  match position with
  | 0 => false
  | p + 1 => wordAt ascii text p

def before? (text : Array Char) (position : Nat) : Option Char :=
  match position with
  | 0 => none
  | p + 1 => text[p]?

/-- Whether a condition holds at a position. -/
def Place.holds (text : Array Char) (position : Nat) : Place → Bool
  | .textStart => position == 0
  | .textEnd => position == text.size
  | .lineStart => position == 0 || before? text position == some '\n'
  | .lineEnd => position == text.size || text[position]? == some '\n'
  | .anyLineStart =>
    position == 0 || before? text position == some '\n' ||
      (before? text position == some '\r' && text[position]? != some '\n')
  | .anyLineEnd =>
    position == text.size || text[position]? == some '\r' ||
      (text[position]? == some '\n' && before? text position != some '\r')
  | .wordEdge ascii before after =>
    before.all (· == wordBefore ascii text position) && after.all (· == wordAt ascii text position)
  | .wordBoundary ascii negated =>
    (wordBefore ascii text position != wordAt ascii text position) != negated

/-- The threads at one position and the instructions they may not visit again. -/
structure Frontier where
  visited : Array Bool
  threads : Array Thread

namespace Frontier

/-- No threads yet in a program of this size. -/
def empty (size : Nat) : Frontier :=
  { visited := Array.replicate size false, threads := #[] }

/-- Follow threads to the instructions that pass over a character or accept.
Every step but two for each instruction takes one off the pending ones. -/
def follow (code : Code) (text : Array Char) (position : Nat) :
    Nat → List Thread → Frontier → Frontier
  | 0, _, frontier => frontier
  | _ + 1, [], frontier => frontier
  | fuel + 1, thread :: pending, frontier =>
    if frontier.visited.getD thread.at_ true then follow code text position fuel pending frontier
    else
      let threads := frontier.threads
      let frontier := { frontier with visited := frontier.visited.set! thread.at_ true }
      match code[thread.at_]? with
      | some (.fork first second) =>
        follow code text position fuel
          ({ thread with at_ := first } :: { thread with at_ := second } :: pending) frontier
      | some (.place p next) =>
        if p.holds text position then
          follow code text position fuel ({ thread with at_ := next } :: pending) frontier
        else follow code text position fuel pending frontier
      | some (.save slot next) =>
        follow code text position fuel
          ({ at_ := next, slots := thread.slots.set! slot (some position) } :: pending) frontier
      | some (.char ..) | some .accept =>
        follow code text position fuel pending { frontier with threads := threads.push thread }
      | none => follow code text position fuel pending frontier

/-- Add a thread behind the others. -/
def add (code : Code) (text : Array Char) (position : Nat) (frontier : Frontier)
    (thread : Thread) : Frontier :=
  follow code text position (2 * code.size + 2) [thread] frontier

/-- Advance the threads over a character, until one accepts. -/
def advance (code : Code) (text : Array Char) (position : Nat) (c? : Option Char) :
    List Thread → Frontier → Option Slots → Frontier × Option Slots
  | [], next, found => (next, found)
  | thread :: rest, next, found =>
    match code[thread.at_]? with
    | some .accept => (next, some thread.slots)
    | some (.char set after) =>
      let next :=
        if c?.any fun c => set.contains c.toNat then
          next.add code text (position + 1) { thread with at_ := after }
        else next
      advance code text position c? rest next found
    | _ => advance code text position c? rest next found

end Frontier

namespace Pattern

/-- Run the threads from `position` on; `fuel` is the number of positions left.
As long as nothing is found, a match may start at every position. -/
def run (pattern : Pattern) (text : Array Char) :
    Nat → Nat → Frontier → Option Slots → Option Slots
  | 0, _, _, found => found
  | fuel + 1, position, frontier, found =>
    if found.isSome && frontier.threads.isEmpty then found
    else
      let frontier :=
        if found.isSome then frontier
        else
          frontier.add pattern.code text position
            { at_ := pattern.start, slots := Array.replicate (2 * pattern.groups) none }
      let (next, found) := Frontier.advance pattern.code text position text[position]?
        frontier.threads.toList (.empty pattern.code.size) found
      run pattern text fuel (position + 1) next found

/-- The first match that starts at `position` or behind it. -/
def findFrom? (pattern : Pattern) (text : Array Char) (position : Nat) : Option Slots :=
  pattern.run text (text.size + 1 - position) position (.empty pattern.code.size) none

end Pattern

/-- A match: for every group that took part where it starts and ends.  Group 0
is the whole match. -/
structure Match where
  groups : List (Option (Nat × Nat))
  deriving DecidableEq, Repr

namespace Match

/-- The groups of pairs of slots. -/
def paired : List (Option Nat) → List (Option (Nat × Nat))
  | some a :: some b :: rest => some (a, b) :: paired rest
  | _ :: _ :: rest => none :: paired rest
  | _ => []

def ofSlots (slots : Slots) : Match :=
  ⟨paired slots.toList⟩

/-- Where the whole match starts and ends. -/
def span (m : Match) : Nat × Nat :=
  (m.groups.head?.bind id).getD (0, 0)

/-- The characters of a group; none for a group that does not exist or took no
part. -/
def group (m : Match) (text : Array Char) (index : Nat) : List Char :=
  match (m.groups[index]?).bind id with
  | some (a, b) => (text.extract a b).toList
  | none => []

/-- The texts of all groups. -/
def texts (m : Match) (text : Array Char) : List String :=
  (List.range m.groups.length).map fun i => String.ofList (m.group text i)

end Match

/-- How a pattern is looked for: the first match at a position of a text or behind it. -/
structure Search where
  matchFrom? : Array Char → Nat → Option Match

/-- Something that reads patterns.  What it does not take for a pattern it refuses. -/
structure Engine where
  search? : String → Option Search

namespace Search

/-- The first match behind a match that ended at `position`. -/
def matchAfter? (search : Search) (text : Array Char) (position : Nat) : Option Match :=
  match search.matchFrom? text position with
  | some m =>
    if m.span = (position, position) then
      if position < text.size then search.matchFrom? text (position + 1) else none
    else some m
  | none => none

/-- The matches behind one that ended at `position`. -/
def matchesAfter (search : Search) (text : Array Char) : Nat → Nat → List Match
  | 0, _ => []
  | fuel + 1, position =>
    match search.matchAfter? text position with
    | some m => m :: matchesAfter search text fuel m.span.2
    | none => []

/-- All matches, from left to right.  Every match but the first ends behind the
one before, so there are at most two more than characters. -/
def matchesIn (search : Search) (text : Array Char) : List Match :=
  match search.matchFrom? text 0 with
  | some m => m :: search.matchesAfter text (text.size + 2) m.span.2
  | none => []

def first? (search : Search) (text : Array Char) : Option Match :=
  search.matchFrom? text 0

end Search

/-- The threads of a program look for its pattern. -/
def Pattern.search (pattern : Pattern) : Search where
  matchFrom? text position := (pattern.findFrom? text position).map .ofSlots

/-- The engine that runs programs. -/
def programs : Engine where
  search? source := (Pattern.parse? source).map Pattern.search

end BookRules.Regex
