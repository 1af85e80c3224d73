import BookRules.Decimal.Whole

/-!
# Tables over code points

Three kinds of tables: a value for every code point, given by runs of equal
values; a set of code points, given by its ranges; and a map that moves code
points, given by runs that move by the same distance.  All three are arrays in
ascending order that are searched by halving.
-/

namespace BookRules.Unicode

/-- The whole numbers of a text, separated by spaces. -/
def integers (cs : List Char) : List Int :=
  ((cs.splitOnP (· == ' ')).filter fun w => !w.isEmpty).map fun w => (Decimal.whole? w).getD 0

/-- The last position below `hi` whose key is at most `x`, provided that the key
at `lo` is. -/
def lastAtMost (keys : Array Nat) (x : Nat) : Nat → Nat → Nat → Nat
  | 0, lo, _ => lo
  | fuel + 1, lo, hi =>
    if hi ≤ lo + 1 then lo
    else
      let mid := (lo + hi) / 2
      if keys.getD mid 0 ≤ x then lastAtMost keys x fuel mid hi else lastAtMost keys x fuel lo mid

/-- The position of the run that `x` belongs to, if it is not in front of all
runs. -/
def runOf? (keys : Array Nat) (x : Nat) : Option Nat :=
  if keys.size == 0 || x < keys.getD 0 0 then none
  else some (lastAtMost keys x (keys.size.log2 + 2) 0 keys.size)

/-- A value for every code point. -/
structure Runs (α : Type) where
  starts : Array Nat
  values : Array α
  default : α

namespace Runs

variable {α : Type}

/-- The value of a code point. -/
def at_ (runs : Runs α) (code : Nat) : α :=
  match runOf? runs.starts code with
  | some i => runs.values.getD i runs.default
  | none => runs.default

/-- Runs by value and length, from code point zero on. -/
def ofLengths (default : α) (lengths : List (α × Nat)) : Runs α :=
  let (starts, values, _) := lengths.foldl (fun (starts, values, next) (value, length) =>
    (starts.push next, values.push value, next + length)) (#[], #[], 0)
  { starts, values, default }

end Runs

/-- A set of code points. -/
structure Ranges where
  firsts : Array Nat
  lasts : Array Nat

namespace Ranges

def contains (ranges : Ranges) (code : Nat) : Bool :=
  match runOf? ranges.firsts code with
  | some i => code ≤ ranges.lasts.getD i 0
  | none => false

/-- The ranges in order. -/
def toList (ranges : Ranges) : List (Nat × Nat) :=
  ranges.firsts.toList.zip ranges.lasts.toList

/-- Ranges that are already in order and apart. -/
def ofSorted (ranges : List (Nat × Nat)) : Ranges :=
  { firsts := (ranges.map Prod.fst).toArray, lasts := (ranges.map Prod.snd).toArray }

/-- Ranges by the gap in front of each and its length. -/
def gapped (next : Nat) : List Int → List (Nat × Nat)
  | gap :: length :: rest =>
    let first := next + gap.toNat
    (first, first + length.toNat - 1) :: gapped (first + length.toNat) rest
  | _ => []

/-- Ranges from lines that list a gap and a length for each. -/
def ofGaps (lines : List String) : Ranges :=
  ofSorted (gapped 0 (integers (lines.flatMap fun line => ' ' :: line.toList)))

end Ranges

/-- Code points that move by the same distance: the first of them, their number, the
step from one to the next and the distance. -/
structure Move where
  first : Nat
  count : Nat
  step : Nat
  distance : Int

namespace Move

/-- The code points of a run with their targets. -/
def pairs (move : Move) : List (Nat × Nat) :=
  (List.range move.count).map fun i =>
    let code := move.first + move.step * i
    (code, ((code : Int) + move.distance).toNat)

end Move

/-- A map that moves some code points. -/
structure Moves where
  firsts : Array Nat
  moves : Array Move

namespace Moves

/-- The image of a code point; one that is not moved stays. -/
def apply (table : Moves) (code : Nat) : Nat :=
  match (runOf? table.firsts code).bind fun i => table.moves[i]? with
  | none => code
  | some move =>
    let offset := code - move.first
    if offset % move.step == 0 && offset / move.step < move.count then
      ((code : Int) + move.distance).toNat
    else code

/-- All code points that move, with their targets. -/
def pairs (table : Moves) : List (Nat × Nat) :=
  table.moves.toList.flatMap Move.pairs

/-- Runs that are already in order and apart. -/
def ofRuns (runs : List Move) : Moves :=
  { firsts := (runs.map Move.first).toArray, moves := runs.toArray }

end Moves

end BookRules.Unicode
