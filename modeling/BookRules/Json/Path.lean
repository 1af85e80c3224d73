import BookRules.Limits
import BookRules.Json.Value
import BookRules.Select.IndexFilter

/-!
# JSON paths

A path is a list of steps, and a step leads from a value to the values it
matches there.  The matches of a path are found step by step, from left to
right; `..X` applies `X` to a value and all values inside it, a value before
the ones it holds.  No step keeps more than `Limits.jsonMatches` matches.
-/

namespace BookRules.Json

/-- A comparison in a filter. -/
inductive Comparison
  | eq
  | ne
  | lt
  | le
  | gt
  | ge
  deriving DecidableEq, Repr

namespace Comparison

/-- How two values compare: numbers as doubles, strings by code points, other
values only by equality. -/
def order? (a b : Json) : Option Ordering :=
  match a, b with
  | .number a, .number b =>
    let x := a.toFloat
    let y := b.toFloat
    if x < y then some .lt else if y < x then some .gt else if x == y then some .eq else none
  | .string a, .string b => some (compare a b)
  | a, b => if same a b then some .eq else none

/-- Whether a comparison holds for two values. -/
def holds (op : Comparison) (a b : Json) : Bool :=
  match op, order? a b with
  | .eq, o => o == some .eq
  | .ne, o => o != some .eq
  | .lt, o => o == some .lt
  | .le, o => o == some .lt || o == some .eq
  | .gt, o => o == some .gt
  | .ge, o => o == some .gt || o == some .eq

end Comparison

mutual

/-- One step of a path. -/
inductive Step
  /-- Members by name. -/
  | child (names : List String)
  /-- Every member or item. -/
  | wildcard
  /-- Items by position. -/
  | indices (filter : Select.IndexFilter)
  /-- A step from the value and from every value inside it. -/
  | descend (step : Step)
  /-- The members or items for which a condition holds. -/
  | filter (condition : Condition)

/-- The condition of a filter. -/
inductive Condition
  /-- Some match is not `null`. -/
  | present (path : List Step)
  /-- Some match compares with a constant. -/
  | compare (path : List Step) (op : Comparison) (constant : Json)

end

/-- A JSON path. -/
abbrev Path :=
  List Step

/-- The values still to be visited and all values inside them, a value before those it
holds, behind the ones `found` in reverse; at most `room` more. -/
def visitInside : Nat → List Json → List Json → List Json
  | 0, found, _ => found.reverse
  | _ + 1, found, [] => found.reverse
  | room + 1, found, node :: pending =>
    visitInside room (node :: found) (node.children ++ pending)

/-- A value and the values inside it, the outer before the inner, as far as there is
room. -/
def descendants (doc : Json) : List Json :=
  visitInside Limits.jsonMatches [] [doc]

/-- The matches from each node in turn until `room` of them are found. -/
def gatherUpTo (room : Nat) (found : Json → List Json) : List Json → List Json
  | [] => []
  | node :: rest =>
    let here := found node
    if room ≤ here.length then here.take room
    else here ++ gatherUpTo (room - here.length) found rest

mutual

/-- The matches of a step from one value. -/
def Step.apply : Step → Json → List Json
  | .child names, node =>
    match node with
    | .object members => names.filterMap (lookup? · members)
    | _ => []
  | .wildcard, node => node.children
  | .indices filter, node =>
    match node with
    | .array items => filter.apply items
    | _ => []
  | .descend step, node =>
    (descendants node).flatMap fun inner => (step.apply inner).take Limits.jsonMatches
  | .filter condition, node => node.children.filter condition.holds

/-- The matches of the steps from a list of values. -/
def applySteps : List Step → List Json → List Json
  | [], nodes => nodes
  | step :: rest, nodes => applySteps rest (gatherUpTo Limits.jsonMatches step.apply nodes)

/-- Whether the condition of a filter holds for a value. -/
def Condition.holds : Condition → Json → Bool
  | .present path, item => (applySteps path [item]).any (fun v => !v.isNull)
  | .compare path op constant, item => (applySteps path [item]).any (fun v => op.holds v constant)

end

/-- The matches of a path in a document. -/
def query (path : Path) (doc : Json) : List Json :=
  applySteps path [doc]

end BookRules.Json
