import Std.Data.HashSet
import BookRules.Text.Blank
import BookRules.Text.Occurrence
import BookRules.Decimal.Whole

/-!
# Index filters

An index filter keeps or drops items of a list by position.  Its entries are
single positions and slices `start:end:step`; negative numbers count from the
end, the end of a slice is exclusive, missing parts take their defaults, and a
step of zero reads as one.  Single positions that do not exist select nothing,
slices are clamped to the list.

A navigation step carries its filter in brackets, `li[1:3]`, or as a suffix,
`li.0` and `li!0`; the exclamation mark turns keeping into dropping.
-/

namespace BookRules.Select

/-- One entry of an index filter. -/
inductive IndexEntry
  | single (position : Int)
  | slice (start stop step : Option Int)
  deriving DecidableEq, Repr

namespace IndexEntry

/-- Count a negative position from the end. -/
def fromEnd? (len n : Int) : Option Int :=
  if n < 0 then Word.checked64? (n + len) else some n

/-- Put a position between two bounds, which have to stand in this order. -/
def clamp? (lo hi n : Int) : Option Int :=
  if hi < lo then none else some (if n < lo then lo else if hi < n then hi else n)

/-- A bound of a slice; `missing` stands for one that is not given. -/
def bound? (len lo hi missing : Int) : Option Int → Option Int
  | some n => do clamp? lo hi (← fromEnd? len n)
  | none => clamp? lo hi missing

/-- The position stands in front of the end of a slice, seen along its step. -/
def Before (step stop position : Int) : Prop :=
  (0 < step ∧ position < stop) ∨ (step < 0 ∧ stop < position)

instance (step stop position : Int) : Decidable (Before step stop position) :=
  inferInstanceAs (Decidable (_ ∨ _))

/-- How far it is to the end of a slice, seen along its step. -/
def distance (step stop position : Int) : Nat :=
  (if 0 < step then stop - position else position - stop).toNat

theorem distance_lt {step stop position : Int} (h : Before step stop position) :
    distance step stop (position + step) < distance step stop position := by
  unfold Before at h
  unfold distance
  split <;> omega

/-- Walk by steps up to the end of a slice.  A step that leaves the 64-bit words ends the
walk as well. -/
def walk (step stop position : Int) : List Nat :=
  if _h : Before step stop position then
    position.toNat ::
      if Word.inSigned64 (position + step) then walk step stop (position + step) else []
  else []
termination_by distance step stop position
decreasing_by exact distance_lt ‹_›

/-- The step of a slice; zero and a missing one read as one. -/
def stride : Option Int → Int
  | some s => if s = 0 then 1 else s
  | none => 1

/-- The positions an entry selects out of `len` items.  There are none when a sum leaves
the 64-bit words, or bounds are in the wrong order. -/
def positions? (len : Int) : IndexEntry → Option (List Nat)
  | .single n => do
    let i ← fromEnd? len n
    return if 0 ≤ i ∧ i < len then [i.toNat] else []
  | .slice start stop step => do
    let step := stride step
    if 0 < step then
      return walk step (← bound? len 0 len len stop) (← bound? len 0 len 0 start)
    else
      let last ← Word.checked64? (len - 1)
      return walk step (← bound? len (-1) last (-1) stop) (← bound? len (-1) last last start)

/-- The positions an entry selects, the number of items being a 64-bit word. -/
def positions (len : Nat) (entry : IndexEntry) : List Nat :=
  (entry.positions? (Word.signed64 len)).getD []

/-- Read one part of a slice; nothing stands for a missing part. -/
def component? (cs : List Char) : Option (Option Int) :=
  if cs.isEmpty then some none else (Decimal.signed64? cs).map some

/-- Read an entry. -/
def parse? (cs : List Char) : Option IndexEntry :=
  if !cs.contains ':' then
    (Decimal.signed64? cs).map .single
  else
    match (cs.splitOnP (· == ':')).map Text.trim with
    | [start, stop] => do
      return .slice (← component? start) (← component? stop) none
    | [start, stop, step] => do
      return .slice (← component? start) (← component? stop) (← component? step)
    | _ => none

end IndexEntry

/-- A list of entries, to keep or to drop. -/
structure IndexFilter where
  exclude : Bool
  entries : List IndexEntry
  deriving DecidableEq, Repr

namespace IndexFilter

/-- The characters of a filter in brackets. -/
def isFilterChar (c : Char) : Bool :=
  Decimal.isDigit c || c == '-' || c == ':' || c == ',' || c == '!' || c == ' '

/-- Read the text between the brackets.  Text that is no index filter, such as
an attribute test, gives nothing. -/
def parse? (raw : List Char) : Option IndexFilter :=
  let cs := Text.trim raw
  if cs.isEmpty || !cs.all isFilterChar then
    none
  else
    let (exclude, body) := match cs with
      | '!' :: rest => (true, rest)
      | _ => (false, cs)
    let parts := ((body.splitOnP (· == ',')).map Text.trim).filter (fun p => !p.isEmpty)
    match parts.mapM IndexEntry.parse? with
    | none => none
    | some [] => none
    | some entries => some { exclude, entries }

/-- Drop every position that stood before, walking from left to right. -/
def keepFirst (seen : Std.HashSet Nat) : List Nat → List Nat
  | [] => []
  | p :: ps => if seen.contains p then keepFirst seen ps else p :: keepFirst (seen.insert p) ps

/-- The positions selected out of `len` items, in written order, each once. -/
def positions (filter : IndexFilter) (len : Nat) : List Nat :=
  keepFirst ∅ (filter.entries.flatMap (IndexEntry.positions len))

/-- Take the items at some positions out of their slots, one after the other. -/
def takeOut {α : Type} (slots : Array (Option α)) : List Nat → List α
  | [] => []
  | p :: ps =>
    match slots[p]? with
    | some (some item) => item :: takeOut (slots.setIfInBounds p none) ps
    | _ => takeOut slots ps

/-- The items kept. -/
def apply {α : Type} (filter : IndexFilter) (items : List α) : List α :=
  let selected := filter.positions items.length
  if filter.exclude then
    let dropped := Std.HashSet.ofList selected
    (items.zipIdx.filter fun (_, i) => !dropped.contains i).map Prod.fst
  else
    takeOut (items.map some).toArray selected

/-- Take a suffix filter, `.N` or `!N`, off a step. -/
def splitSuffix? (step : List Char) : Option (List Char × IndexFilter) :=
  match step.reverse.span (fun c => c != '.' && c != '!') with
  | (_, []) => none
  | (back, mark :: front) =>
    let suffix := back.reverse
    if suffix.any Decimal.isDigit &&
        suffix.all (fun c => Decimal.isDigit c || c == '-' || c == ':') then
      (IndexEntry.parse? suffix).map fun entry =>
        (front.reverse, { exclude := mark == '!', entries := [entry] })
    else
      none

/-- Take the index filter off a navigation step: brackets first, then a
suffix. -/
def split (raw : List Char) : List Char × Option IndexFilter :=
  let step := Text.trim raw
  if step.getLast? = some ']' then
    match Text.cutAtLast? '[' step.dropLast with
    | some (selector, inside) =>
      match parse? inside with
      | some filter => (Text.trimEnd selector, some filter)
      | none => (step, none)
    | none => (step, none)
  else
    match splitSuffix? step with
    | some (selector, filter) => (selector, some filter)
    | none => (step, none)

end IndexFilter

end BookRules.Select
