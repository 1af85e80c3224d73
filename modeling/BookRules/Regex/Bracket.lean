import BookRules.Regex.Escape

/-!
# Classes in brackets

A class lists characters, ranges, escapes, named classes and further classes in
brackets, and combines them by operations on sets, from left to right.
-/

namespace BookRules.Regex

def literalSet? (flags : Flags) (c : Char) : Option CharSet :=
  if !flags.unicode && 127 < c.toNat then
    none
  else
    some (caseClosed flags (.ofChars [c]))

/-- A named set inside brackets, with what follows it. -/
def asciiClass? (cs : List Char) : Option (CharSet × List Char) :=
  match cs with
  | '[' :: ':' :: rest =>
    let (negate, rest) := match rest with
      | '^' :: rest => (true, rest)
      | _ => (false, rest)
    match rest.dropWhile (· != ':') with
    | ':' :: ']' :: after =>
      (CharSet.asciiClass? (String.ofList (rest.takeWhile (· != ':')))).map fun set =>
        (negated negate set, after)
    | _ => none
  | _ => none

def classItem? (r : Reader) : Option (Atom × Reader) :=
  match r.rest with
  | '\\' :: rest => escape? (r.withRest rest)
  | c :: rest => some (.literal c, r.withRest rest)
  | [] => none

/-- Read an item or a range. -/
def classRange? (r : Reader) : Option (CharSet × Reader) := do
  let (first, r) ← classItem? r
  let r := r.skipSpace
  let single : Option (CharSet × Reader) := match first with
    | .literal c =>
      if !r.flags.unicode && 127 < c.toNat then none else some (.ofChars [c], r)
    | .set s => some (s, r)
    | .place _ => none
  match r.rest with
  | '-' :: _ =>
    match r.bump.rest with
    | [] => none
    | ']' :: _ | '-' :: _ => single
    | _ =>
      let (second, r) ← classItem? r.bump
      match first, second with
      | .literal a, .literal b =>
        if b < a || (!r.flags.unicode && 127 < b.toNat) then none
        else some (.ofRanges [(a.toNat, b.toNat)], r)
      | _, _ => none
  | [] => none
  | _ => single

/-- An operation between two parts of a class. -/
inductive SetOperation
  | inter
  | diff
  | symmDiff
  deriving DecidableEq, Repr

/-- Two parts of a class put together. -/
def SetOperation.apply (op : SetOperation) (flags : Flags) (left right : CharSet) : CharSet :=
  let left := caseClosed flags left
  let right := caseClosed flags right
  match op with
  | .inter => left.inter right
  | .diff => left.diff right
  | .symmDiff => left.symmDiff right

/-- A set, and how deep the brackets and operations that it is written with are nested. -/
structure ClassPart where
  set : CharSet
  depth : Nat

/-- What was read of a class: the part in front of the last operation, and the
items after it, with the depth of each. -/
structure ClassParts where
  left? : Option (ClassPart × SetOperation) := none
  items : CharSet := .empty
  depths : List Nat := []

namespace ClassParts

def value (parts : ClassParts) (flags : Flags) : ClassPart :=
  let depth := joinedDepth parts.depths
  match parts.left? with
  | some (left, op) =>
    { set := op.apply flags left.set parts.items, depth := max left.depth depth + 1 }
  | none => { set := parts.items, depth }

def add (parts : ClassParts) (set : CharSet) (depth : Nat) : ClassParts :=
  { parts with items := parts.items.union set, depths := depth :: parts.depths }

def operation (parts : ClassParts) (flags : Flags) (op : SetOperation) : ClassParts :=
  { left? := some (parts.value flags, op) }

end ClassParts

/-- Take hyphens at the start of a class as characters. -/
def leadingHyphens (parts : ClassParts) : Nat → Reader → ClassParts × Reader
  | 0, r => (parts, r)
  | fuel + 1, r =>
    match r.rest with
    | '-' :: _ => leadingHyphens (parts.add (.ofChars ['-']) 0) fuel r.bump
    | _ => (parts, r)

/-- Read a class after its opening bracket and skip what may stand there: the
sign of negation, hyphens and a closing bracket as characters. -/
def classStart (r : Reader) : Bool × ClassParts × Reader :=
  let (negate, r) := match r.rest with
    | '^' :: _ => (true, r.bump)
    | _ => (false, r)
  let (parts, next) := leadingHyphens {} (r.rest.length + 1) r
  if parts.items.ranges.isEmpty && next.rest.head? == some ']' then
    (negate, parts.add (.ofChars [']']) 0, next.bump)
  else
    (negate, parts, next)

/-- Read the items of a class up to its closing bracket. -/
def classItems? : Nat → Bool → ClassParts → Reader → Option (ClassPart × Reader)
  | 0, _, _, _ => none
  | fuel + 1, negate, parts, r =>
    let r := r.skipSpace
    match r.rest with
    | [] => none
    | ']' :: rest =>
      let { set, depth } := parts.value r.flags
      some ({ set := negated negate (caseClosed r.flags set), depth := depth + 1 },
        r.withRest rest)
    | '[' :: _ =>
      match asciiClass? r.rest with
      | some (set, rest) => classItems? fuel negate (parts.add set 0) (r.withRest rest)
      | none =>
        let (inner, innerParts, start) := classStart r.bump
        match classItems? fuel inner innerParts start with
        | some ({ set, depth }, r) => classItems? fuel negate (parts.add set depth) r
        | none => none
    | '&' :: '&' :: rest =>
      classItems? fuel negate (parts.operation r.flags .inter) (r.withRest rest)
    | '-' :: '-' :: rest =>
      classItems? fuel negate (parts.operation r.flags .diff) (r.withRest rest)
    | '~' :: '~' :: rest =>
      classItems? fuel negate (parts.operation r.flags .symmDiff) (r.withRest rest)
    | _ =>
      match classRange? r with
      | some (set, r) => classItems? fuel negate (parts.add set 0) r
      | none => none

/-- Read a class that starts with an opening bracket. -/
def class? (r : Reader) : Option (ClassPart × Reader) := do
  let (negate, parts, start) := classStart r.bump
  let ({ set, depth }, r) ← classItems? (r.rest.length + 1) negate parts start
  return ({ set := ← allowed? r.flags set, depth }, r)

end BookRules.Regex
