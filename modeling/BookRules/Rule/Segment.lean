import BookRules.Rule.Mode
import BookRules.Unicode.CaseMap

/-!
# Placeholders

A stage may hold placeholders: `@get:{name}` for a variable, `{{…}}` for a rule
or a script, and `$1` to `$99` for a group of the row.  References to groups
count only in the rule itself, in front of the first `##`.

The scan cuts a text into segments from left to right.  A placeholder ends at the
first closing brace, or pair of braces, behind it.
-/

namespace BookRules.Rule

/-- A piece of a text with placeholders. -/
inductive Segment
  | literal (text : String)
  | variable (name : String)
  | rule (body : String)
  | script (body : String)
  | group (index : Nat)
  deriving DecidableEq, Repr

namespace Segment

def isLiteral : Segment → Bool
  | .literal _ => true
  | _ => false

/-- What `{{body}}` stands for. -/
def ofBody (body : List Char) : Segment :=
  let body := Text.trim body
  if looksLikeRule body then .rule (String.ofList body) else .script (String.ofList body)

/-- Read a placeholder in braces, with what follows it. -/
def placeholder? (cs : List Char) : Option (Segment × List Char) :=
  let get : Option (Segment × List Char) :=
    match Unicode.afterFolded? "@get:\x7b".toList cs with
    | none => none
    | some rest =>
      match rest.takeWhile (· != '\x7d'), rest.dropWhile (· != '\x7d') with
      | c :: name, _ :: after => some (.variable (String.ofList (Text.trim (c :: name))), after)
      | _, _ => none
  match get with
  | some found => some found
  | none =>
    match cs with
    | '\x7b' :: '\x7b' :: rest =>
      (Text.cutAt? ['\x7d', '\x7d'] rest).map fun (body, after) => (ofBody body, after)
    | _ => none

/-- The digits of a reference: one or two. -/
def referenceDigits : List Char → List Char
  | a :: b :: _ =>
    if Unicode.isDecimal a.toNat then
      if Unicode.isDecimal b.toNat then [a, b] else [a]
    else []
  | [a] => if Unicode.isDecimal a.toNat then [a] else []
  | [] => []

/-- Text that is not empty, as a segment. -/
def ofText (text : List Char) : List Segment :=
  if text.isEmpty then [] else [.literal (String.ofList text)]

/-- Cut a text at its references to groups.  `text` holds what was passed over,
in reverse, and `skip` characters belong to the reference read last.  Digits
other than the ASCII ones refer to nothing. -/
def referencesFrom : Nat → List Char → List Char → List Segment
  | _, text, [] => ofText text.reverse
  | skip + 1, text, _ :: rest => referencesFrom skip text rest
  | 0, text, c :: rest =>
    let digits := if c = '$' then referenceDigits rest else []
    match Decimal.natural? digits with
    | some index => ofText text.reverse ++ .group index :: referencesFrom digits.length [] rest
    | none => referencesFrom 0 (c :: text) rest

/-- The part of a text in front of its first `##`, and the rest. -/
def cutAtMark (text : List Char) : List Char × List Char :=
  match Text.cutAt? ['#', '#'] text with
  | some (before, _) => (before, text.drop before.length)
  | none => (text, [])

/-- The segments of a text without placeholders in braces. -/
def ofGap (inRule : Bool) (gap : List Char) : List Segment :=
  if inRule then
    let (front, suffix) := cutAtMark gap
    referencesFrom 0 [] front ++ ofText suffix
  else ofText gap

/-- Put a literal together with the literal behind it. -/
def joinLiterals : List Segment → List Segment
  | [] => []
  | segment :: rest =>
    match segment, joinLiterals rest with
    | .literal a, .literal b :: more => .literal (a ++ b) :: more
    | segment, joined => segment :: joined

/-- Cut a text at its placeholders.  `inRule` says that no `##` was passed.  The
second component says whether a placeholder stands in the rule itself. -/
def scanFrom (inRule : Bool) : Nat → List Char → List Char → List Segment × Bool
  | _, gap, [] =>
    let last := ofGap inRule gap.reverse
    (last, last.any fun s => !s.isLiteral)
  | skip + 1, gap, _ :: rest => scanFrom inRule skip gap rest
  | 0, gap, c :: rest =>
    match placeholder? (c :: rest) with
    | none => scanFrom inRule 0 (c :: gap) rest
    | some (segment, after) =>
      let before := ofGap inRule gap.reverse
      let inRule := inRule && !Text.occursIn ['#', '#'] gap.reverse
      let (more, templated) := scanFrom inRule (rest.length - after.length) [] rest
      (before ++ segment :: more,
        inRule || (before.any fun s => !s.isLiteral) || templated)

/-- The segments of a text, and whether it is a template: a placeholder stands in
front of the first `##`. -/
def scan (text : List Char) : List Segment × Bool :=
  let (segments, templated) := scanFrom true 0 [] text
  (joinLiterals segments, templated)

end Segment

end BookRules.Rule
