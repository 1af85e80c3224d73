import BookRules.Markup.Tree
import BookRules.Text.Occurrence

/-!
# Selectors and what they match

A complex selector is a compound, the tests on the element itself, with a chain
of compounds to its left that are tied to it by combinators.  An element
matches when it passes its own tests and, for the combinator to the left, some
element in that relation matches the rest.
-/

namespace BookRules.Css

open BookRules.Markup (Element Tree Vocabulary)

/-- How an element relates to the one on its right. -/
inductive Relation
  /-- It holds it at any depth. -/
  | ancestor
  /-- It holds it directly. -/
  | parent
  /-- It stands directly before it. -/
  | previous
  /-- It stands somewhere before it. -/
  | earlier
  deriving DecidableEq, Repr

/-- How the value of an attribute is tested. -/
inductive ValueTest
  | equals
  | word
  | dash
  | front
  | back
  | part
  deriving DecidableEq, Repr

/-- Whether the case of ASCII letters counts. -/
inductive CaseRule
  | exact
  | ignored
  /-- It does not count on HTML elements. -/
  | ignoredOnHtml
  deriving DecidableEq, Repr

/-- Which vocabularies a name is looked up in. -/
inductive SpaceTest
  | any
  | none
  deriving DecidableEq, Repr

/-- Counting siblings: every `step`-th from `start` on. -/
structure Count where
  step : Int
  start : Int
  ofType : Bool
  fromEnd : Bool
  deriving DecidableEq, Repr

mutual

/-- A test on one element. -/
inductive Simple
  /-- The name of the element, in lower case for HTML and as written for other
  elements. -/
  | name (space : SpaceTest) (lower written : String)
  | anyName (space : SpaceTest)
  | id (value : String)
  | class_ (name : String)
  | hasAttribute (space : SpaceTest) (lower written : String)
  | attributeTest (space : SpaceTest) (lower written : String) (test : ValueTest)
      (value : String) (case : CaseRule)
  | count (c : Count)
  | only (ofType : Bool)
  | root
  | empty
  | scope
  /-- The element that a relative selector starts from. -/
  | anchor
  /-- No element. -/
  | never
  | not (selectors : List Complex)
  | any (selectors : List Complex)
  | has (selectors : List Complex)

/-- A compound and what stands to its left. -/
inductive Complex
  | mk (compound : List Simple) (left : Chain)

/-- Compounds from right to left, each with its relation to the one before. -/
inductive Chain
  | start
  | step (relation : Relation) (compound : List Simple) (rest : Chain)

end

/-- The elements around an element, the nearest first. -/
def ancestorsWith : Nat → Element → List Element
  | 0, _ => []
  | n + 1, e =>
    match e.parent? with
    | some p => p :: ancestorsWith n p
    | none => []

def ancestors (e : Element) : List Element :=
  ancestorsWith e.above.length e

/-- The number of siblings on one side is a bound for walking there. -/
def beforeWith : Nat → Element → List Element
  | 0, _ => []
  | n + 1, e =>
    match e.previous? with
    | some p => p :: beforeWith n p
    | none => []

/-- The elements before an element under its parent, the nearest first. -/
def earlierSiblings (e : Element) : List Element :=
  match e.above with
  | level :: _ => beforeWith level.before.length e
  | [] => []

def afterWith : Nat → Element → List Element
  | 0, _ => []
  | n + 1, e =>
    match e.next? with
    | some p => p :: afterWith n p
    | none => []

/-- The elements after an element under its parent, the nearest first. -/
def laterSiblings (e : Element) : List Element :=
  match e.above with
  | level :: _ => afterWith level.after.length e
  | [] => []

def related (relation : Relation) (e : Element) : List Element :=
  match relation with
  | .ancestor => ancestors e
  | .parent => e.parent?.toList
  | .previous => e.previous?.toList
  | .earlier => earlierSiblings e

/-- The elements inside an element that have an element as their parent. -/
def properDescendants (e : Element) : List Element :=
  e.descendants.filter fun d =>
    (d.above.take (d.above.length - e.above.length)).all fun level =>
      level.parent != .fragment

/-- The elements that a relative selector may reach. -/
def reachable (relation : Relation) (e : Element) : List Element :=
  match relation with
  | .ancestor | .parent => properDescendants e
  | .previous | .earlier =>
    (laterSiblings e).flatMap fun s => s :: properDescendants s

def isHtml (e : Element) : Bool :=
  e.tag.vocabulary == .html

/-- A name in the spelling that counts for an element. -/
def spelling (e : Element) (lower written : String) : String :=
  if isHtml e then lower else written

/-- Whether a value passes a test. -/
def ValueTest.holds (test : ValueTest) (ignoreCase : Bool) (actual wanted : String) : Bool :=
  let fold (cs : List Char) := if ignoreCase then Text.lowerAscii cs else cs
  let a := fold actual.toList
  let w := fold wanted.toList
  match test with
  | .equals => a == w
  | .front => !w.isEmpty && w.isPrefixOf a
  | .back => !w.isEmpty && w.isSuffixOf a
  | .part => !w.isEmpty && Text.occursIn w a
  | .word => !w.isEmpty &&
      (a.splitOnP fun c =>
        c == ' ' || c == '\t' || c == '\n' || c == '\r' || c == '\x0c').contains w
  | .dash => a == w || (w ++ ['-']).isPrefixOf a

/-- An attribute with this name passes a test. -/
def anyAttribute (e : Element) (space : SpaceTest) (name : String) (test : String → Bool) : Bool :=
  e.tag.attributes.any fun a =>
    (space == .any || a.space == .none) && a.name == name && test a.value

/-- Same name and vocabulary. -/
def sameType (a b : Element) : Bool :=
  a.tag.vocabulary == b.tag.vocabulary && a.tag.name == b.tag.name

/-- Position among the siblings, from one on. -/
def positionOf (c : Count) (e : Element) : Nat :=
  let others := if c.fromEnd then laterSiblings e else earlierSiblings e
  (if c.ofType then others.filter (sameType e) else others).length + 1

/-- The position is one of the counted ones. -/
def Count.holds (c : Count) (e : Element) : Bool :=
  let distance := (positionOf c e : Int) - c.start
  if c.step == 0 then distance == 0
  else distance % c.step == 0 && 0 ≤ distance / c.step

/-- No text and no element inside. -/
def isEmpty (e : Element) : Bool :=
  e.children.all fun
    | .text _ | .element _ _ => false
    | _ => true

/-- The leftmost relation of a chain, the one next to the anchor. -/
def Chain.firstRelation : Chain → Relation → Relation
  | .start, r => r
  | .step r _ rest, _ => rest.firstRelation r

mutual

/-- Whether an element passes a test.  `scope` is the element that selection
started from, `start` the one a relative selector started from. -/
def Simple.matches (scope start : Element) : Simple → Element → Bool
  | .name space lower written, e => space == .any && e.tag.name == spelling e lower written
  | .anyName space, _ => space == .any
  | .id value, e => e.tag.value? "id" == some value
  | .class_ name, e =>
    e.tag.attributes.any fun a =>
      a.name == "class" && (Text.words a.value.toList).contains name.toList
  | .hasAttribute space lower written, e =>
    anyAttribute e space (spelling e lower written) fun _ => true
  | .attributeTest space lower written test value case, e =>
    let ignoreCase := match case with
      | .exact => false
      | .ignored => true
      | .ignoredOnHtml => isHtml e
    anyAttribute e space (spelling e lower written) fun actual =>
      test.holds ignoreCase actual value
  | .count c, e => c.holds e
  | .only ofType, e =>
    let count (fromEnd : Bool) : Count := { step := 0, start := 1, ofType, fromEnd }
    (count false).holds e && (count true).holds e
  | .root, e =>
    match e.above with
    | level :: _ => level.parent == .document
    | [] => false
  | .empty, e => isEmpty e
  | .scope, e => e.samePlace scope
  | .anchor, e => e.samePlace start
  | .never, _ => false
  | .not selectors, e => !anyMatches scope start selectors e
  | .any selectors, e => anyMatches scope start selectors e
  | .has selectors, e => hasMatch scope selectors e

def allMatch (scope start : Element) : List Simple → Element → Bool
  | [], _ => true
  | s :: rest, e => s.matches scope start e && allMatch scope start rest e

def Complex.matches (scope start : Element) : Complex → Element → Bool
  | .mk compound left, e => allMatch scope start compound e && left.matches scope start e

def Chain.matches (scope start : Element) : Chain → Element → Bool
  | .start, _ => true
  | .step relation compound rest, e =>
    (related relation e).any fun other =>
      allMatch scope start compound other && rest.matches scope start other

def anyMatches (scope start : Element) : List Complex → Element → Bool
  | [], _ => false
  | c :: rest, e => c.matches scope start e || anyMatches scope start rest e

/-- Some element that a relative selector reaches from `e` matches it. -/
def hasMatch (scope : Element) : List Complex → Element → Bool
  | [], _ => false
  | .mk compound left :: rest, e =>
    (reachable (left.firstRelation .ancestor) e).any (fun other =>
      allMatch scope e compound other && left.matches scope e other) || hasMatch scope rest e

end

/-- The elements inside an element that a list of selectors matches, in document
order. -/
def select (selectors : List Complex) (scope : Element) : List Element :=
  scope.descendants.filter (anyMatches scope scope selectors)

end BookRules.Css
