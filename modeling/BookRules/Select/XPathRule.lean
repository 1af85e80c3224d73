import BookRules.Word
import BookRules.Select.CssRule
import BookRules.Text.Span

/-!
# Location paths

Simple location paths are read as selectors: `//div[@id='x']/a` is
`div#x > a`.  A path may end in an extraction, `text()`, `node()` or `@name`, and
may skip matches with `[position() > n]`.  A path with anything else in it is
tried as a rule of its own in the syntax for pages.

The predicates of a step are replaced one kind after the other, each over the
whole step.
-/

namespace BookRules.Select.XPathRule

open BookRules.Markup (Element)
open BookRules.Rule

/-- A location path as a selector. -/
structure Location where
  selector : String
  /-- The word for the extraction. -/
  extract? : Option String
  /-- The number of matches that are left out. -/
  skip : Nat
  deriving DecidableEq, Repr

/-- A step, and whether any number of levels may lie before it. -/
structure Segment where
  anyDepth : Bool
  text : List Char
  deriving DecidableEq, Repr

/-- What the scan of a path has seen: the open brackets and the open quote. -/
structure Nesting where
  depth : Nat := 0
  quote? : Option Char := none

namespace Nesting

/-- A slash separates steps here. -/
def isTop (nesting : Nesting) : Bool :=
  nesting.depth == 0 && nesting.quote?.isNone

def after (nesting : Nesting) (c : Char) : Nesting :=
  match nesting.quote? with
  | some quote => if c == quote then { nesting with quote? := none } else nesting
  | none =>
    if isQuote c then { nesting with quote? := some c }
    else if c == '[' then { nesting with depth := nesting.depth + 1 }
    else if c == ']' then { nesting with depth := nesting.depth - 1 }
    else nesting

end Nesting

/-- The segment that was read, unless it is empty; `read` is in reverse. -/
def finished (anyDepth : Bool) (read : List Char) : List Segment :=
  if read.isEmpty then [] else [⟨anyDepth, read.reverse⟩]

/-- Cut a path at its slashes outside brackets and quotes. -/
def segmentsFrom (nesting : Nesting) (anyDepth : Bool) (read : List Char) :
    List Char → List Segment
  | [] => finished anyDepth read
  | '/' :: '/' :: rest =>
    if nesting.isTop then finished anyDepth read ++ segmentsFrom nesting true [] rest
    else segmentsFrom nesting anyDepth ('/' :: '/' :: read) rest
  | c :: rest =>
    if c == '/' && nesting.isTop then
      finished anyDepth read ++ segmentsFrom nesting false [] rest
    else segmentsFrom (nesting.after c) anyDepth (c :: read) rest

def segments (path : List Char) : List Segment :=
  segmentsFrom {} false [] path

/-- Read one character out of a class. -/
def one? (accept : Char → Bool) : List Char → Option (List Char)
  | c :: rest => if accept c then some rest else none
  | [] => none

def this? (c : Char) : List Char → Option (List Char) :=
  one? (· == c)

def spaces (cs : List Char) : List Char :=
  cs.dropWhile Text.isBlank

/-- Read the name of an attribute. -/
def name? : List Char → Option (List Char × List Char)
  | c :: rest =>
    if c.isAlpha || c == '_' then
      let more (d : Char) := Unicode.isWord d.toNat || d == '-'
      some (c :: rest.takeWhile more, rest.dropWhile more)
    else none
  | [] => none

/-- Read a text in quotes of either kind. -/
def quotedText? (cs : List Char) : Option (List Char × List Char) := do
  let rest ← one? isQuote cs
  let after ← one? isQuote (rest.dropWhile fun c => !isQuote c)
  return (rest.takeWhile fun c => !isQuote c, after)

/-- Read `[@name`. -/
def bracketName? (cs : List Char) : Option (List Char × List Char) := do
  name? (← this? '@' (← this? '[' cs))

/-- Read `[@name = 'value']`. -/
def attributeEquals? (cs : List Char) : Option ((List Char × List Char) × List Char) := do
  let (name, rest) ← bracketName? cs
  let (value, rest) ← quotedText? (spaces (← this? '=' (spaces rest)))
  return ((name, value), ← this? ']' rest)

/-- A test of one attribute with a value, read after the name is known. -/
def named? (wanted : List Char) (cs : List Char) : Option (List Char × List Char) := do
  let rest ← Text.stripFront? ('[' :: '@' :: wanted) cs
  let (value, rest) ← quotedText? (spaces (← this? '=' (spaces rest)))
  if value.isEmpty then none else return (value, ← this? ']' rest)

def classTest : Text.Recogniser := fun cs => do
  let (value, rest) ← named? "class".toList cs
  return ((Text.words value).flatMap ('.' :: ·), rest)

def idTest : Text.Recogniser := fun cs => do
  let (value, rest) ← named? "id".toList cs
  return ('#' :: value, rest)

/-- An attribute test in the syntax of selectors. -/
def valueTest (name operator value : List Char) : List Char :=
  '[' :: name ++ operator ++ '"' :: value ++ ['"', ']']

def containsTest : Text.Recogniser := fun cs => do
  let rest ← Text.stripFront? "[contains".toList cs
  let rest ← this? '@' (spaces (← this? '(' (spaces rest)))
  let (name, rest) ← name? rest
  let (value, rest) ← quotedText? (spaces (← this? ',' (spaces rest)))
  if value.isEmpty then none
  else return (valueTest name ['*', '='] value, ← this? ']' (← this? ')' (spaces rest)))

def equalsTest : Text.Recogniser := fun cs => do
  let ((name, value), rest) ← attributeEquals? cs
  return (valueTest name ['='] value, rest)

def presenceTest : Text.Recogniser := fun cs => do
  let (name, rest) ← bracketName? cs
  return ('[' :: name ++ [']'], ← this? ']' rest)

/-- Read `()`. -/
def call? (cs : List Char) : Option (List Char) := do
  this? ')' (spaces (← this? '(' (spaces cs)))

def lastTest : Text.Recogniser := fun cs => do
  let rest ← Text.stripFront? "last".toList (spaces (← this? '[' cs))
  return (":last-of-type".toList, ← this? ']' (spaces (← call? rest)))

/-- Read one or more digits of any script. -/
def digits? (cs : List Char) : Option (List Char × List Char) :=
  let isDigit (c : Char) := Unicode.isDecimal c.toNat
  let digits := cs.takeWhile isDigit
  if digits.isEmpty then none else some (digits, cs.dropWhile isDigit)

/-- A position in the syntax of selectors. -/
def nthOfType (digits : List Char) : List Char :=
  ":nth-of-type(".toList ++ digits ++ [')']

def positionTest : Text.Recogniser := fun cs => do
  let (digits, rest) ← digits? (spaces (← this? '[' cs))
  return (nthOfType digits, ← this? ']' (spaces rest))

/-- The number of matches to leave out, as the replacement of its predicate. -/
def skipTest : Text.Recogniser := fun cs => do
  let rest ← Text.stripFront? "position".toList (spaces (← this? '[' cs))
  let (digits, rest) ← digits? (spaces (← this? '>' (spaces (← call? rest))))
  return (digits, ← this? ']' (spaces rest))

/-- The tests on positions that selectors know. -/
def knownTest : Text.Recogniser := fun cs =>
  match Text.stripFront? ":last-of-type".toList cs with
  | some rest => some ([], rest)
  | none => do
    let rest ← Text.stripFront? ":nth-of-type(".toList cs
    let (_, rest) ← digits? rest
    return ([], ← this? ')' rest)

/-- A step as a compound selector; nothing when it holds more than names and the
known predicates. -/
def compound? (segment : List Char) : Option (List Char) :=
  if Text.occursIn [':', ':'] segment then none
  else
    let step := Text.trim segment
    let step := match step with
      | '*' :: '[' :: rest => '[' :: rest
      | _ => step
    let simplified :=
      [classTest, idTest, containsTest, equalsTest, presenceTest, lastTest, positionTest].foldl
        (fun cs test => Text.replaceSpans test cs) step
    let residue := Text.replaceSpans knownTest simplified
    if residue.any fun c => c == '(' || c == ')' || c == '@' || c == '|' then none
    else some simplified

/-- The largest number of matches that can be left out. -/
def skipMax : Nat :=
  Word.range64 - 1

/-- The number of matches a step leaves out, if it says so, and the step without
that. -/
def splitSkip (segment : List Char) : Option Nat × List Char :=
  match Text.firstSpan? skipTest segment with
  | none => (none, segment)
  | some digits =>
    (some (((Decimal.natural? digits).filter (· ≤ skipMax)).getD 0),
      Text.replaceSpans (fun cs => (skipTest cs).map fun (_, rest) => ([], rest)) segment)

/-- The extraction a last segment stands for. -/
def extraction? (segment : List Char) : Option String :=
  if segment = "text()".toList then some "text"
  else if segment = "node()".toList then some "html"
  else match segment with
    | '@' :: name => some (String.ofList name)
    | _ => none

/-- The selector of the segments, and the number of matches they leave out. -/
def selectorOf (path : String) : Bool → Nat → List Segment →
    Except RuleError (List Char × Nat)
  | _, skip, [] => .ok ([], skip)
  | first, skip, segment :: rest =>
    let (more?, step) := splitSkip segment.text
    match compound? step with
    | none => .error (.xpathStep (String.ofList step) path)
    | some compound => do
      let between := if first then [] else if segment.anyDepth then [' '] else " > ".toList
      let (more, skip) ← selectorOf path false (more?.getD skip) rest
      return (between ++ compound ++ more, skip)

/-- The path without the slashes it starts with. -/
def relative (path : List Char) : List Char :=
  match path with
  | '.' :: '/' :: '/' :: rest => rest
  | '/' :: '/' :: rest => rest
  | '.' :: '/' :: rest => rest
  | '/' :: rest => rest
  | _ => path

/-- Read a location path. -/
def locate (path : String) : Except RuleError Location :=
  let body := relative (Text.trim path.toList)
  if body.isEmpty then .error (.emptyXPath path)
  else
    let all := segments body
    let extract? := (all.getLast?).bind fun segment => extraction? segment.text
    let steps := if extract?.isSome then all.dropLast else all
    match selectorOf path true 0 steps with
    | .error e => .error e
    | .ok (selector, skip) =>
      if (Text.trim selector).isEmpty then .error (.xpathWithoutElements path)
      else .ok { selector := String.ofList selector, extract?, skip }

def locatedElements (scope : List Element) (location : Location) : List Element :=
  (CssRule.elements scope (CssRule.literalMark ++ location.selector)).drop location.skip

/-- The elements a fragment selects. -/
def fragmentElements (scope : List Element) (fragment : String) : List Element :=
  match locate fragment with
  | .ok location => locatedElements scope location
  | .error _ => CssRule.elements scope fragment

/-- The texts a fragment extracts; without an extraction, the text of the
elements. -/
def fragmentStrings (scope : List Element) (fragment : String) : List String :=
  match locate fragment with
  | .ok location =>
    CssRule.strings (locatedElements scope location)
      (CssRule.literalMark ++ "@" ++ location.extract?.getD "text")
  | .error _ => CssRule.strings scope fragment

/-- The elements a rule selects. -/
def elements (scope : List Element) (rule : String) : List Element :=
  let parts := Rule.split .rule Combinator.tokens rule
  parts.kind.merge (fragmentElements scope) parts.fragments

/-- The texts a rule extracts. -/
def strings (scope : List Element) (rule : String) : List String :=
  let parts := Rule.split .rule Combinator.tokens rule
  parts.kind.merge (fragmentStrings scope) parts.fragments

end BookRules.Select.XPathRule
