import BookRules.Css.Token
import BookRules.Css.Selector

/-!
# Reading selectors

A list of selectors is separated by commas.  A selector is a sequence of
compounds with a combinator between any two, and a compound is an optional name
followed by tests.  A list with one faulty selector is refused as a whole, except
inside `:is` and `:where`, where a faulty selector matches nothing.
-/

namespace BookRules.Css

/-- Lower-case ASCII letters. -/
def lower (s : String) : String :=
  String.ofList (Text.lowerAscii s.toList)

def skipSpaces : List Token → List Token
  | .space :: rest => skipSpaces rest
  | ts => ts

/-- Attributes whose values are compared without case on HTML elements. -/
def caselessAttributes : List String :=
  ["accept", "accept-charset", "align", "alink", "axis", "bgcolor", "charset", "checked", "clear",
    "codetype", "color", "compact", "declare", "defer", "dir", "direction", "disabled", "enctype",
    "face", "frame", "hreflang", "http-equiv", "lang", "language", "link", "media", "method",
    "multiple", "nohref", "noresize", "noshade", "nowrap", "readonly", "rel", "rev", "rules",
    "scope", "scrolling", "selected", "shape", "target", "text", "type", "valign", "valuetype",
    "vlink"]

/-- A name with the vocabularies it is looked up in; no name stands for any. -/
structure QualifiedName where
  space : SpaceTest
  name? : Option String

/-- Read a name, which may stand behind a bar.  The outer option is empty on an
error, the inner one when there is no name. -/
def qualifiedName? (inBrackets : Bool) (ts : List Token) :
    Option (Option (QualifiedName × List Token)) :=
  let afterBar (space : SpaceTest) (ts : List Token) :
      Option (Option (QualifiedName × List Token)) :=
    match ts with
    | .ident n :: rest => some (some (⟨space, some n⟩, rest))
    | .delim '*' :: rest => if inBrackets then none else some (some (⟨space, none⟩, rest))
    | _ => none
  match ts with
  | .ident _ :: .delim '|' :: _ => none
  | .ident n :: rest =>
    some (some (⟨if inBrackets then .none else .any, some n⟩, rest))
  | .delim '*' :: .delim '|' :: rest => afterBar .any rest
  | .delim '*' :: rest => if inBrackets then none else some (some (⟨.any, none⟩, rest))
  | .delim '|' :: rest => afterBar .none rest
  | _ => some none

/-- The flag after the value of an attribute test. -/
def caseFlag? (name : String) (ts : List Token) : Option CaseRule :=
  match skipSpaces ts with
  | [] => some (if caselessAttributes.contains (lower name) then .ignoredOnHtml else .exact)
  | .ident flag :: rest =>
    if !(skipSpaces rest).isEmpty then none
    else if lower flag == "i" then some .ignored
    else if lower flag == "s" then some .exact
    else none
  | _ => none

/-- Read the inside of an attribute test. -/
def attributeTest? (ts : List Token) : Option Simple :=
  match qualifiedName? true (skipSpaces ts) with
  | some (some (⟨space, some name⟩, rest)) =>
    let withValue (test : ValueTest) (rest : List Token) : Option Simple :=
      match skipSpaces rest with
      | .ident value :: rest | .string value :: rest =>
        (caseFlag? name rest).map fun case =>
          .attributeTest space (lower name) name test value case
      | _ => none
    match skipSpaces rest with
    | [] => some (.hasAttribute space (lower name) name)
    | .delim '=' :: rest => withValue .equals rest
    | .matcher '~' :: rest => withValue .word rest
    | .matcher '|' :: rest => withValue .dash rest
    | .matcher '^' :: rest => withValue .front rest
    | .matcher '$' :: rest => withValue .back rest
    | .matcher '*' :: rest => withValue .part rest
    | _ => none
  | _ => none

/-- The start in a unit such as `n-3`. -/
def dashDigits? (unit : String) : Option Int :=
  match unit.toList with
  | n :: '-' :: digits =>
    if n.toLower == 'n' && !digits.isEmpty && digits.all Char.isDigit then
      some (Word.saturated32 (-(Decimal.valueOf digits : Int)))
    else none
  | _ => none

/-- A number without a sign, after the sign that stands on its own. -/
def unsigned? (sign : Int) (ts : List Token) : Option (Int × List Token) :=
  match skipSpaces ts with
  | .number (some b) false :: rest => some (sign * b, rest)
  | _ => none

/-- The start after `n`; zero when there is none. -/
def startAfter? (ts : List Token) : Option (Int × List Token) :=
  match skipSpaces ts with
  | .delim '+' :: rest => unsigned? 1 rest
  | .delim '-' :: rest => unsigned? (-1) rest
  | .number (some b) true :: rest => some (b, rest)
  | _ => some (0, ts)

/-- What follows a step that is written with the unit `unit`. -/
def stepped? (step : Int) (unit : String) (ts : List Token) :
    Option ((Int × Int) × List Token) :=
  if lower unit == "n" then (startAfter? ts).map fun (start, rest) => ((step, start), rest)
  else if lower unit == "n-" then
    (unsigned? (-1) ts).map fun (start, rest) => ((step, start), rest)
  else (dashDigits? unit).map fun start => ((step, start), ts)

/-- Read a step and a start, as in `2n+1`. -/
def stepAndStart? (ts : List Token) : Option ((Int × Int) × List Token) :=
  match skipSpaces ts with
  | .number (some b) _ :: rest => some ((0, b), rest)
  | .dimension (some step) unit :: rest => stepped? step unit rest
  | .ident word :: rest =>
    if lower word == "even" then some ((2, 0), rest)
    else if lower word == "odd" then some ((2, 1), rest)
    else match word.toList with
      | '-' :: unit => stepped? (-1) (String.ofList unit) rest
      | _ => stepped? 1 word rest
  | .delim '+' :: .ident unit :: rest => stepped? 1 unit rest
  | _ => none

/-- Read the argument of a pseudo-class that counts siblings. -/
def count? (ofType fromEnd : Bool) (ts : List Token) : Option Simple :=
  match stepAndStart? ts with
  | some ((step, start), rest) =>
    if (skipSpaces rest).isEmpty then some (.count { step, start, ofType, fromEnd }) else none
  | none => none

/-- The pseudo-classes without an argument. -/
def plainClass? (name : String) : Option Simple :=
  let first (ofType fromEnd : Bool) : Simple := .count { step := 0, start := 1, ofType, fromEnd }
  match lower name with
  | "first-child" => some (first false false)
  | "last-child" => some (first false true)
  | "only-child" => some (.only false)
  | "first-of-type" => some (first true false)
  | "last-of-type" => some (first true true)
  | "only-of-type" => some (.only true)
  | "root" => some .root
  | "empty" => some .empty
  | "scope" => some .scope
  | _ => none

mutual

/-- No broken token anywhere. -/
def Token.isSound : Token → Bool
  | .broken => false
  | .function _ inside => allSound inside
  | .group _ inside => allSound inside
  | _ => true

def allSound : List Token → Bool
  | [] => true
  | t :: rest => t.isSound && allSound rest

end

def Token.isComma : Token → Bool
  | .delim ',' => true
  | _ => false

/-- Read a combinator; white space alone stands for any depth. -/
def relation? (ts : List Token) : Option (Relation × List Token) :=
  match skipSpaces ts with
  | .delim '>' :: rest => some (.parent, rest)
  | .delim '+' :: rest => some (.previous, rest)
  | .delim '~' :: rest => some (.earlier, rest)
  | [] => none
  | rest =>
    match ts with
    | .space :: _ => some (.ancestor, rest)
    | _ => none

/-- Where a selector stands. -/
structure Place where
  /-- Inside `:has`, which cannot hold itself. -/
  inHas : Bool
  /-- The selector may start with a combinator. -/
  relative : Bool

mutual

/-- Read the tests of a compound. -/
def tests? (inHas : Bool) : Nat → List Token → Option (List Simple × List Token)
  | 0, _ => none
  | fuel + 1, ts =>
    let andThen (test : Option Simple) (rest : List Token) : Option (List Simple × List Token) := do
      let test ← test
      let (more, rest) ← tests? inHas fuel rest
      return (test :: more, rest)
    match ts with
    | .hash name true :: rest => andThen (some (.id name)) rest
    | .delim '.' :: .ident name :: rest => andThen (some (.class_ name)) rest
    | .delim '.' :: _ => none
    | .group '[' inside :: rest => andThen (attributeTest? inside) rest
    | .delim ':' :: .ident name :: rest => andThen (plainClass? name) rest
    | .delim ':' :: .function name inside :: rest =>
      andThen (functionalClass? inHas fuel (lower name) inside) rest
    | .delim ':' :: _ => none
    | _ => some ([], ts)

/-- Read the argument of a pseudo-class. -/
def functionalClass? (inHas : Bool) : Nat → String → List Token → Option Simple
  | 0, _, _ => none
  | fuel + 1, name, inside =>
    let parts := inside.splitOnP Token.isComma
    match name with
    | "nth-child" => count? false false inside
    | "nth-last-child" => count? false true inside
    | "nth-of-type" => count? true false inside
    | "nth-last-of-type" => count? true true inside
    | "is" | "where" => (forgiving? inHas fuel parts).map .any
    | "not" => (complexes? { inHas, relative := false } fuel parts).map .not
    | "has" =>
      if inHas then none
      else (complexes? { inHas := true, relative := true } fuel parts).map .has
    | "host" =>
      match complex? { inHas, relative := false } fuel inside with
      | some (.mk _ .start) => some .never
      | _ => none
    | _ => none

/-- Read a compound; it is not empty. -/
def compound? (inHas : Bool) : Nat → List Token → Option (List Simple × List Token)
  | 0, _ => none
  | fuel + 1, ts => do
    let named ← qualifiedName? false (skipSpaces ts)
    match named with
    | some (⟨space, name?⟩, rest) =>
      let (more, rest) ← tests? inHas fuel rest
      let first := match name? with
        | some n => Simple.name space (lower n) n
        | none => Simple.anyName space
      return (first :: more, rest)
    | none =>
      let (tests, rest) ← tests? inHas fuel (skipSpaces ts)
      if tests.isEmpty then none else return (tests, rest)

/-- Read compounds up to the end; `left` holds what was read. -/
def chain? (inHas : Bool) : Nat → Chain → List Token → Option Complex
  | 0, _, _ => none
  | fuel + 1, left, ts => do
    let (compound, rest) ← compound? inHas fuel ts
    match relation? rest with
    | some (relation, rest) => chain? inHas fuel (.step relation compound left) rest
    | none => if (skipSpaces rest).isEmpty then return .mk compound left else none

/-- Read one selector. -/
def complex? (place : Place) : Nat → List Token → Option Complex
  | 0, _ => none
  | fuel + 1, ts =>
    if place.relative then
      let (relation, rest) := match relation? (skipSpaces ts) with
        | some (relation, rest) => (relation, rest)
        | none => (.ancestor, ts)
      chain? place.inHas fuel (.step relation [.anchor] .start) rest
    else
      chain? place.inHas fuel .start ts

/-- Read the selectors of a list. -/
def complexes? (place : Place) : Nat → List (List Token) → Option (List Complex)
  | 0, _ => none
  | _ + 1, [] => some []
  | fuel + 1, part :: rest => do
    let selector ← complex? place fuel part
    let more ← complexes? place fuel rest
    return selector :: more

/-- Read the selectors of a list; a faulty one matches nothing. -/
def forgiving? (inHas : Bool) : Nat → List (List Token) → Option (List Complex)
  | 0, _ => none
  | _ + 1, [] => some []
  | fuel + 1, part :: rest => do
    let selector ← match complex? { inHas, relative := false } fuel part with
      | some selector => some selector
      | none => if allSound part then some (.mk [.never] .start) else none
    let more ← forgiving? inHas fuel rest
    return selector :: more

end

/-- Read a list of selectors.  A token is passed over at least once in six
calls, so the fuel does not run out. -/
def parse? (text : String) : Option (List Complex) :=
  complexes? { inHas := false, relative := false } (6 * text.length + 8)
    ((tokens text).splitOnP Token.isComma)

end BookRules.Css
