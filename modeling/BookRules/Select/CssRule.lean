import BookRules.Css.Parser
import BookRules.Error
import BookRules.Rule.Fragments
import BookRules.Select.Extraction
import BookRules.Select.IndexFilter

/-!
# Rules for pages

A rule is a combination of fragments.  A fragment is a chain of steps separated
by `@`: every step leads from an element to elements inside it, and the last one
says what to extract.  A rule that starts with `@css:` has selectors as
fragments instead, with the extraction behind the last `@`.

Steps are applied to each element on its own and the results are put one after
the other; a fragment with a faulty selector selects nothing.
-/

namespace BookRules.Select.CssRule

open BookRules.Markup (Element)
open BookRules.Rule

/-- The elements that a selector matches inside the elements of a scope. -/
def matching (scope : List Element) (selector : String) : Except RuleError (List Element) :=
  match Css.parse? selector with
  | some selectors => .ok (scope.flatMap (Css.select selectors))
  | none => .error (.invalidSelector selector)

/-- A character of a name that needs a backslash in a selector. -/
def needsEscape (first : Bool) (c : Char) : Bool :=
  c.toNat < 128 && (!(c.isAlphanum || c == '-' || c == '_') || (first && c.isDigit))

/-- A name as a selector writes it. -/
def escapeName (name : List Char) : List Char :=
  match name with
  | [] => []
  | c :: rest =>
    (if needsEscape true c then ['\\', c] else [c]) ++
      rest.flatMap fun c => if needsEscape false c then ['\\', c] else [c]

/-- The elements whose own text holds a text, up to case. -/
def containing (e : Element) (text : String) : List Element :=
  let wanted := (Unicode.lowerText text).toList
  e.descendants.filter fun inner =>
    Text.occursIn wanted (Unicode.lowerText inner.ownText).toList

/-- The elements a step without an index filter leads to. -/
def located (e : Element) (step : List Char) : Except RuleError (List Element) :=
  let step := Text.trim step
  if step.isEmpty || step == "children".toList then .ok e.childElements
  else
    let (kind, name) := (Text.cutAt? ['.'] step).getD ([], step)
    match String.ofList kind with
    | "class" =>
      match Text.words name with
      | [] => .ok []
      | classes => matching [e] (String.ofList (classes.flatMap fun c => '.' :: escapeName c))
    | "tag" => matching [e] (String.ofList name)
    | "id" => return (← matching [e] (String.ofList ('#' :: escapeName name))).take 1
    | "text" => .ok (containing e (String.ofList name))
    | _ => matching [e] (String.ofList step)

/-- The elements a step leads to from one element. -/
def resolve (step : String) (e : Element) : Except RuleError (List Element) := do
  let (selector, filter?) := IndexFilter.split step.toList
  let found ← located e selector
  return match filter? with
    | some filter => filter.apply found
    | none => found

/-- The elements a step leads to, element by element. -/
def follow (step : String) : List Element → Except RuleError (List Element)
  | [] => .ok []
  | e :: rest => return (← resolve step e) ++ (← follow step rest)

/-- The elements a chain of steps leads to. -/
def navigate (steps : List String) (scope : List Element) : Except RuleError (List Element) :=
  steps.foldlM (fun current step => follow step current) scope

/-- The steps of a chain. -/
def steps (fragment : String) : List String :=
  (Rule.split .rule ["@"] fragment).fragments

/-- The elements a fragment selects. -/
def fragmentElements (literal : Bool) (scope : List Element) (fragment : String) :
    Except RuleError (List Element) :=
  if literal then matching scope (Text.trimmed fragment) else navigate (steps fragment) scope

/-- A selector and the extraction behind its last `@`.  An `@` inside quotes,
brackets or parentheses belongs to the selector. -/
def splitLiteral (fragment : String) : String × Extraction :=
  let whole := (Text.trimmed fragment, Extraction.text)
  match Text.cutAtLast? '@' fragment.toList with
  | some (selector, word) =>
    if word.any fun c => c == ']' || c == '\'' || c == '"' || c == ')' then whole
    else (String.ofList (Text.trim selector), .ofWord (String.ofList word))
  | none => whole

/-- The texts a fragment extracts. -/
def fragmentStrings (literal : Bool) (scope : List Element) (fragment : String) :
    Except RuleError (List String) := do
  if literal then
    let (selector, extraction) := splitLiteral fragment
    let elements ← if selector.isEmpty then pure scope else matching scope selector
    return extraction.apply elements
  else
    let chain := steps fragment
    let elements ← navigate chain.dropLast scope
    return (Extraction.ofWord (chain.getLast?.getD "")).apply elements

/-- What a fragment gives, nothing when it is faulty. -/
def orNothing {α : Type} (found : Except RuleError (List α)) : List α :=
  match found with
  | .ok items => items
  | .error _ => []

/-- The mark of a rule with selectors as fragments. -/
def literalMark : String :=
  "@css:"

/-- Whether fragments are selectors, and the rule without its mark. -/
def body (rule : String) : Bool × String :=
  match Text.stripFrontNoCase? literalMark.toList rule.toList with
  | some rest => (true, String.ofList (Text.trim rest))
  | none => (false, Text.trimmed rule)

/-- The elements a rule selects. -/
def elements (scope : List Element) (rule : String) : List Element :=
  let (literal, text) := body rule
  let parts := Rule.split .rule Combinator.tokens text
  parts.kind.merge (fun fragment => orNothing (fragmentElements literal scope fragment))
    parts.fragments

/-- The texts a rule extracts. -/
def strings (scope : List Element) (rule : String) : List String :=
  let (literal, text) := body rule
  let parts := Rule.split .rule Combinator.tokens text
  parts.kind.merge (fun fragment => orNothing (fragmentStrings literal scope fragment))
    parts.fragments

end BookRules.Select.CssRule
