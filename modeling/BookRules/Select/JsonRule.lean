import BookRules.Json.PathParser
import BookRules.Json.Printer
import BookRules.Rule.Fragments
import BookRules.Rule.Balanced

/-!
# JSON rules

A JSON rule is a combination of fragments.  A fragment is a path, or a template
in which every `{$...}` stands for the text of a path.  Arrays among the
matches of a path count as their items.  A fragment with a malformed path
selects nothing.
-/

namespace BookRules.Select.JsonRule

open BookRules.Rule

/-- Replace each array by its items. -/
def flatten (values : List Json) : List Json :=
  values.flatMap fun
    | .array items => items
    | value => [value]

/-- The matches of a path, arrays taken apart. -/
def flatQuery (doc : Json) (path : String) : Except RuleError (List Json) := do
  return flatten (Json.query (← Json.Path.parse path) doc)

/-- The matches of a path, none when the path is malformed. -/
def flatMatches (doc : Json) (path : String) : List Json :=
  match flatQuery doc path with
  | .ok values => values
  | .error _ => []

/-- The values a rule selects. -/
def values (doc : Json) (rule : String) : List Json :=
  let parts := Rule.split .script Combinator.tokens rule
  parts.kind.merge (flatMatches doc) parts.fragments

/-- The start of a path inside a template. -/
def templateMark : String :=
  "\x7b$."

/-- The texts a rule selects.  The rules inside templates are shorter than the
rule, so `fuel` above its length never runs out. -/
def stringsWith (doc : Json) : Nat → String → List String
  | 0, _ => []
  | fuel + 1, rule =>
    let parts := Rule.split .script Combinator.tokens rule
    parts.kind.merge (fun fragment =>
      match (Rule.substitute fragment templateMark fun path =>
          some ("\n".intercalate (stringsWith doc fuel path))).1 with
      | some text => [text]
      | none => (flatMatches doc fragment).filterMap Json.shown?) parts.fragments

/-- The texts a rule selects. -/
def strings (doc : Json) (rule : String) : List String :=
  stringsWith doc (rule.length + 1) rule

end BookRules.Select.JsonRule
