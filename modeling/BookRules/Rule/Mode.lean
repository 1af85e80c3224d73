import BookRules.Text.Blank
import BookRules.Text.Occurrence

/-!
# Modes

The mode of a rule says what evaluates it.  A prefix such as `@json:` names the
mode; without one it follows from what the rule is applied to and from the first
characters of the rule.
-/

namespace BookRules.Rule

/-- What evaluates a stage of a rule. -/
inductive Mode
  | css
  | xpath
  | jsonPath
  | script
  /-- Text with placeholders; the text is the result. -/
  | template
  deriving DecidableEq, Repr

/-- What a rule is applied to. -/
inductive Content
  /-- A page or plain text. -/
  | markup
  | json
  /-- The groups of a regular expression. -/
  | groups
  deriving DecidableEq, Repr

namespace Mode

/-- The mode of a rule, and the rule without its prefix.  The prefix `@css:`
stays, because it changes how the rule is read. -/
def detect (content : Content) (rule : List Char) : Mode × List Char :=
  if content = .groups then (.template, rule)
  else if (Text.stripFrontNoCase? "@css:".toList rule).isSome then (.css, rule)
  else match Text.stripFront? "@@".toList rule with
  | some rest => (.css, rest)
  | none =>
    match Text.stripFrontNoCase? "@xpath:".toList rule with
    | some rest => (.xpath, rest)
    | none =>
      match Text.stripFrontNoCase? "@json:".toList rule with
      | some rest => (.jsonPath, rest)
      | none =>
        match content, rule with
        | .json, _ => (.jsonPath, rule)
        | _, '$' :: '.' :: _ => (.jsonPath, rule)
        | _, '$' :: '[' :: _ => (.jsonPath, rule)
        | _, '/' :: _ => (.xpath, rule)
        | _, _ => (.css, rule)

end Mode

/-- The body of a placeholder is a rule rather than a script. -/
def looksLikeRule (body : List Char) : Bool :=
  match Text.trimStart body with
  | '@' :: _ => true
  | '$' :: '.' :: _ => true
  | '$' :: '[' :: _ => true
  | '/' :: '/' :: _ => true
  | _ => false

end BookRules.Rule
