import BookRules.Finding.Evaluation
import BookRules.Source.Basic

/-!
# Fields of a page

The rules of a source are read from a page of its site.  A field without a rule,
or one whose rule finds nothing, is empty.
-/

namespace BookRules.Page

open Finding (Eval)

/-- What rules can look up on a page of a source. -/
def contextOf (source : Source) (url : String) : Context :=
  { source := { name := source.name, url := source.url }, baseUrl := url }

/-- The rule of a list, and whether its rows are reversed: a leading `-` says so,
and a leading `+` says nothing. -/
def listRule (rule : String) : String × Bool :=
  match rule.toList with
  | '-' :: rest => (String.ofList (Text.trimStart rest), true)
  | '+' :: rest => (String.ofList rest, false)
  | _ => (rule, false)

def text (node : Node) (field : Option String) : Eval String := do
  let rule := Source.rule field
  if rule.isEmpty then return ""
  return ((← Finding.string? node rule).map Text.trimmed).getD ""

/-- The address a field points at. -/
def url? (node : Node) (field : Option String) : Eval (Option String) := do
  let rule := Source.rule field
  if rule.isEmpty then return none
  Finding.url? node rule

/-- The addresses a field points at. -/
def urls (node : Node) (field : Option String) : Eval (List String) := do
  let rule := Source.rule field
  if rule.isEmpty then return []
  return (← Finding.urls? node rule).getD []

/-- Read fields with a context of their own. -/
def read {α : Type} (ctx : Context) (fields : Eval α) : α :=
  (fields.run { context := ctx }).1

end BookRules.Page
