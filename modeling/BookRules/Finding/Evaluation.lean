import BookRules.Context
import BookRules.Finding.Found
import BookRules.Limits
import BookRules.Rule.Cache
import BookRules.Select.RowPattern
import BookRules.Select.Selection
import BookRules.Url.Reference

/-!
# Evaluation of rules

A rule is evaluated stage by stage.  Each stage first binds its variables, then
replaces its placeholders, then finds its value in the value of the stage before
it, and last applies its replacement.  A stage that fails finds nothing, and the
stages behind it go on from there.

Rules inside a rule are evaluated one level deeper, and evaluation stops at a
fixed depth.  They are evaluated against the node that is bound; the rule of a
variable is evaluated against the value of its stage instead, which is bound as
long as that takes.
-/

namespace BookRules.Finding

/-- What evaluation works on and may change. -/
structure Session where
  context : Context
  /-- The pipelines that are remembered. -/
  cache : Rule.Cache := {}
  /-- The node that is bound. -/
  content : Node := .text ""
  /-- How many rules are being evaluated. -/
  depth : Nat := 0

abbrev Eval := StateM Session

def bindContent (node : Node) : Eval Unit :=
  modify fun s => { s with content := node }

/-- Bind a node as long as something is evaluated. -/
def withContent {α : Type} (node : Node) (body : Eval α) : Eval α := do
  let saved := (← get).content
  bindContent node
  let a ← body
  bindContent saved
  return a

/-- Texts that look like JSON are read as JSON. -/
def looksLikeJson (text : String) : Bool :=
  Node.startsLikeJson text && (Json.parse? (Text.trimStart text.toList)).isSome

/-- What a rule is applied to. -/
def contentOf : Node → Rule.Content
  | .json _ => .json
  | .groups _ => .groups
  | .text s => if looksLikeJson s then .json else .markup
  | .element _ => .markup

/-- A found text, unless it is empty. -/
def Found.text? (found : Found) : Option String :=
  let s := found.toText
  if s.isEmpty then none else some s

/-- What a script finds. -/
def runScript (source : String) (input : Found) : Eval (Option Found) := do
  return (Script.runSnippet source input.toInput (← get).context).map Found.ofOutput

/-- What a rule without placeholders and replacement finds. -/
def find (mode : Rule.Mode) (rule : String) (shape : Shape) (input : Found) : Eval Found := do
  match mode with
  | .script => return (← runScript rule input).getD .empty
  | .template => return .text rule
  | mode =>
    let from_ := input.toNodes
    return match shape with
      | .elements => .nodes (from_.flatMap (Select.nodes mode rule))
      | .list => .list (from_.flatMap (Select.strings mode rule))
      | .string => .text ("\n".intercalate (from_.flatMap (Select.strings mode rule)))

/-- The text of a rule inside a rule, read from the node that is bound. -/
abbrev Nested := String → Eval (Option String)

/-- Bind variables; a rule that finds nothing stands for itself. -/
def bindVariables (nested : Nested) (bindings : Bindings) (input : Found) : Eval Unit :=
  bindings.forM fun (name, rule) => do
    let value ← withContent input.toNode (nested rule)
    modify fun s => { s with context := s.context.put name (value.getD rule) }

/-- The text that stands for a segment. -/
def segmentText (nested : Nested) (input : Found) : Rule.Segment → Eval String
  | .literal text => return text
  | .variable name => return (← get).context.getOrEmpty name
  | .rule body => return (← nested body).getD ""
  | .script source => return ((← runScript source input).map Found.toText).getD ""
  | .group index =>
    return match input with
      | .node (.groups texts) => texts[index]?.getD ""
      | _ => "$" ++ toString index

/-- A text with its placeholders replaced. -/
def fill (nested : Nested) (input : Found) (segments : List Rule.Segment) : Eval String := do
  return String.join (← segments.mapM (segmentText nested input))

/-- The rule and the replacement of a stage, its placeholders replaced. -/
def resolve (nested : Nested) (stage : Rule.Stage) (input : Found) : Eval Rule.Replacing := do
  if stage.isTemplate then
    return Rule.splitReplacement (← fill nested input stage.segments).toList
  else
    return { rule := stage.expression, pattern := stage.pattern,
             replacement := stage.replacement, firstOnly := stage.firstOnly }

/-- Apply a replacement: to each item of a list, or to the text. -/
def replaced (parts : Rule.Replacing) (shape : Shape) (found : Found) : Found :=
  let replace (s : String) : String :=
    Rule.replace s parts.pattern parts.replacement parts.firstOnly
  if parts.pattern.isEmpty || shape = .elements then found
  else
    match shape, found with
    | .list, .list items => .list (items.map replace)
    | _, found => .text (replace found.toText)

/-- What a stage finds in the value of the stage before it.  A stage that only
replaces keeps that value. -/
def runStage (nested : Nested) (shape : Shape) (input : Found) (stage : Rule.Stage) :
    Eval Found := do
  bindVariables nested stage.bindings input
  let parts ← resolve nested stage input
  let found ←
    if parts.rule.isEmpty && !parts.pattern.isEmpty then pure input
    else find stage.mode parts.rule shape input
  return replaced parts shape found

/-- What a rule finds in the node that is bound; nothing for a blank rule, and
nothing when rules are nested too deep.  The nesting is bounded, so
`Limits.ruleDepth` units of `fuel` never run out. -/
def run : Nat → Shape → String → Eval (Option Found)
  | 0, _, _ => return none
  | fuel + 1, shape, rule => do
    let s ← get
    if Limits.ruleDepth ≤ s.depth || Text.isBlankText rule then return none
    let (remembered, cache) := s.cache.fetch (contentOf s.content) rule
    set { s with cache, depth := s.depth + 1 }
    let nested : Nested := fun body => return (← run fuel .string body).bind Found.text?
    let found ← remembered.stages.foldlM (runStage nested shape) (.node s.content)
    modify fun s => { s with depth := s.depth - 1 }
    return some found

/-- An address resolved against the address of the page; one that cannot be
resolved stays as it is. -/
def resolved (base address : String) : String :=
  match Url.absolute base address with
  | .ok url => url
  | .error _ => address

/-- The address of the page, if there is one. -/
def pageUrl? (ctx : Context) : Option String :=
  if ctx.baseUrl.isEmpty then none else some ctx.baseUrl

namespace Bound

/-- What a rule finds in the node that is bound. -/
def find (shape : Shape) (rule : String) : Eval (Option Found) :=
  run Limits.ruleDepth shape rule

/-- The text a rule finds, if it is not empty. -/
def string? (rule : String) : Eval (Option String) := do
  return (← find .string rule).bind Found.text?

/-- The texts a rule finds, if there are any. -/
def strings? (rule : String) : Eval (Option (List String)) := do
  let items := ((← find .list rule).map Found.toList).getD []
  return if items.isEmpty then none else some items

/-- The nodes a rule finds.  A rule that starts with a colon cuts the text of the
node into rows. -/
def elements (rule : String) : Eval (List Node) := do
  match Text.trim rule.toList with
  | ':' :: patterns =>
    return match Select.RowPattern.rows (← get).content.toText (String.ofList patterns) with
      | .ok rows => rows
      | .error _ => []
  | rule =>
    match ← find .elements (String.ofList rule) with
    | some (.nodes ns) => return ns
    | some found => return found.toNodes
    | none => return []

/-- The first address a rule finds; for a blank rule the address of the page. -/
def url? (rule : String) : Eval (Option String) := do
  if Text.isBlankText rule then return pageUrl? (← get).context
  let items ← strings? rule
  let base := (← get).context.baseUrl
  return (items.bind List.head?).map fun item => resolved base (Text.trimmed item)

/-- The addresses a rule finds, each once; for a blank rule the address of the
page. -/
def urls? (rule : String) : Eval (Option (List String)) := do
  if Text.isBlankText rule then return (pageUrl? (← get).context).map fun url => [url]
  let items ← strings? rule
  let base := (← get).context.baseUrl
  return items.map fun items =>
    (items.map fun item => resolved base (Text.trimmed item)).eraseDups

end Bound

/-- Bind a node and read the text a rule finds. -/
def string? (content : Node) (rule : String) : Eval (Option String) := do
  bindContent content
  Bound.string? rule

/-- Bind a node and read the texts a rule finds. -/
def strings? (content : Node) (rule : String) : Eval (Option (List String)) := do
  bindContent content
  Bound.strings? rule

/-- Bind a node and read the nodes a rule finds. -/
def elements (content : Node) (rule : String) : Eval (List Node) := do
  bindContent content
  Bound.elements rule

/-- Bind a node and read the first address a rule finds. -/
def url? (content : Node) (rule : String) : Eval (Option String) := do
  bindContent content
  Bound.url? rule

/-- Bind a node and read the addresses a rule finds. -/
def urls? (content : Node) (rule : String) : Eval (Option (List String)) := do
  bindContent content
  Bound.urls? rule

end BookRules.Finding
