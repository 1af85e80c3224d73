import BookRules.Json.Parser
import BookRules.Json.Printer
import BookRules.Markup.Page
import BookRules.Markup.Printer

/-!
# Nodes

What a rule is evaluated against: an element of a page, a JSON value, the
groups of a regular expression, or plain text that is read as a page or as JSON
when a rule needs its structure.
-/

namespace BookRules

inductive Node
  | element (e : Markup.Element)
  | json (doc : Json)
  /-- The whole match and its groups. -/
  | groups (texts : List String)
  | text (content : String)

instance : Inhabited Node := ⟨.text ""⟩

namespace Node

/-- The page a text stands for. -/
def ofHtml (text : String) : Node :=
  .element (Markup.Element.ofPage text)

/-- Text that starts like a JSON object or array. -/
def startsLikeJson (text : String) : Bool :=
  match Text.trimStart text.toList with
  | '\x7b' :: _ | '[' :: _ => true
  | _ => false

/-- Read a text: as JSON when it starts like an object or an array and is one,
as a page otherwise. -/
def parse (text : String) : Node :=
  if startsLikeJson text then
    match Json.parse? (Text.trimStart text.toList) with
    | some doc => .json doc
    | none => ofHtml text
  else ofHtml text

def isJson : Node → Bool
  | .json _ => true
  | _ => false

def toText : Node → String
  | .element e => e.outerHtml
  | .json doc => doc.shown?.getD ""
  | .groups texts => texts.headD ""
  | .text content => content

/-- Read plain text, leave other nodes. -/
def structured : Node → Node
  | .text content => parse content
  | node => node

/-- The element that rules for pages start from. -/
def page : Node → Markup.Element
  | .element e => e
  | node => Markup.Element.ofPage node.toText

/-- The value that rules for JSON start from; text that is no JSON counts as a
string. -/
def value : Node → Json
  | .json doc => doc
  | .groups texts => .array (texts.map .string)
  | node => (Json.parse? (Text.trim node.toText.toList)).getD (.string node.toText)

end Node

end BookRules
