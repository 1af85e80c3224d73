import BookRules.Node
import BookRules.Script.Snippet

/-!
# What a stage finds

The value that goes from one stage of a rule to the next: a node, nodes, a text
or a list of texts.
-/

namespace BookRules.Finding

inductive Found
  | node (n : Node)
  | nodes (ns : List Node)
  | text (s : String)
  | list (items : List String)

instance : Inhabited Found := ⟨.text ""⟩

/-- How the result of a rule is used. -/
inductive Shape
  /-- One text. -/
  | string
  /-- A list of texts. -/
  | list
  /-- Nodes to read further fields from. -/
  | elements
  deriving DecidableEq, Repr

namespace Found

/-- Nothing was found. -/
def empty : Found :=
  .text ""

def toText : Found → String
  | .node n => n.toText
  | .nodes ns => "\n".intercalate (ns.map Node.toText)
  | .text s => s
  | .list items => "\n".intercalate items

/-- As one node; all but a node become plain text. -/
def toNode : Found → Node
  | .node n => n
  | found => .text found.toText

/-- The nodes that a selector starts from.  A text that is a JSON array gives
its items. -/
def toNodes : Found → List Node
  | .node n => [n.structured]
  | .nodes ns => ns.map Node.structured
  | .text s =>
    match Node.parse s with
    | .json (.array items) => items.map .json
    | n => [n]
  | .list items => items.map Node.parse

/-- The texts that are not empty; a text gives its lines. -/
def toList (found : Found) : List String :=
  let items := match found with
    | .node n => [n.toText]
    | .nodes ns => ns.map Node.toText
    | .text s => (s.toList.splitOnP (· == '\n')).map String.ofList
    | .list items => items
  items.filter fun item => !item.isEmpty

/-- As the value at hand of a script. -/
def toInput : Found → Script.Input
  | .node (.json doc) => .json doc
  | .node (.groups texts) => .list texts
  | .node n => .text n.toText
  | .nodes ns => .list (ns.map Node.toText)
  | .text s => .text s
  | .list items => .list items

def ofOutput : Script.Output → Found
  | .text s => .text s
  | .list items => .list items

end Found

end BookRules.Finding
