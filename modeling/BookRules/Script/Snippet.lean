import BookRules.Context
import BookRules.Script.Evaluation

/-!
# Snippets

A snippet is a script inside a rule.  It sees the value at hand as `result`, which
it may change, and the address, the book's name and its author as constants;
`get` looks names up in the context.  A snippet that fails in any way has no
result, and neither has one whose value is nothing.
-/

namespace BookRules.Script

/-- The value at hand. -/
inductive Input
  | nothing
  | text (s : String)
  | list (items : List String)
  | json (doc : Json)

/-- The result of a snippet. -/
inductive Output
  | text (s : String)
  | list (items : List String)
  deriving DecidableEq, Repr

def Input.value : Input → Value
  | .nothing => .unit
  | .text s => .text s
  | .list items => .list (items.map .text)
  | .json doc => .ofJson doc

/-- Items of a list that are nothing are left out. -/
def Output.ofValue? : Value → Option Output
  | .list items => some (.list (items.filterMap Value.resultText?))
  | v => v.resultText?.map .text

/-- The variables of a snippet. -/
def snippetScope (input : Input) (ctx : Context) : List Slot :=
  [{ name := "bookAuthor", value := .text ctx.book.author, constant := true },
    { name := "bookName", value := .text ctx.book.name, constant := true },
    { name := "baseUrl", value := .text ctx.baseUrl, constant := true },
    { name := "result", value := input.value }]

/-- The result of a snippet. -/
def runSnippet (source : String) (input : Input) (ctx : Context) : Option Output := do
  let program ← Program.parse? source
  let v ← program.run ctx.getOrEmpty (snippetScope input ctx)
  Output.ofValue? v

end BookRules.Script
