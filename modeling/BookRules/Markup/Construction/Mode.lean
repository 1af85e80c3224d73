import BookRules.Markup.Construction.Formatting

/-!
# Finding the mode

The open elements say in which mode the construction goes on when an element
that had a mode of its own is closed.  Some elements hold only text; they are
read in a state of their own.
-/

namespace BookRules.Markup

namespace Builder

/-- The mode that the open elements call for; `rest` are the ones further out. -/
def modeFor (b : Builder) : List Nat → Mode
  | [] => .inBody
  | id :: rest =>
    let name := b.slots.name id
    let last := rest.isEmpty
    if name.vocabulary != .html then modeFor b rest
    else match name.text with
      | "select" =>
        let outer := rest.find? fun i => (b.slots.name i).isHtmlIn ["template", "table"]
        match outer with
        | some i => if (b.slots.name i).isHtml "table" then .inSelectInTable else .inSelect
        | none => .inSelect
      | "td" | "th" => if last then modeFor b rest else .inCell
      | "tr" => .inRow
      | "tbody" | "thead" | "tfoot" => .inTableBody
      | "caption" => .inCaption
      | "colgroup" => .inColumnGroup
      | "table" => .inTable
      | "template" => b.templateModes.headD .inBody
      | "head" => if last then modeFor b rest else .inHead
      | "body" => .inBody
      | "frameset" => .inFrameset
      | "html" => if b.head.isNone then .beforeHead else .afterHead
      | _ => modeFor b rest

def resetMode : Build Mode := do
  let b ← get
  return b.modeFor b.openElements

/-- Read the text of an element in a state of its own. -/
def readTextOf (t : TagToken) (state : TextState) : Build Outcome := do
  insertHtml t
  modify fun b => { b with textState := state, returnMode := b.mode, mode := .text }
  return .done

/-- An input that is not shown. -/
def isHidden (t : TagToken) : Bool :=
  t.attributes.any fun (name, value) =>
    name == "type" && Text.lowerAscii value.toList == "hidden".toList

/-- Open an element of another vocabulary. -/
def insertForeign (t : TagToken) (vocabulary : Vocabulary) (adjustName : Bool) :
    Build Outcome := do
  let tag := t.element vocabulary adjustName
  if t.selfClosing then
    let _ ← insertLeaf tag
  else
    let _ ← insertOpen tag
  return .done

end Builder

end BookRules.Markup
