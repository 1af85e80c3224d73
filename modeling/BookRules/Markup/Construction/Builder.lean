import BookRules.Markup.Slots

/-!
# The state of the construction

The tokens of a page are put into a tree one after the other.  What a token does
depends on the insertion mode, on the stack of open elements, and on the list of
formatting elements that are opened again when they were closed by accident.
Here are the steps that all modes share: looking at the open elements, closing
them, and putting new nodes where they belong.
-/

namespace BookRules.Markup

/-- The insertion modes. -/
inductive Mode
  | initial
  | beforeHtml
  | beforeHead
  | inHead
  | afterHead
  | inBody
  | text
  | inTable
  | inTableText
  | inCaption
  | inColumnGroup
  | inTableBody
  | inRow
  | inCell
  | inSelect
  | inSelectInTable
  | inTemplate
  | afterBody
  | inFrameset
  | afterFrameset
  | afterAfterBody
  | afterAfterFrameset
  deriving DecidableEq, Repr, Inhabited

/-- An entry of the list of formatting elements. -/
inductive Formatting
  | marker
  | element (id : Nat) (tag : TagToken)

/-- The state of the construction. -/
structure Builder where
  slots : Slots := {}
  mode : Mode := .initial
  /-- The mode to return to after text. -/
  returnMode : Mode := .initial
  templateModes : List Mode := []
  /-- Open elements, the innermost first. -/
  openElements : List Nat := []
  /-- Formatting elements, the latest first. -/
  formatting : List Formatting := []
  head : Option Nat := none
  form : Option Nat := none
  /-- A frameset may still replace the body. -/
  framesetOk : Bool := true
  /-- Content goes in front of the table. -/
  foster : Bool := false
  /-- The page is an old one. -/
  old : Bool := false
  /-- A line feed in front of the next text is dropped. -/
  dropLineFeed : Bool := false
  /-- Text inside a table that waits for its place, the latest first. -/
  tableText : List Token := []
  /-- How the text in front is read. -/
  textState : TextState := .data

/-- What became of a token. -/
inductive Outcome
  | done
  | again (mode : Mode)

namespace Builder

/-- A step of the construction. -/
abbrev Build := StateM Builder

def nameOf (id : Nat) : Build Name :=
  return (← get).slots.name id

def current? : Build (Option Nat) :=
  return (← get).openElements.head?

/-- The name of the innermost open element. -/
def currentName : Build Name := do
  let b ← get
  return match b.openElements with
    | id :: _ => b.slots.name id
    | [] => { vocabulary := .html, text := "" }

def currentIs (name : String) : Build Bool :=
  return (← currentName).isHtml name

def setMode (mode : Mode) : Build Unit :=
  modify ({ · with mode })

def notFrameset : Build Unit :=
  modify ({ · with framesetOk := false })

def pop : Build Unit :=
  modify fun b => { b with openElements := b.openElements.drop 1 }

/-- Close open elements until one of them satisfies `stop`, and that one too. -/
def popThrough (stop : Name → Bool) : Build Unit :=
  modify fun b =>
    { b with openElements := (b.openElements.dropWhile fun id => !stop (b.slots.name id)).drop 1 }

def popThroughNamed (name : String) : Build Unit :=
  popThrough (·.isHtml name)

/-- Close open elements until the innermost one satisfies `stop`. -/
def popDownTo (stop : Name → Bool) : Build Unit :=
  modify fun b =>
    { b with openElements := b.openElements.dropWhile fun id => !stop (b.slots.name id) }

/-- Whether an element that satisfies `wanted` is open before one that ends the
scope. -/
def inScopeOf (b : Builder) (ends : Name → Bool) (wanted : Nat → Bool) : List Nat → Bool
  | [] => false
  | id :: rest =>
    wanted id || (!ends (b.slots.name id) && inScopeOf b ends wanted rest)

def inScope (ends : Name → Bool) (wanted : Name → Bool) : Build Bool := do
  let b ← get
  return b.inScopeOf ends (fun id => wanted (b.slots.name id)) b.openElements

def inScopeNamed (ends : Name → Bool) (name : String) : Build Bool :=
  inScope ends (·.isHtml name)

def isOpenNamed (name : String) : Build Bool := do
  let b ← get
  return b.openElements.any fun id => (b.slots.name id).isHtml name

/-- Close elements whose end tag may be left out. -/
def impliedEnds (implied : Name → Bool) : Build Unit :=
  modify fun b =>
    { b with openElements := b.openElements.dropWhile fun id => implied (b.slots.name id) }

def impliedEndsExcept (name : String) : Build Unit :=
  impliedEnds fun n => n.isImpliedEnd && !n.isHtml name

/-- Where something goes: at the end of a node, or in front of a table. -/
inductive Place
  | lastIn (id : Nat)
  | beforeTable (table below : Nat)

/-- The place in front of the innermost table. -/
def fosterPlace (b : Builder) : List Nat → Place
  | [] => .lastIn (b.openElements.getLast?.getD 0)
  | id :: rest =>
    let name := b.slots.name id
    if name.isHtml "template" then .lastIn (b.slots.contents id)
    else if name.isHtml "table" then .beforeTable id (rest.headD 0)
    else fosterPlace b rest

/-- The place for content of `target`. -/
def placeIn (b : Builder) (target : Nat) : Place :=
  if b.foster && (b.slots.name target).isTablePart then fosterPlace b b.openElements
  else .lastIn (b.slots.contents target)

def insertNodeAt (place : Place) (id : Nat) : Build Unit :=
  modify fun b =>
    match place with
    | .lastIn target => { b with slots := b.slots.append target id }
    | .beforeTable table below =>
      if (b.slots.parent? table).isSome then { b with slots := b.slots.insertBefore table id }
      else { b with slots := b.slots.append below id }

/-- Insert a node where `target` takes it. -/
def insertNodeIn (target id : Nat) : Build Unit := do
  insertNodeAt ((← get).placeIn target) id

def insertNode (id : Nat) : Build Unit := do
  insertNodeIn ((← get).openElements.headD 0) id

def insertText (content : String) : Build Unit :=
  modify fun b =>
    match b.placeIn (b.openElements.headD 0) with
    | .lastIn target => { b with slots := b.slots.appendText target content }
    | .beforeTable table below =>
      if (b.slots.parent? table).isSome then
        { b with slots := b.slots.insertTextBefore table content }
      else { b with slots := b.slots.appendText below content }

def newNode (content : SlotContent) : Build Nat :=
  modifyGet fun b =>
    let (id, slots) := b.slots.add content
    (id, { b with slots })

def newElement (tag : Tag) : Build Nat :=
  modifyGet fun b =>
    let (id, slots) := b.slots.addElement tag
    (id, { b with slots })

def push (id : Nat) : Build Unit :=
  modify fun b => { b with openElements := id :: b.openElements }

/-- Insert an element without opening it. -/
def insertLeaf (tag : Tag) : Build Nat := do
  let id ← newElement tag
  insertNode id
  return id

/-- Insert an element and open it. -/
def insertOpen (tag : Tag) : Build Nat := do
  let id ← insertLeaf tag
  push id
  return id

def htmlTag (t : TagToken) : Tag :=
  t.element .html false

/-- A start tag without attributes. -/
def bareTag (name : String) : TagToken :=
  { name, attributes := [], selfClosing := false }

def insertHtml (t : TagToken) : Build Unit := do
  let _ ← insertOpen (htmlTag t)

def insertHtmlLeaf (t : TagToken) : Build Unit := do
  let _ ← insertLeaf (htmlTag t)

def insertComment (content : String) : Build Unit := do
  let id ← newNode (.comment content)
  insertNode id

def insertCommentIn (parent : Nat) (content : String) : Build Unit := do
  let id ← newNode (.comment content)
  modify fun b => { b with slots := b.slots.append parent id }

/-- The root element. -/
def root : Build Nat :=
  return (← get).openElements.getLast?.getD 0

def insertRoot (t : TagToken) : Build Unit := do
  let id ← newElement (htmlTag t)
  push id
  modify fun b => { b with slots := b.slots.append 0 id }

end Builder

end BookRules.Markup
