import BookRules.Markup.Names

/-!
# The tree under construction

While a page is read, its nodes are moved about: an element may get new
siblings in front of it, lose its place, or hand its children over.  The nodes
therefore live in numbered slots that name their parents and children.  Slot
zero is the document.  Once the page is read, the slots are turned into a
`Tree`.
-/

namespace BookRules.Markup

/-- What a slot holds. -/
inductive SlotContent
  | document
  | fragment
  | element (tag : Tag)
  | text (content : String)
  | comment (content : String)
  | doctype (name : String)

instance : Inhabited SlotContent := ⟨.document⟩

/-- A node under construction. -/
structure Slot where
  content : SlotContent
  parent : Option Nat := none
  children : Array Nat := #[]
  deriving Inhabited

/-- The nodes of a page under construction. -/
structure Slots where
  slots : Array Slot := #[{ content := .document }]

namespace Slots

/-- The name of an element; nodes of other kinds have no name of any use. -/
def name (s : Slots) (id : Nat) : Name :=
  match s.slots[id]?.map Slot.content with
  | some (.element tag) => tag.fullName
  | _ => { vocabulary := .html, text := "" }

/-- The element in a slot. -/
def tag? (s : Slots) (id : Nat) : Option Tag :=
  match s.slots[id]?.map Slot.content with
  | some (.element tag) => some tag
  | _ => none

def parent? (s : Slots) (id : Nat) : Option Nat :=
  (s.slots[id]?).bind (·.parent)

/-- Add a node without a place. -/
def add (s : Slots) (content : SlotContent) : Nat × Slots :=
  (s.slots.size, { slots := s.slots.push { content } })

/-- Add an element without a place.  A template gets a fragment for what it
holds. -/
def addElement (s : Slots) (tag : Tag) : Nat × Slots :=
  let (id, s) := s.add (.element tag)
  if tag.fullName.isHtml "template" then
    let (inner, s) := s.add .fragment
    (id, { slots := (s.slots.modify inner ({ · with parent := some id })).modify id
              ({ · with children := #[inner] }) })
  else (id, s)

/-- The node that takes up what goes into an element. -/
def contents (s : Slots) (id : Nat) : Nat :=
  if (s.name id).isHtml "template" then
    ((s.slots[id]?).bind (·.children[0]?)).getD id
  else id

/-- Take a node from its parent. -/
def detach (s : Slots) (id : Nat) : Slots :=
  match s.parent? id with
  | none => s
  | some p =>
    { slots := (s.slots.modify p fun slot =>
        { slot with children := slot.children.filter (· != id) }).modify id
          ({ · with parent := none }) }

/-- Put a node at the end of another. -/
def append (s : Slots) (parent id : Nat) : Slots :=
  let s := s.detach id
  { slots := (s.slots.modify parent fun slot =>
      { slot with children := slot.children.push id }).modify id
        ({ · with parent := some parent }) }

/-- Add to the text in a slot, if it holds one. -/
def extendText? (s : Slots) (id : Nat) (content : String) : Option Slots :=
  match s.slots[id]?.map Slot.content with
  | some (.text _) =>
    some { slots := s.slots.modify id fun slot =>
      match slot with
      | { content := .text before, parent, children } =>
        { content := .text (before ++ content), parent, children }
      | slot => slot }
  | _ => none

/-- Put text at the end of a node, into the text that stands there already. -/
def appendText (s : Slots) (parent : Nat) (content : String) : Slots :=
  match (s.slots[parent]?).bind (·.children.back?) with
  | some last =>
    match s.extendText? last content with
    | some s => s
    | none =>
      let (id, s) := s.add (.text content)
      s.append parent id
  | none =>
    let (id, s) := s.add (.text content)
    s.append parent id

/-- The place of a node among its siblings. -/
def place? (s : Slots) (id : Nat) : Option (Nat × Nat) := do
  let p ← s.parent? id
  let i ← (← s.slots[p]?).children.findIdx? (· == id)
  return (p, i)

/-- Put a node in front of another. -/
def insertBefore (s : Slots) (sibling id : Nat) : Slots :=
  let s := s.detach id
  match s.place? sibling with
  | none => s
  | some (p, i) =>
    { slots := (s.slots.modify p fun slot =>
        { slot with children := slot.children.extract 0 i ++ #[id] ++
            slot.children.extract i slot.children.size }).modify id
          ({ · with parent := some p }) }

/-- Put text in front of a node, into the text that stands there already. -/
def insertTextBefore (s : Slots) (sibling : Nat) (content : String) : Slots :=
  match s.place? sibling with
  | none => s
  | some (p, i) =>
    let before := if i = 0 then none else (s.slots[p]?).bind (·.children[i - 1]?)
    match before.bind (s.extendText? · content) with
    | some s => s
    | none =>
      let (id, s) := s.add (.text content)
      s.insertBefore sibling id

/-- Hand all children of a node over to another. -/
def moveChildren (s : Slots) (source target : Nat) : Slots :=
  let ids := ((s.slots[source]?).map (·.children)).getD #[]
  ids.foldl (fun s id => s.append target id) s

/-- Give an element the attributes it does not have yet. -/
def addAttributes (s : Slots) (id : Nat) (attributes : List (String × String)) : Slots :=
  { slots := s.slots.modify id fun slot =>
      match slot.content with
      | .element tag =>
        let merged := attributes.foldl (fun sorted (name, value) =>
          if sorted.any fun a => a.space == .none && a.name == name then sorted
          else Attribute.insert { space := .none, name, value } sorted) tag.attributes
        { slot with content := .element { tag with attributes := merged } }
      | _ => slot }

/-- The tree below a node.  A path down has at most as many nodes as there are
slots. -/
def tree (s : Slots) : Nat → Nat → Tree
  | 0, _ => .fragment []
  | fuel + 1, id =>
    match s.slots[id]? with
    | none => .fragment []
    | some slot =>
      match slot.content with
      | .text content => .text content
      | .comment content => .comment content
      | .doctype name => .doctype name
      | .element tag => .element tag (slot.children.toList.map (s.tree fuel))
      | .document | .fragment => .fragment (slot.children.toList.map (s.tree fuel))

/-- The nodes at the top of the page. -/
def toTrees (s : Slots) : List Tree :=
  match s.tree (s.slots.size + 1) 0 with
  | .fragment children => children
  | _ => []

end Slots

end BookRules.Markup
