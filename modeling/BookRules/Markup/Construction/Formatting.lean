import BookRules.Markup.Construction.Builder

/-!
# Formatting elements and end tags

A formatting element that was closed by accident is opened again before the next
content.  When its own end tag comes while other elements are still open, the
elements inside it are moved out, so that the formatting ends where the tag
stands and the blocks go on.
-/

namespace BookRules.Markup

namespace Builder

def pushMarker : Build Unit :=
  modify fun b => { b with formatting := .marker :: b.formatting }

def clearToMarker : Build Unit :=
  modify fun b =>
    { b with formatting := (b.formatting.dropWhile fun
        | .marker => false
        | .element _ _ => true).drop 1 }

/-- The formatting elements after the last marker, the latest first. -/
def sinceMarker : List Formatting → List (Nat × TagToken)
  | .element id tag :: rest => (id, tag) :: sinceMarker rest
  | _ => []

def isElement (id : Nat) : Formatting → Bool
  | .element i _ => i == id
  | .marker => false

def dropFormatting (id : Nat) : Build Unit :=
  modify fun b => { b with formatting := b.formatting.filter fun f => !isElement id f }

def dropOpen (id : Nat) : Build Unit :=
  modify fun b => { b with openElements := b.openElements.filter (· != id) }

/-- The formatting elements from the earliest one that has to be opened again,
in that order, and the ones before it, the latest first. -/
def toReopen (open_ : List Nat) (later : List (Nat × TagToken)) :
    List Formatting → List (Nat × TagToken) × List Formatting
  | .element id tag :: rest =>
    if open_.contains id then (later, .element id tag :: rest)
    else toReopen open_ ((id, tag) :: later) rest
  | rest => (later, rest)

/-- Open formatting elements again that were closed by accident. -/
def reopen : Build Unit := do
  let b ← get
  let (closed, before) := toReopen b.openElements [] b.formatting
  let mut formatting := before
  for (_, tag) in closed do
    let id ← insertOpen (htmlTag tag)
    formatting := .element id tag :: formatting
  if !closed.isEmpty then
    modify fun b => { b with formatting }

/-- Same name and the same attributes in any order. -/
def sameTag (a b : TagToken) : Bool :=
  a.name == b.name && a.attributes.length == b.attributes.length &&
    a.attributes.all b.attributes.contains

/-- Insert a formatting element.  Of three equal ones since the last marker the
earliest is forgotten. -/
def insertFormatting (t : TagToken) : Build Unit := do
  let equal := (sinceMarker (← get).formatting).filter fun (_, tag) => sameTag tag t
  if 3 ≤ equal.length then
    match equal.getLast? with
    | some (id, _) => dropFormatting id
    | none => pure ()
  let id ← insertOpen (htmlTag t)
  modify fun b => { b with formatting := .element id t :: b.formatting }

/-! ### End tags -/

def closeParagraph : Build Unit := do
  impliedEndsExcept "p"
  popThroughNamed "p"

/-- Close a paragraph that is open here. -/
def endParagraph : Build Unit := do
  if ← inScopeNamed (·.endsButtonScope) "p" then closeParagraph

/-- An end tag without a rule of its own: it closes the innermost element of
its name, unless a special element stands in between. -/
def endOther (name : String) : Build Unit := do
  let b ← get
  let above := b.openElements.takeWhile fun id =>
    !(b.slots.name id).isHtml name && !(b.slots.name id).isSpecial
  match b.openElements.drop above.length with
  | id :: rest => if (b.slots.name id).isHtml name then modify ({ · with openElements := rest })
  | [] => pure ()

/-- Where the formatting element goes back into the list. -/
inductive Bookmark
  | replace (id : Nat)
  | after (id : Nat)

/-- Put an entry into the list of formatting elements. -/
def placeFormatting (bookmark : Bookmark) (old : Nat) (entry : Formatting) : Build Unit :=
  modify fun b =>
    match bookmark with
    | .replace id =>
      { b with formatting := b.formatting.map fun f => if isElement id f then entry else f }
    | .after id =>
      { b with formatting := (b.formatting.flatMap fun f =>
          if isElement id f then [entry, f] else [f]).filter fun f => !isElement old f }

/-- Replace an element in both lists. -/
def replaceElement (old new : Nat) (tag : TagToken) : Build Unit :=
  modify fun b =>
    { b with
      openElements := b.openElements.map fun id => if id == old then new else id
      formatting := b.formatting.map fun f => if isElement old f then .element new tag else f }

/-- The formatting entry of an element. -/
def formattingTag? (id : Nat) : Build (Option TagToken) :=
  return (← get).formatting.findSome? fun
    | .element i tag => if i == id then some tag else none
    | .marker => none

/-- Walk from the furthest block up to the formatting element: the first three
formatting elements on the way are copied around what was gathered, the other
elements are closed.  `between` holds the elements on the way, `last` is what
was gathered. -/
def gatherUp (block : Nat) : Nat → Bookmark → Nat → List Nat → Build (Bookmark × Nat)
  | _, bookmark, last, [] => return (bookmark, last)
  | count, bookmark, last, node :: rest => do
    let tag? ← formattingTag? node
    match (if 3 ≤ count then none else tag?) with
    | none =>
      if 3 ≤ count then dropFormatting node
      dropOpen node
      gatherUp block (count + 1) bookmark last rest
    | some tag =>
      let copy ← newElement (htmlTag tag)
      replaceElement node copy tag
      let bookmark := if last == block then .after copy else bookmark
      modify fun b => { b with slots := b.slots.append copy last }
      gatherUp block (count + 1) bookmark copy rest

/-- One round of closing a formatting element across blocks; whether another
round is needed. -/
def adoptOnce (name : String) : Build Bool := do
  let b ← get
  match (sinceMarker b.formatting).find? fun (_, tag) => tag.name == name with
  | none =>
    endOther name
    return false
  | some (element, tag) =>
    if !b.openElements.contains element then
      dropFormatting element
      return false
    else if !b.inScopeOf (·.endsScope) (· == element) b.openElements then
      return false
    else
      let inside := (b.openElements.takeWhile (· != element)).reverse
      let outside := (b.openElements.dropWhile (· != element)).drop 1
      match inside.find? fun id => (b.slots.name id).isSpecial with
      | none =>
        modify ({ · with openElements := outside })
        dropFormatting element
        return false
      | some block =>
        let between := ((inside.takeWhile (· != block))).reverse
        let (bookmark, last) ← gatherUp block 0 (.replace element) block between
        modify fun b => { b with slots := b.slots.detach last }
        insertNodeIn (outside.headD 0) last
        let copy ← newElement (htmlTag tag)
        modify fun b => { b with slots := b.slots.moveChildren block copy }
        modify fun b => { b with slots := b.slots.append block copy }
        placeFormatting bookmark element (.element copy tag)
        dropOpen element
        modify fun b =>
          { b with openElements := b.openElements.flatMap fun id =>
              if id == block then [copy, id] else [id] }
        return true

/-- At most `n` rounds. -/
def adoptRounds (name : String) : Nat → Build Unit
  | 0 => pure ()
  | n + 1 => do
    if ← adoptOnce name then adoptRounds name n

/-- Close a formatting element across the blocks inside it. -/
def adopt (name : String) : Build Unit := do
  let isListed := match ← current? with
    | some id => return (← formattingTag? id).isSome
    | none => return false
  if (← currentIs name) && !(← isListed) then pop
  else adoptRounds name 8

/-- Close a link before another one opens. -/
def closeLink : Build Unit := do
  match (sinceMarker (← get).formatting).find? fun (_, tag) => tag.name == "a" with
  | none => pure ()
  | some (id, _) =>
    adopt "a"
    dropFormatting id
    dropOpen id

def closeCell : Build Unit := do
  impliedEnds (·.isImpliedEnd)
  popThrough (·.isHtmlIn ["td", "th"])
  clearToMarker

end Builder

end BookRules.Markup
