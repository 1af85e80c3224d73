import BookRules.Markup.Construction.Content

/-!
# The tree of a page

Every page has a tree: missing tags are added, misplaced content is moved in
front of tables, and tags that fit nowhere are dropped.

`Builder.put` handles one token.  A token may be handed from mode to mode; every
hand-over moves on in the fixed order of modes or pops an open element, so a
number of hand-overs proportional to the size of the stack is enough.
-/

namespace BookRules.Markup

namespace Builder

/-- Hand a token from mode to mode until it is done. -/
def settle (token : Token) : Nat → Build Unit
  | 0 => pure ()
  | fuel + 1 => do
    let outcome ← if ← isForeign token then foreignMode token else inMode (← get).mode token
    match outcome with
    | .done => pure ()
    | .again mode =>
      setMode mode
      settle token fuel

/-- Drop one line feed in front of a text. -/
def withoutLineFeed (token : Token) : Option Token :=
  match token with
  | .spaces s =>
    match s.toList with
    | '\n' :: [] => none
    | '\n' :: rest => some (.spaces (String.ofList rest))
    | _ => some token
  | _ => some token

/-- Put one token into the tree. -/
def put (token : Token) : Build Unit := do
  let b ← get
  modify ({ · with dropLineFeed := false })
  match (if b.dropLineFeed then withoutLineFeed token else some token) with
  | none => pure ()
  | some (.doctype d) =>
    if b.mode == .initial then
      let id ← newNode (.doctype (d.name.getD ""))
      modify fun b => { b with slots := b.slots.append 0 id, old := d.isOld, mode := .beforeHtml }
  | some token => settle token (16 + 4 * b.openElements.length + 4 * b.templateModes.length)

/-- Read tokens and put them into the tree until the text is used up. -/
def run : Nat → List Char → Build Unit
  | 0, _ => pure ()
  | _ + 1, [] => put .finish
  | fuel + 1, cs => do
    let b ← get
    let (tokens, rest) := Token.next b.textState b.allowsSections cs
    for token in tokens do put token
    run fuel rest

end Builder

/-- A byte order mark in front of a page is no text. -/
def dropMark : List Char → List Char
  | '\uFEFF' :: rest => rest
  | cs => cs

/-- The nodes at the top of the page that a text stands for. -/
def parseTrees (text : String) : List Tree :=
  let cs := Token.normalizeLines (dropMark text.toList)
  let ((), built) := (Builder.run (cs.length + 2) cs).run {}
  built.slots.toTrees

/-- The root element of the page that a text stands for. -/
def Element.ofPage (text : String) : Element :=
  match Element.amongSiblings .document [] [] (parseTrees text) with
  | root :: _ => root
  | [] => { tag := { vocabulary := .html, name := "html", attributes := [] },
            children := [], above := [] }

end BookRules.Markup
