import BookRules.Markup.Construction.Mode

/-!
# Modes up to the head

What happens to a token before the page has a body: the root, the head and the
body are opened when their tags come, or when content comes that belongs further
inside.
-/

namespace BookRules.Markup

namespace Builder

def initialMode : Token → Build Outcome
  | .spaces _ => return .done
  | .comment c => do
    insertCommentIn 0 c
    return .done
  | _ => do
    modify ({ · with old := true })
    return .again .beforeHtml

def beforeHtmlMode (token : Token) : Build Outcome := do
  let rootFirst : Build Outcome := do
    insertRoot (bareTag "html")
    return .again .beforeHead
  match token with
  | .comment c =>
    insertCommentIn 0 c
    return .done
  | .spaces _ => return .done
  | .startTag t =>
    if t.name = "html" then
      insertRoot t
      setMode .beforeHead
      return .done
    else rootFirst
  | .endTag t =>
    if ["head", "body", "html", "br"].contains t.name then rootFirst else return .done
  | _ => rootFirst

/-- A second root tag only adds attributes. -/
def rootAgain (t : TagToken) : Build Outcome := do
  if !(← isOpenNamed "template") then
    let r ← root
    modify fun b => { b with slots := b.slots.addAttributes r t.attributes }
  return .done

def beforeHeadMode (token : Token) : Build Outcome := do
  let headFirst : Build Outcome := do
    let id ← insertOpen (htmlTag (bareTag "head"))
    modify ({ · with head := some id })
    return .again .inHead
  match token with
  | .spaces _ => return .done
  | .comment c =>
    insertComment c
    return .done
  | .startTag t =>
    match t.name with
    | "html" => rootAgain t
    | "head" =>
      let id ← insertOpen (htmlTag t)
      modify ({ · with head := some id })
      setMode .inHead
      return .done
    | _ => headFirst
  | .endTag t =>
    if ["head", "body", "html", "br"].contains t.name then headFirst else return .done
  | _ => headFirst

/-- The end tag of a template. -/
def endTemplate : Build Outcome := do
  if ← isOpenNamed "template" then
    impliedEnds (·.isThoroughEnd)
    popThroughNamed "template"
    clearToMarker
    modify fun b => { b with templateModes := b.templateModes.drop 1 }
    setMode (← resetMode)
  return .done

/-- The start tags that belong into the head, wherever they stand. -/
def headNames : List String :=
  ["base", "basefont", "bgsound", "link", "meta", "noframes", "script", "style", "template",
    "title"]

def inHeadMode (token : Token) : Build Outcome := do
  let leave : Build Outcome := do
    pop
    return .again .afterHead
  match token with
  | .spaces s =>
    insertText s
    return .done
  | .comment c =>
    insertComment c
    return .done
  | .startTag t =>
    match t.name with
    | "html" => rootAgain t
    | "base" | "basefont" | "bgsound" | "link" | "meta" =>
      insertHtmlLeaf t
      return .done
    | "title" => readTextOf t (.title t.name)
    | "noframes" | "style" | "noscript" => readTextOf t (.raw t.name)
    | "script" => readTextOf t (.script t.name)
    | "template" =>
      insertHtml t
      pushMarker
      notFrameset
      setMode .inTemplate
      modify fun b => { b with templateModes := .inTemplate :: b.templateModes }
      return .done
    | "head" => return .done
    | _ => leave
  | .endTag t =>
    match t.name with
    | "head" =>
      pop
      setMode .afterHead
      return .done
    | "body" | "html" | "br" => leave
    | "template" => endTemplate
    | _ => return .done
  | _ => leave

def afterHeadMode (token : Token) : Build Outcome := do
  let bodyFirst : Build Outcome := do
    insertHtml (bareTag "body")
    return .again .inBody
  match token with
  | .spaces s =>
    insertText s
    return .done
  | .comment c =>
    insertComment c
    return .done
  | .startTag t =>
    match t.name with
    | "html" => rootAgain t
    | "body" =>
      insertHtml t
      notFrameset
      setMode .inBody
      return .done
    | "frameset" =>
      insertHtml t
      setMode .inFrameset
      return .done
    | "head" => return .done
    | name =>
      if headNames.contains name then
        match (← get).head with
        | none => return .done
        | some head =>
          push head
          let outcome ← inHeadMode token
          dropOpen head
          return outcome
      else bodyFirst
  | .endTag t =>
    match t.name with
    | "template" => endTemplate
    | "body" | "html" | "br" => bodyFirst
    | _ => return .done
  | _ => bodyFirst

end Builder

end BookRules.Markup
