import BookRules.Markup.Construction.Head

/-!
# The body

What happens to a token in the body, in an element that holds only text, in a
template, and after the body.  A block ends an open paragraph; an end tag closes
the innermost element of its name if no special element stands between.
-/

namespace BookRules.Markup

namespace Builder

/-- A list item or a term closes one that is open. -/
def startItem (t : TagToken) (closes : List String) : Build Outcome := do
  notFrameset
  let b ← get
  let passes (id : Nat) : Bool :=
    let name := b.slots.name id
    !name.isHtmlIn closes && (!name.isSpecial || name.isHtmlIn ["address", "div", "p"])
  match (b.openElements.dropWhile passes).head? with
  | some id =>
    let name := b.slots.name id
    if name.isHtmlIn closes then
      impliedEndsExcept name.text
      popThroughNamed name.text
  | none => pure ()
  endParagraph
  insertHtml t
  return .done

/-- The end of a template or of the page. -/
def finishTemplate : Build Outcome := do
  if ← isOpenNamed "template" then
    popThroughNamed "template"
    clearToMarker
    modify fun b => { b with templateModes := b.templateModes.drop 1 }
    return .again (← resetMode)
  else return .done

/-- Block elements: they end a paragraph. -/
def blockNames : List String :=
  ["address", "article", "aside", "blockquote", "center", "details", "dialog", "dir", "div", "dl",
    "fieldset", "figcaption", "figure", "footer", "header", "hgroup", "main", "menu", "nav", "ol",
    "p", "search", "section", "summary", "ul"]

/-- Elements whose end tag closes everything inside them. -/
def blockEndNames : List String :=
  ["address", "article", "aside", "blockquote", "button", "center", "details", "dialog", "dir",
    "div", "dl", "fieldset", "figcaption", "figure", "footer", "header", "hgroup", "listing",
    "main", "menu", "nav", "ol", "pre", "search", "section", "summary", "ul"]

def formattingNames : List String :=
  ["b", "big", "code", "em", "font", "i", "s", "small", "strike", "strong", "tt", "u"]

def inBodyStart (t : TagToken) : Build Outcome := do
  let name := t.name
  let voidElement (keepsFrameset : Bool) : Build Outcome := do
    reopen
    insertHtmlLeaf t
    if !keepsFrameset then notFrameset
    return .done
  if name = "html" then rootAgain t
  else if headNames.contains name then inHeadMode (.startTag t)
  else if name = "body" then
    let b ← get
    match b.openElements.reverse with
    | _ :: body :: _ =>
      if (b.slots.name body).isHtml "body" && !(← isOpenNamed "template") then
        notFrameset
        modify fun b => { b with slots := b.slots.addAttributes body t.attributes }
    | _ => pure ()
    return .done
  else if name = "frameset" then
    let b ← get
    if b.framesetOk then
      match b.openElements.reverse with
      | root :: body :: _ =>
        if (b.slots.name body).isHtml "body" then
          modify fun b => { b with slots := b.slots.detach body, openElements := [root] }
          insertHtml t
          setMode .inFrameset
      | _ => pure ()
    return .done
  else if blockNames.contains name then
    endParagraph
    insertHtml t
    return .done
  else if Name.headings.contains name then
    endParagraph
    if (← currentName).isHtmlIn Name.headings then pop
    insertHtml t
    return .done
  else if name = "pre" || name = "listing" then
    endParagraph
    insertHtml t
    modify ({ · with dropLineFeed := true })
    notFrameset
    return .done
  else if name = "form" then
    let inTemplate ← isOpenNamed "template"
    if (← get).form.isSome && !inTemplate then return .done
    else
      endParagraph
      let id ← insertOpen (htmlTag t)
      if !inTemplate then modify ({ · with form := some id })
      return .done
  else if name = "li" then startItem t ["li"]
  else if name = "dd" || name = "dt" then startItem t ["dd", "dt"]
  else if name = "plaintext" then
    endParagraph
    insertHtml t
    modify ({ · with textState := .plain })
    return .done
  else if name = "button" then
    if ← inScopeNamed (·.endsScope) "button" then
      impliedEnds (·.isImpliedEnd)
      popThroughNamed "button"
    reopen
    insertHtml t
    notFrameset
    return .done
  else if name = "a" then
    closeLink
    reopen
    insertFormatting t
    return .done
  else if formattingNames.contains name then
    reopen
    insertFormatting t
    return .done
  else if name = "nobr" then
    reopen
    if ← inScopeNamed (·.endsScope) "nobr" then
      adopt "nobr"
      reopen
    insertFormatting t
    return .done
  else if ["applet", "marquee", "object"].contains name then
    reopen
    insertHtml t
    pushMarker
    notFrameset
    return .done
  else if name = "table" then
    if !(← get).old then endParagraph
    insertHtml t
    notFrameset
    setMode .inTable
    return .done
  else if ["area", "br", "embed", "img", "keygen", "wbr"].contains name then voidElement false
  else if name = "input" then voidElement (isHidden t)
  else if ["param", "source", "track"].contains name then
    insertHtmlLeaf t
    return .done
  else if name = "hr" then
    endParagraph
    insertHtmlLeaf t
    notFrameset
    return .done
  else if name = "image" then
    reopen
    insertHtmlLeaf { t with name := "img" }
    notFrameset
    return .done
  else if name = "textarea" then
    modify ({ · with dropLineFeed := true })
    notFrameset
    readTextOf t (.title name)
  else if name = "xmp" then
    endParagraph
    reopen
    notFrameset
    readTextOf t (.raw name)
  else if name = "iframe" then
    notFrameset
    readTextOf t (.raw name)
  else if name = "noembed" || name = "noscript" then readTextOf t (.raw name)
  else if name = "select" then
    reopen
    insertHtml t
    notFrameset
    let mode := (← get).mode
    let inTable := [Mode.inTable, .inCaption, .inTableBody, .inRow, .inCell].contains mode
    setMode (if inTable then .inSelectInTable else .inSelect)
    return .done
  else if name = "optgroup" || name = "option" then
    if ← currentIs "option" then pop
    reopen
    insertHtml t
    return .done
  else if name = "rb" || name = "rtc" then
    if ← inScopeNamed (·.endsScope) "ruby" then impliedEnds (·.isImpliedEnd)
    insertHtml t
    return .done
  else if name = "rp" || name = "rt" then
    if ← inScopeNamed (·.endsScope) "ruby" then impliedEndsExcept "rtc"
    insertHtml t
    return .done
  else if name = "math" then
    reopen
    insertForeign t .math false
  else if name = "svg" then
    reopen
    insertForeign t .svg false
  else if ["caption", "col", "colgroup", "frame", "head", "tbody", "td", "tfoot", "th", "thead",
      "tr"].contains name then
    return .done
  else
    reopen
    insertHtml t
    return .done

/-- The end tag of a form. -/
def endForm : Build Outcome := do
  if ← isOpenNamed "template" then
    if ← inScopeNamed (·.endsScope) "form" then
      impliedEnds (·.isImpliedEnd)
      popThroughNamed "form"
  else
    let b ← get
    modify ({ · with form := none })
    match b.form with
    | none => pure ()
    | some form =>
      if b.inScopeOf (·.endsScope) (· == form) b.openElements then
        impliedEnds (·.isImpliedEnd)
        dropOpen form
  return .done

def inBodyEnd (t : TagToken) : Build Outcome := do
  let name := t.name
  if name = "template" then endTemplate
  else if name = "body" || name = "html" then
    if ← inScopeNamed (·.endsScope) "body" then
      if name = "body" then
        setMode .afterBody
        return .done
      else return .again .afterBody
    else return .done
  else if blockEndNames.contains name then
    if ← inScopeNamed (·.endsScope) name then
      impliedEnds (·.isImpliedEnd)
      popThroughNamed name
    return .done
  else if name = "form" then endForm
  else if name = "p" then
    if !(← inScopeNamed (·.endsButtonScope) "p") then insertHtml (bareTag "p")
    closeParagraph
    return .done
  else if name = "li" || name = "dd" || name = "dt" then
    let ends := if name = "li" then Name.endsListScope else Name.endsScope
    if ← inScopeNamed ends name then
      impliedEndsExcept name
      popThroughNamed name
    return .done
  else if Name.headings.contains name then
    if ← inScope (·.endsScope) (·.isHtmlIn Name.headings) then
      impliedEnds (·.isImpliedEnd)
      popThrough (·.isHtmlIn Name.headings)
    return .done
  else if name = "a" || name = "nobr" || formattingNames.contains name then
    adopt name
    return .done
  else if ["applet", "marquee", "object"].contains name then
    if ← inScopeNamed (·.endsScope) name then
      impliedEnds (·.isImpliedEnd)
      popThroughNamed name
      clearToMarker
    return .done
  else if name = "br" then inBodyStart (bareTag "br")
  else
    endOther name
    return .done

def inBodyMode : Token → Build Outcome
  | .nul => return .done
  | .spaces s => do
    reopen
    insertText s
    return .done
  | .letters s => do
    reopen
    notFrameset
    insertText s
    return .done
  | .comment c => do
    insertComment c
    return .done
  | .startTag t => inBodyStart t
  | .endTag t => inBodyEnd t
  | .doctype _ => return .done
  | .finish => do
    if (← get).templateModes.isEmpty then return .done else finishTemplate

def textMode (token : Token) : Build Outcome := do
  match token with
  | .spaces s | .letters s =>
    insertText s
    return .done
  | .endTag _ =>
    pop
    modify fun b => { b with mode := b.returnMode, textState := .data }
    return .done
  | .finish =>
    pop
    modify ({ · with textState := .data })
    return .again (← get).returnMode
  | _ => return .done

def inTemplateMode (token : Token) : Build Outcome := do
  let turn (mode : Mode) : Build Outcome := do
    modify fun b => { b with templateModes := mode :: b.templateModes.drop 1 }
    return .again mode
  match token with
  | .startTag t =>
    match t.name with
    | "caption" | "colgroup" | "tbody" | "tfoot" | "thead" => turn .inTable
    | "col" => turn .inColumnGroup
    | "tr" => turn .inTableBody
    | "td" | "th" => turn .inRow
    | name => if headNames.contains name then inHeadMode token else turn .inBody
  | .endTag t => if t.name = "template" then endTemplate else return .done
  | .finish => finishTemplate
  | _ => inBodyMode token

def afterBodyMode (token : Token) : Build Outcome := do
  match token with
  | .spaces _ => inBodyMode token
  | .comment c =>
    insertCommentIn (← root) c
    return .done
  | .startTag t => if t.name = "html" then rootAgain t else return .again .inBody
  | .endTag t =>
    if t.name = "html" then
      setMode .afterAfterBody
      return .done
    else return .again .inBody
  | .finish => return .done
  | _ => return .again .inBody

def afterAfterBodyMode (token : Token) : Build Outcome := do
  match token with
  | .spaces _ => inBodyMode token
  | .comment c =>
    insertCommentIn 0 c
    return .done
  | .startTag t => if t.name = "html" then rootAgain t else return .again .inBody
  | .finish => return .done
  | _ => return .again .inBody

end Builder

end BookRules.Markup
