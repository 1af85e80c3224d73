import BookRules.Markup.Construction.Body

/-!
# Tables

What happens to a token in a table and its parts.  Missing parts are opened;
content that no part may hold goes in front of the table.
-/

namespace BookRules.Markup

namespace Builder

/-- Handle content of a table as content of the body, in front of the table. -/
def fostered (token : Token) : Build Outcome := do
  modify ({ · with foster := true })
  let outcome ← inBodyMode token
  modify ({ · with foster := false })
  return outcome

def inTableMode (token : Token) : Build Outcome := do
  let backTo (names : List String) : Build Unit := popDownTo (·.isHtmlIn names)
  let tableBack : Build Unit := backTo ["table", "template", "html"]
  match token with
  | .spaces _ | .letters _ | .nul =>
    if (← currentName).isTablePart then
      modify fun b => { b with returnMode := b.mode, tableText := [] }
      return .again .inTableText
    else fostered token
  | .comment c =>
    insertComment c
    return .done
  | .startTag t =>
    match t.name with
    | "caption" =>
      tableBack
      pushMarker
      insertHtml t
      setMode .inCaption
      return .done
    | "colgroup" =>
      tableBack
      insertHtml t
      setMode .inColumnGroup
      return .done
    | "col" =>
      tableBack
      insertHtml (bareTag "colgroup")
      return .again .inColumnGroup
    | "tbody" | "tfoot" | "thead" =>
      tableBack
      insertHtml t
      setMode .inTableBody
      return .done
    | "td" | "th" | "tr" =>
      tableBack
      insertHtml (bareTag "tbody")
      return .again .inTableBody
    | "table" =>
      if ← inScopeNamed (·.endsTableScope) "table" then
        popThroughNamed "table"
        return .again (← resetMode)
      else return .done
    | "style" | "script" | "template" => inHeadMode token
    | "input" =>
      if isHidden t then
        insertHtmlLeaf t
        return .done
      else fostered token
    | "form" =>
      if !(← isOpenNamed "template") && (← get).form.isNone then
        let id ← insertLeaf (htmlTag t)
        modify ({ · with form := some id })
      return .done
    | _ => fostered token
  | .endTag t =>
    match t.name with
    | "table" =>
      if ← inScopeNamed (·.endsTableScope) "table" then
        popThroughNamed "table"
        setMode (← resetMode)
      return .done
    | "body" | "caption" | "col" | "colgroup" | "html" | "tbody" | "td" | "tfoot" | "th"
    | "thead" | "tr" => return .done
    | "template" => endTemplate
    | _ => fostered token
  | .finish => inBodyMode token
  | .doctype _ => return .done

/-- Put the text that waited in a table: into the table when it is blank, in
front of it otherwise. -/
def flushTableText : Build Unit := do
  let texts := (← get).tableText.reverse
  modify ({ · with tableText := [] })
  let blank := texts.all fun
    | .spaces _ => true
    | _ => false
  for token in texts do
    if blank then
      match token with
      | .spaces s => insertText s
      | _ => pure ()
    else
      let _ ← fostered token

def inTableTextMode (token : Token) : Build Outcome := do
  match token with
  | .nul => return .done
  | .spaces _ | .letters _ =>
    modify fun b => { b with tableText := token :: b.tableText }
    return .done
  | _ =>
    flushTableText
    return .again (← get).returnMode

def inCaptionMode (token : Token) : Build Outcome := do
  let close (outcome : Outcome) : Build Outcome := do
    if ← inScopeNamed (·.endsTableScope) "caption" then
      impliedEnds (·.isImpliedEnd)
      popThroughNamed "caption"
      clearToMarker
      match outcome with
      | .done => setMode .inTable
      | .again _ => pure ()
      return outcome
    else return .done
  match token with
  | .startTag t =>
    if ["caption", "col", "colgroup", "tbody", "td", "tfoot", "th", "thead", "tr"].contains
        t.name then close (.again .inTable)
    else inBodyMode token
  | .endTag t =>
    match t.name with
    | "caption" => close .done
    | "table" => close (.again .inTable)
    | "body" | "col" | "colgroup" | "html" | "tbody" | "td" | "tfoot" | "th" | "thead" | "tr" =>
      return .done
    | _ => inBodyMode token
  | _ => inBodyMode token

def inColumnGroupMode (token : Token) : Build Outcome := do
  let leave : Build Outcome := do
    if ← currentIs "colgroup" then
      pop
      return .again .inTable
    else return .done
  match token with
  | .spaces s =>
    insertText s
    return .done
  | .comment c =>
    insertComment c
    return .done
  | .startTag t =>
    match t.name with
    | "html" => rootAgain t
    | "col" =>
      insertHtmlLeaf t
      return .done
    | "template" => inHeadMode token
    | _ => leave
  | .endTag t =>
    match t.name with
    | "colgroup" =>
      if ← currentIs "colgroup" then
        pop
        setMode .inTable
      return .done
    | "col" => return .done
    | "template" => endTemplate
    | _ => leave
  | .finish => inBodyMode token
  | _ => leave

def inTableBodyMode (token : Token) : Build Outcome := do
  let back : Build Unit := popDownTo (·.endsTableBody)
  let leave : Build Outcome := do
    if ← inScope (·.endsTableScope) (·.isHtmlIn ["tbody", "thead", "tfoot"]) then
      back
      pop
      return .again .inTable
    else return .done
  match token with
  | .startTag t =>
    match t.name with
    | "tr" =>
      back
      insertHtml t
      setMode .inRow
      return .done
    | "th" | "td" =>
      back
      insertHtml (bareTag "tr")
      return .again .inRow
    | "caption" | "col" | "colgroup" | "tbody" | "tfoot" | "thead" => leave
    | _ => inTableMode token
  | .endTag t =>
    match t.name with
    | "tbody" | "tfoot" | "thead" =>
      if ← inScopeNamed (·.endsTableScope) t.name then
        back
        pop
        setMode .inTable
      return .done
    | "table" => leave
    | "body" | "caption" | "col" | "colgroup" | "html" | "td" | "th" | "tr" => return .done
    | _ => inTableMode token
  | _ => inTableMode token

def inRowMode (token : Token) : Build Outcome := do
  let closeRow : Build Bool := do
    if ← inScopeNamed (·.endsTableScope) "tr" then
      popDownTo (·.endsRow)
      pop
      return true
    else return false
  match token with
  | .startTag t =>
    match t.name with
    | "th" | "td" =>
      popDownTo (·.endsRow)
      insertHtml t
      setMode .inCell
      pushMarker
      return .done
    | "caption" | "col" | "colgroup" | "tbody" | "tfoot" | "thead" | "tr" =>
      return if ← closeRow then .again .inTableBody else .done
    | _ => inTableMode token
  | .endTag t =>
    match t.name with
    | "tr" =>
      if ← closeRow then setMode .inTableBody
      return .done
    | "table" => return if ← closeRow then .again .inTableBody else .done
    | "tbody" | "tfoot" | "thead" =>
      if ← inScopeNamed (·.endsTableScope) t.name then
        return if ← closeRow then .again .inTableBody else .done
      else return .done
    | "body" | "caption" | "col" | "colgroup" | "html" | "td" | "th" => return .done
    | _ => inTableMode token
  | _ => inTableMode token

def inCellMode (token : Token) : Build Outcome := do
  match token with
  | .startTag t =>
    if ["caption", "col", "colgroup", "tbody", "td", "tfoot", "th", "thead", "tr"].contains
        t.name then
      if ← inScope (·.endsTableScope) (·.isHtmlIn ["td", "th"]) then
        closeCell
        return .again .inRow
      else return .done
    else inBodyMode token
  | .endTag t =>
    match t.name with
    | "td" | "th" =>
      if ← inScopeNamed (·.endsTableScope) t.name then
        impliedEnds (·.isImpliedEnd)
        popThroughNamed t.name
        clearToMarker
        setMode .inRow
      return .done
    | "body" | "caption" | "col" | "colgroup" | "html" => return .done
    | "table" | "tbody" | "tfoot" | "thead" | "tr" =>
      if ← inScopeNamed (·.endsTableScope) t.name then
        closeCell
        return .again .inRow
      else return .done
    | _ => inBodyMode token
  | _ => inBodyMode token

end Builder

end BookRules.Markup
