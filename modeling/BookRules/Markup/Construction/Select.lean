import BookRules.Markup.Construction.Table

/-!
# Selections and framesets

What happens to a token in a list of options.  Only options, groups and rules
stay there; tags of controls and of tables around it close the list.

In a frameset and after it frames and comments are kept, all other content is
dropped.
-/

namespace BookRules.Markup

namespace Builder

def inSelectMode (token : Token) : Build Outcome := do
  let leave : Build Bool := do
    if ← inScopeNamed (·.endsSelectScope) "select" then
      popThroughNamed "select"
      return true
    else return false
  let endOptions : Build Unit := do
    if ← currentIs "option" then pop
    if ← currentIs "optgroup" then pop
  match token with
  | .nul => return .done
  | .spaces s | .letters s =>
    insertText s
    return .done
  | .comment c =>
    insertComment c
    return .done
  | .startTag t =>
    match t.name with
    | "html" => rootAgain t
    | "option" =>
      if ← currentIs "option" then pop
      insertHtml t
      return .done
    | "optgroup" =>
      endOptions
      insertHtml t
      return .done
    | "hr" =>
      endOptions
      insertHtmlLeaf t
      return .done
    | "select" =>
      if ← leave then setMode (← resetMode)
      return .done
    | "input" | "keygen" | "textarea" =>
      if ← leave then return .again (← resetMode) else return .done
    | "script" | "template" => inHeadMode token
    | _ => return .done
  | .endTag t =>
    match t.name with
    | "optgroup" =>
      let b ← get
      match b.openElements with
      | a :: o :: _ =>
        if (b.slots.name a).isHtml "option" && (b.slots.name o).isHtml "optgroup" then pop
      | _ => pure ()
      if ← currentIs "optgroup" then pop
      return .done
    | "option" =>
      if ← currentIs "option" then pop
      return .done
    | "select" =>
      if ← leave then setMode (← resetMode)
      return .done
    | "template" => endTemplate
    | _ => return .done
  | .finish => inBodyMode token
  | .doctype _ => return .done

def inSelectInTableMode (token : Token) : Build Outcome := do
  let tableNames := ["caption", "table", "tbody", "tfoot", "thead", "tr", "td", "th"]
  match token with
  | .startTag t =>
    if tableNames.contains t.name then
      popThroughNamed "select"
      return .again (← resetMode)
    else inSelectMode token
  | .endTag t =>
    if tableNames.contains t.name then
      if ← inScopeNamed (·.endsTableScope) t.name then
        popThroughNamed "select"
        return .again (← resetMode)
      else return .done
    else inSelectMode token
  | _ => inSelectMode token

def inFramesetMode (token : Token) : Build Outcome := do
  match token with
  | .spaces s =>
    insertText s
    return .done
  | .comment c =>
    insertComment c
    return .done
  | .startTag t =>
    match t.name with
    | "html" => rootAgain t
    | "frameset" =>
      insertHtml t
      return .done
    | "frame" =>
      insertHtmlLeaf t
      return .done
    | "noframes" => inHeadMode token
    | _ => return .done
  | .endTag t =>
    if t.name = "frameset" && 1 < (← get).openElements.length then
      pop
      if !(← currentIs "frameset") then setMode .afterFrameset
    return .done
  | _ => return .done

def afterFramesetMode (token : Token) : Build Outcome := do
  match token with
  | .spaces s =>
    insertText s
    return .done
  | .comment c =>
    insertComment c
    return .done
  | .startTag t =>
    match t.name with
    | "html" => rootAgain t
    | "noframes" => inHeadMode token
    | _ => return .done
  | .endTag t =>
    if t.name = "html" then setMode .afterAfterFrameset
    return .done
  | _ => return .done

def afterAfterFramesetMode (token : Token) : Build Outcome := do
  match token with
  | .spaces _ => inBodyMode token
  | .comment c =>
    insertCommentIn 0 c
    return .done
  | .startTag t =>
    match t.name with
    | "html" => rootAgain t
    | "noframes" => inHeadMode token
    | _ => return .done
  | _ => return .done

end Builder

end BookRules.Markup
