import BookRules.Markup.Construction.Select

/-!
# HTML, SVG and MathML

HTML is handled by the mode.  Inside SVG and MathML the tags keep their own
vocabulary, until a tag comes that only HTML has, or until the content is one
that is marked as HTML.
-/

namespace BookRules.Markup

namespace Builder

/-- Handle a token in a mode. -/
def inMode : Mode → Token → Build Outcome
  | .initial => initialMode
  | .beforeHtml => beforeHtmlMode
  | .beforeHead => beforeHeadMode
  | .inHead => inHeadMode
  | .afterHead => afterHeadMode
  | .inBody => inBodyMode
  | .text => textMode
  | .inTable => inTableMode
  | .inTableText => inTableTextMode
  | .inCaption => inCaptionMode
  | .inColumnGroup => inColumnGroupMode
  | .inTableBody => inTableBodyMode
  | .inRow => inRowMode
  | .inCell => inCellMode
  | .inSelect => inSelectMode
  | .inSelectInTable => inSelectInTableMode
  | .inTemplate => inTemplateMode
  | .afterBody => afterBodyMode
  | .inFrameset => inFramesetMode
  | .afterFrameset => afterFramesetMode
  | .afterAfterBody => afterAfterBodyMode
  | .afterAfterFrameset => afterAfterFramesetMode

/-- An annotation that says its content is HTML. -/
def isHtmlAnnotation (tag : Tag) : Bool :=
  match tag.value? "encoding" with
  | some value =>
    ["text/html", "application/xhtml+xml"].contains (String.ofList (Text.lowerAscii value.toList))
  | none => false

/-- Whether a token is handled by the rules for SVG and MathML. -/
def isForeign (token : Token) : Build Bool := do
  let b ← get
  match b.openElements with
  | [] => return false
  | id :: _ =>
    let name := b.slots.name id
    let isText := match token with
      | .spaces _ | .letters _ | .nul => true
      | _ => false
    let start? : Option String := match token with
      | .startTag t => some t.name
      | _ => none
    let annotated := name.vocabulary == .math && name.text == "annotation-xml"
    let isHtml := (b.slots.tag? id).elim false isHtmlAnnotation
    return !(token == .finish || name.vocabulary == .html ||
      (name.isMathText && (isText ||
        start?.elim false fun n => n != "mglyph" && n != "malignmark")) ||
      (name.isSvgHtml && (isText || start?.isSome)) ||
      (annotated && (start? == some "svg" || ((isText || start?.isSome) && isHtml))))

/-- Whether marked sections count: the innermost element is not HTML. -/
def allowsSections (b : Builder) : Bool :=
  match b.openElements with
  | id :: _ => (b.slots.name id).vocabulary != .html
  | [] => false

/-- HTML elements that end SVG and MathML. -/
def breakoutNames : List String :=
  ["b", "big", "blockquote", "body", "br", "center", "code", "dd", "div", "dl", "dt", "em",
    "embed", "h1", "h2", "h3", "h4", "h5", "h6", "head", "hr", "i", "img", "li", "listing", "menu",
    "meta", "nobr", "ol", "p", "pre", "ruby", "s", "small", "span", "strong", "strike", "sub",
    "sup", "table", "tt", "u", "ul", "var"]

/-- Leave SVG or MathML and handle the token as HTML. -/
def breakOut (token : Token) : Build Outcome := do
  popDownTo fun n => n.vocabulary == .html || n.isMathText || n.isSvgHtml
  inMode (← get).mode token

/-- The end tag closes the innermost element of its name; HTML around is handled
by its own rules. -/
def foreignEnd (token : Token) (name : String) (first : Bool) : List Nat → Build Outcome
  | [] | [_] => return .done
  | id :: rest => do
    let n ← nameOf id
    if !first && n.vocabulary == .html then inMode (← get).mode token
    else if Text.lowerAscii n.text.toList == Text.lowerAscii name.toList then
      modify ({ · with openElements := rest })
      return .done
    else foreignEnd token name false rest

def foreignMode (token : Token) : Build Outcome := do
  match token with
  | .nul =>
    insertText "\uFFFD"
    return .done
  | .spaces s =>
    insertText s
    return .done
  | .letters s =>
    insertText s
    notFrameset
    return .done
  | .comment c =>
    insertComment c
    return .done
  | .startTag t =>
    let presentational := t.attributes.any fun (n, _) => ["color", "face", "size"].contains n
    if breakoutNames.contains t.name || (t.name = "font" && presentational) then breakOut token
    else insertForeign t (← currentName).vocabulary true
  | .endTag t =>
    if t.name = "br" || t.name = "p" then breakOut token
    else foreignEnd token t.name true (← get).openElements
  | _ => return .done

end Builder

end BookRules.Markup
