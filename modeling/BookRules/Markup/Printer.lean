import BookRules.Markup.Tree

/-!
# Markup text

A tree is written with its attributes in order and every end tag in place.
Text is escaped except inside the elements whose content is raw, and elements
that cannot have content are written as a start tag alone.
-/

namespace BookRules.Markup

def escapeText (c : Char) : List Char :=
  if c == '&' then "&amp;".toList
  else if c == '\u00A0' then "&nbsp;".toList
  else if c == '<' then "&lt;".toList
  else if c == '>' then "&gt;".toList
  else [c]

/-- A character of an attribute value. -/
def escapeValue (c : Char) : List Char :=
  if c == '&' then "&amp;".toList
  else if c == '\u00A0' then "&nbsp;".toList
  else if c == '"' then "&quot;".toList
  else [c]

/-- HTML elements whose text is written as it is. -/
def rawNames : List String :=
  ["style", "script", "xmp", "iframe", "noembed", "noframes", "plaintext", "noscript"]

/-- HTML elements without content. -/
def voidNames : List String :=
  ["area", "base", "basefont", "bgsound", "br", "col", "embed", "frame", "hr", "img", "input",
    "keygen", "link", "meta", "param", "source", "track", "wbr"]

namespace Tag

/-- Text inside the element is written as it is. -/
def isRaw (tag : Tag) : Bool :=
  tag.vocabulary == .html && rawNames.contains tag.name

def isVoid (tag : Tag) : Bool :=
  tag.vocabulary == .html && voidNames.contains tag.name

def startText (tag : Tag) : List Char :=
  '<' :: tag.name.toList ++
    tag.attributes.flatMap (fun a =>
      ' ' :: a.fullName.toList ++ '=' :: '"' :: a.value.toList.flatMap escapeValue ++ ['"']) ++
    ['>']

def endText (tag : Tag) : List Char :=
  '<' :: '/' :: tag.name.toList ++ ['>']

end Tag

mutual

/-- The text of a tree, in front of `tail`.  `raw` says whether text is written
as it is. -/
def Tree.textOnto (raw : Bool) (tail : List Char) : Tree → List Char
  | .text content => if raw then content.toList ++ tail else content.toList.flatMap escapeText ++ tail
  | .comment content => "<!--".toList ++ content.toList ++ "-->".toList ++ tail
  | .doctype name => "<!DOCTYPE ".toList ++ name.toList ++ '>' :: tail
  | .fragment children => Tree.textsOnto raw tail children
  | .element tag children =>
    if tag.isVoid then tag.startText ++ tail
    else tag.startText ++ Tree.textsOnto tag.isRaw (tag.endText ++ tail) children

def Tree.textsOnto (raw : Bool) (tail : List Char) : List Tree → List Char
  | [] => tail
  | tree :: rest => Tree.textOnto raw (Tree.textsOnto raw tail rest) tree

end

namespace Element

/-- The element with its tags. -/
def outerHtml (e : Element) : String :=
  String.ofList ((Tree.element e.tag e.children).textOnto false [])

/-- What is inside the element; its own text is escaped whatever the element. -/
def innerHtml (e : Element) : String :=
  String.ofList (Tree.textsOnto false [] e.children)

/-- Elements that stand on lines of their own. -/
def blockNames : List String :=
  ["address", "article", "aside", "blockquote", "br", "dd", "div", "dl", "dt", "footer", "form",
    "h1", "h2", "h3", "h4", "h5", "h6", "header", "hr", "li", "main", "nav", "ol", "p", "pre",
    "section", "table", "td", "th", "tr", "ul"]

mutual

/-- The text a reader sees, in front of `tail`: without scripts and styles, with
spaces around blocks, down to `depth` levels of elements. -/
def visibleOnto (depth : Nat) (tail : List Char) : Tree → List Char
  | .text content => content.toList ++ tail
  | .element tag children =>
    if tag.name = "script" || tag.name = "style" then tail
    else
      let block := blockNames.contains tag.name
      let after := if block then ' ' :: tail else tail
      let inside := match depth with
        | 0 => after
        | depth + 1 => visiblesOnto depth after children
      if block then ' ' :: inside else inside
  | _ => tail

def visiblesOnto (depth : Nat) (tail : List Char) : List Tree → List Char
  | [] => tail
  | tree :: rest => visibleOnto depth (visiblesOnto depth tail rest) tree

end

/-- The text a reader sees, with single spaces between words. -/
def text (e : Element) : String :=
  Text.normalize [String.ofList (visiblesOnto Limits.textDepth [] e.children)]

/-- The texts directly inside the element. -/
def directTexts (e : Element) : List String :=
  e.children.filterMap fun
    | .text content => some content
    | _ => none

/-- The text directly inside the element, with single spaces between words. -/
def ownText (e : Element) : String :=
  Text.normalize e.directTexts

/-- The texts directly inside the element, trimmed, blank ones left out. -/
def textNodes (e : Element) : List String :=
  (e.directTexts.map Text.trimmed).filter fun t => !t.isEmpty

end Element

end BookRules.Markup
