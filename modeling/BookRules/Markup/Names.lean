import BookRules.Markup.Tree
import BookRules.Markup.Token.Lexer

/-!
# Element and attribute names

The groups of element names that the construction of a tree goes by, the
spelling of mixed-case names in SVG and MathML, and the document types that
stand for old pages.
-/

namespace BookRules.Markup

/-- The name of an element without its attributes. -/
structure Name where
  vocabulary : Vocabulary
  text : String
  deriving DecidableEq, Repr

def Tag.fullName (tag : Tag) : Name :=
  { vocabulary := tag.vocabulary, text := tag.name }

namespace Name

/-- An HTML element with one of these names. -/
def isHtmlIn (n : Name) (names : List String) : Bool :=
  n.vocabulary == .html && names.contains n.text

/-- An HTML element of this name. -/
def isHtml (n : Name) (name : String) : Bool :=
  n.vocabulary == .html && n.text == name

/-- MathML elements whose content is text. -/
def isMathText (n : Name) : Bool :=
  n.vocabulary == .math && ["mi", "mo", "mn", "ms", "mtext"].contains n.text

/-- SVG elements whose content is HTML. -/
def isSvgHtml (n : Name) : Bool :=
  n.vocabulary == .svg && ["foreignObject", "desc", "title"].contains n.text

/-- Elements at which a search for an open element stops. -/
def endsScope (n : Name) : Bool :=
  n.isHtmlIn ["applet", "caption", "html", "table", "td", "th", "marquee", "object", "template"] ||
    n.isMathText || n.isSvgHtml

def endsListScope (n : Name) : Bool :=
  n.endsScope || n.isHtmlIn ["ol", "ul"]

def endsButtonScope (n : Name) : Bool :=
  n.endsScope || n.isHtml "button"

def endsTableScope (n : Name) : Bool :=
  n.isHtmlIn ["html", "table", "template"]

def endsSelectScope (n : Name) : Bool :=
  !n.isHtmlIn ["optgroup", "option"]

def endsTableBody (n : Name) : Bool :=
  n.isHtmlIn ["tbody", "tfoot", "thead", "template", "html"]

def endsRow (n : Name) : Bool :=
  n.isHtmlIn ["tr", "template", "html"]

/-- Elements inside which text goes in front of the table. -/
def isTablePart (n : Name) : Bool :=
  n.isHtmlIn ["table", "tbody", "tfoot", "thead", "tr"]

def headings : List String :=
  ["h1", "h2", "h3", "h4", "h5", "h6"]

/-- Elements whose end tag may be left out. -/
def isImpliedEnd (n : Name) : Bool :=
  n.isHtmlIn ["dd", "dt", "li", "option", "optgroup", "p", "rb", "rp", "rt", "rtc"]

def isThoroughEnd (n : Name) : Bool :=
  n.isImpliedEnd ||
    n.isHtmlIn ["caption", "colgroup", "tbody", "td", "tfoot", "th", "thead", "tr"]

/-- Elements that an end tag of another name does not close. -/
def isSpecial (n : Name) : Bool :=
  n.isHtmlIn ["address", "applet", "area", "article", "aside", "base", "basefont", "bgsound",
      "blockquote", "body", "br", "button", "caption", "center", "col", "colgroup", "dd",
      "details", "dir", "div", "dl", "dt", "embed", "fieldset", "figcaption", "figure", "footer",
      "form", "frame", "frameset", "h1", "h2", "h3", "h4", "h5", "h6", "head", "header", "hgroup",
      "hr", "html", "iframe", "img", "input", "isindex", "li", "link", "listing", "main",
      "marquee", "menu", "meta", "nav", "noembed", "noframes", "noscript", "object", "ol", "p",
      "param", "plaintext", "pre", "script", "section", "select", "source", "style", "summary",
      "table", "tbody", "td", "template", "textarea", "tfoot", "th", "thead", "title", "tr",
      "track", "ul", "wbr", "xmp"] ||
    (n.vocabulary == .math &&
      ["mi", "mo", "mn", "ms", "mtext", "annotation-xml"].contains n.text) ||
    n.isSvgHtml

end Name

/-- Find a word in lines of words by its lower-case form. -/
def respell (lines : List String) (name : String) : String :=
  match (lines.flatMap fun line => Text.words line.toList).find? fun w =>
      w.map Char.toLower == name.toList with
  | some w => String.ofList w
  | none => name

/-- The spelling of an SVG element. -/
def svgElementName (name : String) : String :=
  respell
    ["altGlyph altGlyphDef altGlyphItem animateColor animateMotion animateTransform",
      "clipPath feBlend feColorMatrix feComponentTransfer feComposite feConvolveMatrix",
      "feDiffuseLighting feDisplacementMap feDistantLight feDropShadow feFlood feFuncA",
      "feFuncB feFuncG feFuncR feGaussianBlur feImage feMerge feMergeNode feMorphology",
      "feOffset fePointLight feSpecularLighting feSpotLight feTile feTurbulence",
      "foreignObject glyphRef linearGradient radialGradient textPath"] name

/-- The spelling of an SVG attribute. -/
def svgAttributeName (name : String) : String :=
  respell
    ["attributeName attributeType baseFrequency baseProfile calcMode clipPathUnits",
      "diffuseConstant edgeMode filterUnits glyphRef gradientTransform gradientUnits",
      "kernelMatrix kernelUnitLength keyPoints keySplines keyTimes lengthAdjust",
      "limitingConeAngle markerHeight markerUnits markerWidth maskContentUnits",
      "maskUnits numOctaves pathLength patternContentUnits patternTransform",
      "patternUnits pointsAtX pointsAtY pointsAtZ preserveAlpha preserveAspectRatio",
      "primitiveUnits refX refY repeatCount repeatDur requiredExtensions",
      "requiredFeatures specularConstant specularExponent spreadMethod startOffset",
      "stdDeviation stitchTiles surfaceScale systemLanguage tableValues targetX targetY",
      "textLength viewBox viewTarget xChannelSelector yChannelSelector zoomAndPan"] name

/-- An attribute of an SVG or MathML element. -/
def foreignAttribute (name value : String) : Attribute :=
  let spaced (space : AttributeSpace) (mark : String) (names : List String) : Option Attribute :=
    names.findSome? fun n =>
      if name = mark ++ n then some { space, name := n, value } else none
  let found :=
    spaced .xlink "xlink:" ["actuate", "arcrole", "href", "role", "show", "title", "type"] <|>
      spaced .xml "xml:" ["lang", "space"] <|>
      spaced .xmlns "xmlns:" ["xlink"] <|>
      spaced .xmlns "" ["xmlns"]
  found.getD { space := .none, name, value }

/-- The element a start tag stands for in a vocabulary. -/
def TagToken.element (t : TagToken) (vocabulary : Vocabulary) (adjustName : Bool) : Tag :=
  let make (name value : String) : Attribute :=
    match vocabulary with
    | .html => { space := .none, name, value }
    | .svg => foreignAttribute (svgAttributeName name) value
    | .math => foreignAttribute (if name = "definitionurl" then "definitionURL" else name) value
  { vocabulary
    name := if adjustName && vocabulary == .svg then svgElementName t.name else t.name
    attributes := t.attributes.foldl (fun sorted (name, value) =>
      (make name value).insert sorted) [] }

namespace DoctypeToken

/-- Public identifiers of old pages, by their beginnings. -/
def oldPublicFronts : List String :=
  ["+//silmaril//dtd html pro v0r11 19970101//", "-//advasoft ltd//dtd html 3.0 aswedit + extensions//",
    "-//as//dtd html 3.0 aswedit + extensions//", "-//ietf//dtd html 2.0 level 1//",
    "-//ietf//dtd html 2.0 level 2//", "-//ietf//dtd html 2.0 strict level 1//",
    "-//ietf//dtd html 2.0 strict level 2//", "-//ietf//dtd html 2.0 strict//",
    "-//ietf//dtd html 2.0//", "-//ietf//dtd html 2.1e//", "-//ietf//dtd html 3.0//",
    "-//ietf//dtd html 3.2 final//", "-//ietf//dtd html 3.2//", "-//ietf//dtd html 3//",
    "-//ietf//dtd html level 0//", "-//ietf//dtd html level 1//", "-//ietf//dtd html level 2//",
    "-//ietf//dtd html level 3//", "-//ietf//dtd html strict level 0//",
    "-//ietf//dtd html strict level 1//", "-//ietf//dtd html strict level 2//",
    "-//ietf//dtd html strict level 3//", "-//ietf//dtd html strict//", "-//ietf//dtd html//",
    "-//metrius//dtd metrius presentational//",
    "-//microsoft//dtd internet explorer 2.0 html strict//",
    "-//microsoft//dtd internet explorer 2.0 html//",
    "-//microsoft//dtd internet explorer 2.0 tables//",
    "-//microsoft//dtd internet explorer 3.0 html strict//",
    "-//microsoft//dtd internet explorer 3.0 html//",
    "-//microsoft//dtd internet explorer 3.0 tables//", "-//netscape comm. corp.//dtd html//",
    "-//netscape comm. corp.//dtd strict html//", "-//o'reilly and associates//dtd html 2.0//",
    "-//o'reilly and associates//dtd html extended 1.0//",
    "-//o'reilly and associates//dtd html extended relaxed 1.0//",
    "-//softquad software//dtd hotmetal pro 6.0::19990601::extensions to html 4.0//",
    "-//softquad//dtd hotmetal pro 4.0::19971010::extensions to html 4.0//",
    "-//spyglass//dtd html 2.0 extended//", "-//sq//dtd html 2.0 hotmetal + extensions//",
    "-//sun microsystems corp.//dtd hotjava html//",
    "-//sun microsystems corp.//dtd hotjava strict html//", "-//w3c//dtd html 3 1995-03-24//",
    "-//w3c//dtd html 3.2 draft//", "-//w3c//dtd html 3.2 final//", "-//w3c//dtd html 3.2//",
    "-//w3c//dtd html 3.2s draft//", "-//w3c//dtd html 4.0 frameset//",
    "-//w3c//dtd html 4.0 transitional//", "-//w3c//dtd html experimental 19960712//",
    "-//w3c//dtd html experimental 970421//", "-//w3c//dtd w3 html//", "-//w3o//dtd w3 html 3.0//",
    "-//webtechs//dtd mozilla html 2.0//", "-//webtechs//dtd mozilla html//"]

/-- Public identifiers of old pages unless a system identifier follows. -/
def mixedPublicFronts : List String :=
  ["-//w3c//dtd html 4.01 frameset//", "-//w3c//dtd html 4.01 transitional//"]

/-- Whether a document type stands for an old page, whose paragraphs may hold
tables. -/
def isOld (d : DoctypeToken) : Bool :=
  let lower (s : String) := String.ofList (Text.lowerAscii s.toList)
  let publicId := lower (d.publicId.getD "")
  let startsWith (front : String) := publicId.startsWith front
  d.broken || d.name != some "html" ||
    ["-//w3o//dtd w3 html strict 3.0//en//", "-/w3c/dtd html 4.0 transitional/en", "html"].contains
      publicId ||
    d.systemId.map lower == some "http://www.ibm.com/data/dtd/v11/ibmxhtml1-transitional.dtd" ||
    oldPublicFronts.any startsWith ||
    (d.systemId.isNone && mixedPublicFronts.any startsWith)

end DoctypeToken

end BookRules.Markup
