import BookRules.Markup.Printer
import BookRules.Unicode.CaseMap

/-!
# Extraction

The last word of a rule for pages says what is taken from the elements that the
rule selects: their text, their markup, or the value of an attribute.  Empty
texts are dropped, and an attribute value that occurs again is dropped too.
-/

namespace BookRules.Select

open BookRules.Markup (Element)

/-- What is taken from an element. -/
inductive Extraction
  /-- All text inside. -/
  | text
  /-- The texts directly inside, one on a line. -/
  | textNodes
  /-- The text directly inside. -/
  | ownText
  /-- The markup inside, without scripts and styles. -/
  | inner
  /-- The markup with the element's own tags. -/
  | outer
  | attr (name : String)
  deriving DecidableEq, Repr

namespace Extraction

/-- The extraction a word stands for. -/
def ofWord (word : String) : Extraction :=
  match Text.trimmed word with
  | "text" => .text
  | "textNodes" => .textNodes
  | "ownText" => .ownText
  | "html" => .inner
  | "all" => .outer
  | name => .attr name

/-- What follows the end tag that the text starts with. -/
def afterEndTag? (name cs : List Char) : Option (List Char) :=
  match cs with
  | '<' :: '/' :: rest =>
    match (Unicode.afterFolded? name rest).map (·.dropWhile Text.isBlank) with
    | some ('>' :: rest) => some rest
    | _ => none
  | _ => none

/-- What follows the first end tag. -/
def pastEndTag? (name : List Char) : List Char → Option (List Char)
  | [] => none
  | c :: rest =>
    match afterEndTag? name (c :: rest) with
    | some after => some after
    | none => pastEndTag? name rest

/-- What follows the element that the text starts with. -/
def pastElement? (name cs : List Char) : Option (List Char) :=
  match cs with
  | '<' :: rest =>
    match Unicode.afterFolded? name rest with
    | none => none
    | some rest =>
      if rest.head?.any fun c => Unicode.isWord c.toNat then none
      else match rest.dropWhile (· != '>') with
        | '>' :: rest => pastEndTag? name rest
        | _ => none
  | _ => none

/-- Leave out scripts and styles. -/
def withoutScriptsWith : Nat → List Char → List Char
  | 0, cs => cs
  | _ + 1, [] => []
  | fuel + 1, c :: rest =>
    match (pastElement? "script".toList (c :: rest)).or
        (pastElement? "style".toList (c :: rest)) with
    | some after => withoutScriptsWith fuel after
    | none => c :: withoutScriptsWith fuel rest

/-- Markup without its scripts and styles. -/
def withoutScripts (markup : String) : String :=
  String.ofList (withoutScriptsWith (markup.length + 1) markup.toList)

/-- The text an element gives, which may be empty. -/
def take? (extraction : Extraction) (e : Element) : Option String :=
  match extraction with
  | .text => some e.text
  | .textNodes => some ("\n".intercalate e.textNodes)
  | .ownText => some e.ownText
  | .inner => some (Text.trimmed (withoutScripts e.innerHtml))
  | .outer => some e.outerHtml
  | .attr name => e.tag.value? name

/-- The texts that elements give, in order. -/
def apply (extraction : Extraction) (elements : List Element) : List String :=
  let texts := elements.filterMap extraction.take?
  match extraction with
  | .attr _ => (texts.filter fun t => !Text.isBlankText t).eraseDups
  | _ => texts.filter fun t => !t.isEmpty

end Extraction

end BookRules.Select
