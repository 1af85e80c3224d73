import BookRules.Page.Fields

/-!
# Pages of books
-/

namespace BookRules

/-- What the page of a book tells. -/
structure Detail where
  name : String
  author : String
  intro : String
  kind : String
  wordCount : String
  lastChapter : String
  coverUrl : Option String
  bookUrl : String
  /-- Where the list of chapters is. -/
  tocUrl : String
  deriving DecidableEq, Repr

namespace Detail

def toJson (detail : Detail) : Json :=
  .object [
    ("name", .string detail.name), ("author", .string detail.author),
    ("intro", .string detail.intro), ("kind", .string detail.kind),
    ("wordCount", .string detail.wordCount), ("lastChapter", .string detail.lastChapter),
    ("coverUrl", (detail.coverUrl.map .string).getD .null), ("bookUrl", .string detail.bookUrl),
    ("tocUrl", .string detail.tocUrl)]

end Detail

namespace Page

open Finding (Eval)

/-- The part of a page that the rules are applied to: the first match of the
`init` rule, or the whole page. -/
def scope (page : Node) (init : Option String) : Eval Node := do
  let rule := Source.rule init
  if rule.isEmpty then return page
  return (← Finding.elements page rule).head?.getD page

def detailFields (source : Source) (page : Node) (bookUrl : String) : Eval Detail := do
  let rules := source.detail
  let part ← scope page rules.init
  return {
    name := ← text part rules.name
    author := ← text part rules.author
    intro := ← text part rules.intro
    kind := ← text part rules.kind
    wordCount := ← text part rules.wordCount
    lastChapter := ← text part rules.lastChapter
    coverUrl := ← url? part rules.coverUrl
    bookUrl
    tocUrl := (← url? part rules.tocUrl).getD bookUrl }

/-- The fields on the page of a book. -/
def detail (source : Source) (body bookUrl : String) : Detail :=
  read (contextOf source bookUrl) (detailFields source (Node.parse body) bookUrl)

end Page

end BookRules
