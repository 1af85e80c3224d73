import BookRules.Page.Fields

/-!
# Pages of chapters
-/

namespace BookRules

/-- What a page of a chapter holds. -/
structure ChapterPage where
  text : String
  nextUrls : List String
  deriving DecidableEq, Repr

namespace Page

open Finding (Eval)

def chapterFields (source : Source) (page : Node) : Eval ChapterPage := do
  let nextUrls ← urls page source.chapter.nextContentUrl
  return { text := ← text page source.chapter.content, nextUrls }

/-- What a page of a chapter holds. -/
def chapter (source : Source) (body pageUrl : String) : ChapterPage :=
  read (contextOf source pageUrl) (chapterFields source (Node.parse body))

/-- The text of a whole chapter after the replacement of the source; an empty
text stays empty. -/
def replaced (source : Source) (chapterUrl text : String) : String :=
  let rule := Source.rule source.chapter.replaceRegex
  if rule.isEmpty || text.isEmpty then text
  else (read (contextOf source chapterUrl) (Finding.string? (.text text) rule)).getD ""

end Page

end BookRules
