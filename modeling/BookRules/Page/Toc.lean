import BookRules.Page.Fields

/-!
# Pages of lists of chapters

Every row with a title is a chapter.  A page may link to further pages of the
list; links to itself do not count.
-/

namespace BookRules

/-- A row of a list of chapters. -/
structure ChapterLink where
  title : String
  url : String
  deriving DecidableEq, Repr

/-- A chapter with its place in the list. -/
structure Chapter where
  index : Nat
  title : String
  url : String
  deriving DecidableEq, Repr

namespace Chapter

/-- Number the rows of a list. -/
def number (links : List ChapterLink) : List Chapter :=
  links.mapIdx fun index link => { index, title := link.title, url := link.url }

def toJson (chapter : Chapter) : Json :=
  .object [("index", .number (.whole chapter.index)), ("title", .string chapter.title),
    ("url", .string chapter.url)]

end Chapter

/-- What a page of a list of chapters holds. -/
structure TocPage where
  links : List ChapterLink
  nextUrls : List String
  deriving DecidableEq, Repr

namespace Page

open Finding (Eval)

/-- The chapter of a row, if it has a title.  A row without an address of its own
stands for the page. -/
def chapterLink? (source : Source) (pageUrl : String) (row : Node) : Eval (Option ChapterLink) := do
  let title ← text row source.toc.chapterName
  if title.isEmpty then return none
  return some { title, url := (← url? row source.toc.chapterUrl).getD pageUrl }

def tocFields (source : Source) (page : Node) (pageUrl : String) : Eval TocPage := do
  let next ← urls page source.toc.nextTocUrl
  let rows ← Finding.elements page (listRule (Source.rule source.toc.chapterList)).1
  let links ← rows.mapM (chapterLink? source pageUrl)
  return { links := links.filterMap id, nextUrls := next.filter (· != pageUrl) }

/-- What a page of a list of chapters holds. -/
def toc (source : Source) (body pageUrl : String) : TocPage :=
  read (contextOf source pageUrl) (tocFields source (Node.parse body) pageUrl)

end Page

end BookRules
