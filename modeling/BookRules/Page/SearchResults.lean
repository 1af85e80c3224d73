import BookRules.Page.Fields

/-!
# Pages of search results

Every row with a name is a book.
-/

namespace BookRules

structure FoundBook where
  name : String
  author : String
  kind : String
  wordCount : String
  lastChapter : String
  intro : String
  coverUrl : Option String
  bookUrl : String
  /-- The address of the source that found it. -/
  origin : String
  originName : String
  deriving DecidableEq, Repr

namespace FoundBook

def toJson (book : FoundBook) : Json :=
  .object [
    ("name", .string book.name), ("author", .string book.author), ("kind", .string book.kind),
    ("wordCount", .string book.wordCount), ("lastChapter", .string book.lastChapter),
    ("intro", .string book.intro),
    ("coverUrl", (book.coverUrl.map .string).getD .null), ("bookUrl", .string book.bookUrl),
    ("origin", .string book.origin), ("originName", .string book.originName)]

end FoundBook

namespace Page

open Finding (Eval)

/-- The book of a row, if it has a name.  A row without an address of its own
stands for the page. -/
def foundBook? (source : Source) (pageUrl : String) (row : Node) : Eval (Option FoundBook) := do
  let rules := source.search
  let name ← text row rules.name
  if name.isEmpty then return none
  return some {
    name
    author := ← text row rules.author
    kind := ← text row rules.kind
    wordCount := ← text row rules.wordCount
    lastChapter := ← text row rules.lastChapter
    intro := ← text row rules.intro
    coverUrl := ← url? row rules.coverUrl
    bookUrl := (← url? row rules.bookUrl).getD pageUrl
    origin := source.url
    originName := source.name }

def foundBooks (source : Source) (page : Node) (pageUrl : String) : Eval (List FoundBook) := do
  let (rule, reversed) := listRule (Source.rule source.search.bookList)
  let rows ← Finding.elements page rule
  let books ← (if reversed then rows.reverse else rows).mapM (foundBook? source pageUrl)
  return books.filterMap id

def searchResults (source : Source) (body pageUrl keyword : String) (number : Nat) :
    List FoundBook :=
  let ctx := ((contextOf source pageUrl).put "key" keyword).put "page" (toString number)
  read ctx (foundBooks source (Node.parse body) pageUrl)

end Page

end BookRules
