import BookRules.Fetch.Transport
import BookRules.Limits
import BookRules.Markup.Paragraphs
import BookRules.Page.Chapter
import BookRules.Page.Detail
import BookRules.Page.Toc

/-!
# Walks over pages

A list of chapters and a chapter may be spread over several pages, each of which
links to the next ones.  The pages of a list are visited breadth first, those of
a chapter one after the other, no page twice and only so many of them.  A fault
on the first page is the fault of the walk; a later page that cannot be fetched
ends the walk with what was read before.
-/

namespace BookRules

/-- The page of a book. -/
def bookDetail (transport : Transport) (source : Source) (bookUrl : String) : Attempt Detail := do
  let request ← Attempt.ofExcept (Request.forSource source bookUrl)
  let body ← Attempt.fetch transport request
  return Page.detail source body request.url

/-- Fetch a page of a walk; nothing when a later page cannot be fetched. -/
def walkPage? (transport : Transport) (source : Source) (first : Bool) (pageUrl : String) :
    Attempt (Option (Request × String)) := do
  let request ← Attempt.ofExcept (Request.forSource source pageUrl)
  match ← Attempt.answer transport request with
  | .ok body => return some (request, body)
  | .error fault => if first then throw fault else return none

namespace TocWalk

/-- Leave out rows whose address occurred before; `seen` holds the addresses. -/
def newLinks (seen : List String) : List ChapterLink → List ChapterLink
  | [] => []
  | link :: rest =>
    if seen.contains link.url then newLinks seen rest
    else link :: newLinks (link.url :: seen) rest

/-- Visit the pages of a queue, at most `left` of them; `visited` holds the pages
visited before.  Gives the rows of every page in the order of visits. -/
def visit (transport : Transport) (source : Source) : Nat → List String → List String →
    Attempt (List ChapterLink)
  | 0, _, _ => return []
  | left + 1, visited, queue => do
    match queue.dropWhile visited.contains with
    | [] => return []
    | pageUrl :: rest =>
      match ← walkPage? transport source visited.isEmpty pageUrl with
      | none => return []
      | some (request, body) =>
        let page := Page.toc source body request.url
        let visited := pageUrl :: visited
        let next := page.nextUrls.filter fun url => !visited.contains url
        return page.links ++ (← visit transport source left visited (rest ++ next))

/-- The chapters of the rows of all pages: each address once, if rows have
addresses of their own, in the order that the rule of the list asks for. -/
def chapters (source : Source) (links : List ChapterLink) : List Chapter :=
  let links := if (Source.rule source.toc.chapterUrl).isEmpty then links else newLinks [] links
  let reversed := (Page.listRule (Source.rule source.toc.chapterList)).2
  Chapter.number (if reversed then links.reverse else links)

end TocWalk

/-- The chapters of a book. -/
def tableOfContents (transport : Transport) (source : Source) (tocUrl : String) :
    Attempt (List Chapter) := do
  let first ← Attempt.ofExcept (Request.forSource source tocUrl)
  let links ← TocWalk.visit transport source Limits.tocPages [] [first.url]
  return TocWalk.chapters source links

namespace ChapterWalk

/-- Visit the pages of a chapter, at most `left` of them, up to the chapter that
follows.  Gives the texts of the pages. -/
def visit (transport : Transport) (source : Source) (following : Option String) :
    Nat → List String → String → Attempt (List String)
  | 0, _, _ => return []
  | left + 1, visited, pageUrl => do
    match ← walkPage? transport source visited.isEmpty pageUrl with
    | none => return []
    | some (request, body) =>
      let page := Page.chapter source body request.url
      let visited := pageUrl :: visited
      let next := page.nextUrls.find? fun url => !visited.contains url && some url != following
      match next with
      | none => return [page.text]
      | some next => return page.text :: (← visit transport source following left visited next)

end ChapterWalk

def chapterText (transport : Transport) (source : Source) (chapterUrl : String)
    (following : Option String) : Attempt String := do
  let first ← Attempt.ofExcept (Request.forSource source chapterUrl)
  let texts ← ChapterWalk.visit transport source following Limits.chapterPages [] first.url
  return Page.replaced source chapterUrl (Markup.Paragraphs.format ("\n".intercalate texts))

end BookRules
