import BookRules.Command.Basic
import BookRules.Fetch.Search
import BookRules.Fetch.Walk
import BookRules.Source.Document

/-!
# Running commands

A command reads its files, fetches pages and gives the text it writes.
-/

namespace BookRules.Command

/-- What a command can read: files by name, and the input. -/
structure Surroundings where
  file? : String → Option String
  input : String := ""

/-- Lines of output. -/
def lines (texts : List String) : String :=
  String.join (texts.map (· ++ "\n"))

/-- The sources in a file. -/
def loadSources (env : Surroundings) (name : String) : Attempt (List Source) := do
  match env.file? name with
  | none => throw .file
  | some text => Attempt.ofExcept (Source.readAll text)

/-- The source in a file that is asked for by name or serves an address. -/
def loadSource (env : Surroundings) (file : String) (name : Option String) (url : String) :
    Attempt Source := do
  Attempt.ofExcept (Source.choose (← loadSources env file) name url)

def bookLine (book : FoundBook) : String :=
  book.name ++ "\t" ++ book.author ++ "\t" ++ book.bookUrl ++ "\t[" ++ book.originName ++ "]"

def detailLines (detail : Detail) : List String :=
  ["Name:    " ++ detail.name, "Author:  " ++ detail.author, "Kind:    " ++ detail.kind,
    "Latest:  " ++ detail.lastChapter, "Chapters: " ++ detail.tocUrl] ++
    if detail.intro.isEmpty then [] else ["", detail.intro]

def chapterLine (chapter : Chapter) : String :=
  toString chapter.index ++ "\t" ++ chapter.title ++ "\t" ++ chapter.url

/-- What a rule finds in a document, line by line. -/
def evaluate (rule : String) (document baseUrl : String) (list : Bool) : String :=
  let content := Node.parse document
  let ctx : Context := { baseUrl }
  if list then lines ((Page.read ctx (Finding.strings? content rule)).getD [])
  else lines (Page.read ctx (Finding.string? content rule)).toList

/-- Run a command; gives what it writes. -/
def run (env : Surroundings) (transport : Transport) : Command → Attempt String
  | .search file keyword json => do
    let sources ← loadSources env file
    let books ← ExceptT.lift (searchAll transport sources keyword)
    return if json then lines [(Json.array (books.map FoundBook.toJson)).pretty]
      else lines (books.map bookLine)
  | .info file bookUrl name json => do
    let source ← loadSource env file name bookUrl
    let detail ← bookDetail transport source bookUrl
    return if json then lines [detail.toJson.pretty] else lines (detailLines detail)
  | .toc file bookUrl name json => do
    let source ← loadSource env file name bookUrl
    let detail ← bookDetail transport source bookUrl
    let chapters ← tableOfContents transport source detail.tocUrl
    return if json then lines [(Json.array (chapters.map Chapter.toJson)).pretty]
      else lines (chapters.map chapterLine)
  | .content file chapterUrl name => do
    let source ← loadSource env file name chapterUrl
    return lines [← chapterText transport source chapterUrl none]
  | .eval rule file baseUrl list => do
    let document ← match file with
      | none => pure env.input
      | some name =>
        match env.file? name with
        | none => throw .file
        | some text => pure text
    return evaluate rule document (baseUrl.getD "") list

end BookRules.Command
