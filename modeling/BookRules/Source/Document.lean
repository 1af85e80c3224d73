import BookRules.Source.Basic

/-!
# Documents with sources

Sources are kept as JSON: an object, or an array of objects.  Members that are
not known are passed over and missing ones have a default; a member with a value
of the wrong kind makes the document unusable.  In place of an object an array
may stand, which holds the members in their order, as many of them as it has.
-/

namespace BookRules.Source

/-- The members of a document, by name. -/
def fieldsOf? (names : List String) : Json → Option (String → Option Json)
  | .object members => some fun name => Json.lookup? name members
  | .array items =>
    if names.length < items.length then none else some fun name => items[names.idxOf name]?
  | _ => none

/-- A text that may be missing. -/
def optionalText? : Option Json → Option (Option String)
  | none | some .null => some none
  | some (.string s) => some (some s)
  | _ => none

def text? : Option Json → Option String
  | none => some ""
  | some (.string s) => some s
  | _ => none

def flag? (default_ : Bool) : Option Json → Option Bool
  | none => some default_
  | some (.bool b) => some b
  | _ => none

/-- A group of rules; an empty one when it is missing. -/
def group? {α : Type} (default_ : α) (read? : Json → Option α) : Option Json → Option α
  | none => some default_
  | some doc => read? doc

def searchNames : List String :=
  ["bookList", "name", "author", "kind", "wordCount", "lastChapter", "intro", "coverUrl", "bookUrl"]

def detailNames : List String :=
  ["init", "name", "author", "intro", "kind", "wordCount", "lastChapter", "coverUrl", "tocUrl"]

def tocNames : List String :=
  ["chapterList", "chapterName", "chapterUrl", "nextTocUrl"]

def chapterNames : List String :=
  ["content", "nextContentUrl", "replaceRegex"]

def sourceNames : List String :=
  ["bookSourceName", "bookSourceUrl", "bookSourceGroup", "enabled", "header", "searchUrl",
    "ruleSearch", "ruleBookInfo", "ruleToc", "ruleContent"]

def searchRules? (doc : Json) : Option SearchRules := do
  let field ← fieldsOf? searchNames doc
  return {
    bookList := ← optionalText? (field "bookList")
    name := ← optionalText? (field "name")
    author := ← optionalText? (field "author")
    kind := ← optionalText? (field "kind")
    wordCount := ← optionalText? (field "wordCount")
    lastChapter := ← optionalText? (field "lastChapter")
    intro := ← optionalText? (field "intro")
    coverUrl := ← optionalText? (field "coverUrl")
    bookUrl := ← optionalText? (field "bookUrl") }

def detailRules? (doc : Json) : Option DetailRules := do
  let field ← fieldsOf? detailNames doc
  return {
    init := ← optionalText? (field "init")
    name := ← optionalText? (field "name")
    author := ← optionalText? (field "author")
    intro := ← optionalText? (field "intro")
    kind := ← optionalText? (field "kind")
    wordCount := ← optionalText? (field "wordCount")
    lastChapter := ← optionalText? (field "lastChapter")
    coverUrl := ← optionalText? (field "coverUrl")
    tocUrl := ← optionalText? (field "tocUrl") }

def tocRules? (doc : Json) : Option TocRules := do
  let field ← fieldsOf? tocNames doc
  return {
    chapterList := ← optionalText? (field "chapterList")
    chapterName := ← optionalText? (field "chapterName")
    chapterUrl := ← optionalText? (field "chapterUrl")
    nextTocUrl := ← optionalText? (field "nextTocUrl") }

def chapterRules? (doc : Json) : Option ChapterRules := do
  let field ← fieldsOf? chapterNames doc
  return {
    content := ← optionalText? (field "content")
    nextContentUrl := ← optionalText? (field "nextContentUrl")
    replaceRegex := ← optionalText? (field "replaceRegex") }

/-- Read a source. -/
def ofJson? (doc : Json) : Option Source := do
  let field ← fieldsOf? sourceNames doc
  return {
    name := ← text? (field "bookSourceName")
    url := ← text? (field "bookSourceUrl")
    group := ← optionalText? (field "bookSourceGroup")
    enabled := ← flag? true (field "enabled")
    header := ← optionalText? (field "header")
    searchUrl := ← optionalText? (field "searchUrl")
    search := ← group? {} searchRules? (field "ruleSearch")
    detail := ← group? {} detailRules? (field "ruleBookInfo")
    toc := ← group? {} tocRules? (field "ruleToc")
    chapter := ← group? {} chapterRules? (field "ruleContent") }

def optionalJson : Option String → Json
  | some s => .string s
  | none => .null

/-- Write a source, every member of it. -/
def toJson (source : Source) : Json :=
  let { search, detail, toc, chapter, .. } := source
  .object [
    ("bookSourceName", .string source.name), ("bookSourceUrl", .string source.url),
    ("bookSourceGroup", optionalJson source.group), ("enabled", .bool source.enabled),
    ("header", optionalJson source.header), ("searchUrl", optionalJson source.searchUrl),
    ("ruleSearch", .object [
      ("bookList", optionalJson search.bookList), ("name", optionalJson search.name),
      ("author", optionalJson search.author), ("kind", optionalJson search.kind),
      ("wordCount", optionalJson search.wordCount),
      ("lastChapter", optionalJson search.lastChapter), ("intro", optionalJson search.intro),
      ("coverUrl", optionalJson search.coverUrl), ("bookUrl", optionalJson search.bookUrl)]),
    ("ruleBookInfo", .object [
      ("init", optionalJson detail.init), ("name", optionalJson detail.name),
      ("author", optionalJson detail.author), ("intro", optionalJson detail.intro),
      ("kind", optionalJson detail.kind), ("wordCount", optionalJson detail.wordCount),
      ("lastChapter", optionalJson detail.lastChapter),
      ("coverUrl", optionalJson detail.coverUrl), ("tocUrl", optionalJson detail.tocUrl)]),
    ("ruleToc", .object [
      ("chapterList", optionalJson toc.chapterList), ("chapterName", optionalJson toc.chapterName),
      ("chapterUrl", optionalJson toc.chapterUrl), ("nextTocUrl", optionalJson toc.nextTocUrl)]),
    ("ruleContent", .object [
      ("content", optionalJson chapter.content),
      ("nextContentUrl", optionalJson chapter.nextContentUrl),
      ("replaceRegex", optionalJson chapter.replaceRegex)])]

/-- Read the sources of a document; the first one that cannot be used makes all
of it unusable. -/
def readAll (text : String) : Except Fault (List Source) :=
  let checked (sources : Option (List Source)) : Except Fault (List Source) :=
    match sources with
    | none => .error .json
    | some sources => (sources.mapM check).mapError .source
  match Json.parse? text.toList with
  | none => .error .json
  | some (.array items) => checked (items.mapM ofJson?)
  | some (.object members) => checked ((ofJson? (.object members)).map ([·]))
  | some _ => .error (.source .noSources)

end BookRules.Source
