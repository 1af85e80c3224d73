import BookRules.Bindings
import BookRules.Error
import BookRules.Json.Parser
import BookRules.Json.Printer
import BookRules.Text.Blank
import BookRules.Url.Reference

/-!
# Sources

A source teaches how to read one site: where to search, and one group of rules
for each kind of page.  Every rule may be missing.
-/

namespace BookRules

/-- Rules for a page of search results. -/
structure SearchRules where
  /-- The rows, one for each book; a leading `-` reverses them. -/
  bookList : Option String := none
  name : Option String := none
  author : Option String := none
  kind : Option String := none
  wordCount : Option String := none
  lastChapter : Option String := none
  intro : Option String := none
  coverUrl : Option String := none
  bookUrl : Option String := none
  deriving DecidableEq, Repr

/-- Rules for the page of a book. -/
structure DetailRules where
  /-- The part of the page that the other rules are applied to. -/
  init : Option String := none
  name : Option String := none
  author : Option String := none
  intro : Option String := none
  kind : Option String := none
  wordCount : Option String := none
  lastChapter : Option String := none
  coverUrl : Option String := none
  /-- Where the list of chapters is. -/
  tocUrl : Option String := none
  deriving DecidableEq, Repr

/-- Rules for a page of a list of chapters. -/
structure TocRules where
  /-- The rows, one for each chapter; a leading `-` reverses the whole list. -/
  chapterList : Option String := none
  chapterName : Option String := none
  chapterUrl : Option String := none
  nextTocUrl : Option String := none
  deriving DecidableEq, Repr

/-- Rules for a page of a chapter. -/
structure ChapterRules where
  content : Option String := none
  nextContentUrl : Option String := none
  /-- A rule for the text of the whole chapter. -/
  replaceRegex : Option String := none
  deriving DecidableEq, Repr

structure Source where
  name : String := ""
  url : String := ""
  group : Option String := none
  enabled : Bool := true
  /-- Headers of every request, as the text of a JSON object. -/
  header : Option String := none
  /-- The address of a search, with placeholders. -/
  searchUrl : Option String := none
  search : SearchRules := {}
  detail : DetailRules := {}
  toc : TocRules := {}
  chapter : ChapterRules := {}
  deriving DecidableEq, Repr

namespace Source

/-- The text of a rule; empty when there is none. -/
def rule (field : Option String) : String :=
  Text.trimmed (field.getD "")

/-- The name to show; the address when there is no name. -/
def displayName (source : Source) : String :=
  if source.name.isEmpty then source.url else source.name

/-- The source takes part in a search. -/
def isSearchable (source : Source) : Bool :=
  source.enabled && !(rule source.searchUrl).isEmpty && !(rule source.search.bookList).isEmpty

/-- The text of a header: a string as it is, any other value as JSON. -/
def headerText : Json → String
  | .string s => s
  | value => value.compact

/-- Headers given as the members of an object. -/
def headersOf (members : List (String × Json)) : Bindings :=
  Bindings.ofPairs (members.map fun (name, value) => (name, headerText value))

/-- The headers of every request; none when the text is no JSON object. -/
def headers (source : Source) : Bindings :=
  match Json.parse? (rule source.header).toList with
  | some (.object members) => headersOf members
  | _ => []

/-- An address belongs to the site of the source: both have the same host. -/
def serves (source : Source) (url : String) : Bool :=
  match Url.parse source.url, Url.parse url with
  | .ok own, .ok other => own.host?.isSome && own.host? == other.host?
  | _, _ => false

/-- A source needs an address that can be read. -/
def check (source : Source) : Except SourceFault Source :=
  if Text.isBlankText source.url then .error (.noAddress source.name)
  else
    match Url.parse source.url with
    | .ok _ => .ok source
    | .error fault => .error (.badAddress source.name fault)

/-- The source for an address: the one with a name or address, if that is given,
otherwise the first one that serves the address. -/
def choose (sources : List Source) (name : Option String) (url : String) : Except Fault Source :=
  let found := match name with
    | some name => sources.find? fun s => s.name == name || s.url == name
    | none => sources.find? fun s => s.serves url
  match found with
  | some source => .ok source
  | none => .error (.noSource (name.getD url))

end Source

end BookRules
