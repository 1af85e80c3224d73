import BookRules.Bindings

/-!
# Contexts

What a rule can look up while it is evaluated: variables, the book and the
source at hand, and the address of the page.  A variable hides a field of the
same name, a field that is empty counts as missing, and the variables kept with
the book come last.
-/

namespace BookRules

/-- A book as rules see it. -/
structure Book where
  name : String := ""
  author : String := ""
  bookUrl : String := ""
  tocUrl : String := ""
  coverUrl : String := ""
  intro : String := ""
  kind : String := ""
  lastChapter : String := ""
  /-- Variables that were kept with the book. -/
  stored : Bindings := []
  deriving DecidableEq, Repr

/-- A source as rules see it. -/
structure Origin where
  name : String := ""
  url : String := ""
  deriving DecidableEq, Repr

structure Context where
  stored : Bindings := []
  book : Book := {}
  source : Origin := {}
  /-- The address of the page at hand. -/
  baseUrl : String := ""
  deriving DecidableEq, Repr

namespace Context

/-- Store a variable. -/
def put (ctx : Context) (name text : String) : Context :=
  { ctx with stored := ctx.stored.set name text }

def field? (ctx : Context) (name : String) : Option String :=
  match name with
  | "bookName" | "name" => some ctx.book.name
  | "bookAuthor" | "author" => some ctx.book.author
  | "bookUrl" => some ctx.book.bookUrl
  | "tocUrl" => some ctx.book.tocUrl
  | "sourceName" => some ctx.source.name
  | "sourceUrl" => some ctx.source.url
  | "baseUrl" => some ctx.baseUrl
  | _ => none

/-- The text of a name. -/
def get? (ctx : Context) (name : String) : Option String :=
  (ctx.stored.get? name).or
    (((ctx.field? name).filter fun text => !text.isEmpty).or (ctx.book.stored.get? name))

/-- The text of a name, empty when it is unknown. -/
def getOrEmpty (ctx : Context) (name : String) : String :=
  (ctx.get? name).getD ""

end Context

end BookRules
