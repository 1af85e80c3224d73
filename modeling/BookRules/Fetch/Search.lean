import BookRules.Fetch.Transport
import BookRules.Limits
import BookRules.Page.SearchResults
import BookRules.Request.Search

/-!
# Searching many sources

All sources that can be searched are asked at the same time, but only so many
requests are open at once: the others wait, and the first of them starts when a
request is answered.  The books are put together in the order of the answers,
each address once; a source that fails gives none.
-/

namespace BookRules

/-- The first page that is asked for. -/
def firstPage : Nat := 1

def searchSource (transport : Transport) (source : Source) (keyword : String) :
    Attempt (List FoundBook) := do
  let request ← Attempt.ofExcept (Request.ofSearch source keyword firstPage)
  let body ← Attempt.fetch transport request
  return Page.searchResults source body request.url keyword firstPage

namespace Search

/-- The outcome of a source. -/
abbrev Outcome :=
  Except Fault (List FoundBook)

/-- A source that was asked: when its answer comes, and what it is. -/
structure Open where
  time : Nat
  outcome : Outcome

/-- Which sources were asked, and which answers came. -/
structure Progress where
  /-- Open requests, the one that is answered next first. -/
  open_ : List Open := []
  /-- Sources that wait, in their order. -/
  waiting : List Source
  /-- Outcomes in the order in which they came. -/
  done : List Outcome := []

/-- Ask a source: how long the answer takes, and what it is.  A source without a
request is done at once. -/
def ask (transport : Transport) (keyword : String) (source : Source) : Fetch (Nat × Outcome) := do
  match Request.ofSearch source keyword firstPage with
  | .error fault => return (0, .error fault)
  | .ok request =>
    let reply ← Fetch.send transport request
    return (reply.delay, reply.body.map fun body =>
      Page.searchResults source body request.url keyword firstPage)

/-- Put an open request behind those that are answered no later. -/
def insert (new : Open) : List Open → List Open
  | [] => [new]
  | first :: rest => if first.time ≤ new.time then first :: insert new rest else new :: first :: rest

/-- Start waiting sources at a time, as long as there is room. -/
def start (transport : Transport) (keyword : String) (time : Nat) (open_ : List Open)
    (done : List Outcome) : List Source → Fetch Progress
  | [] => return { open_, waiting := [], done }
  | source :: rest => do
    if Limits.openRequests ≤ open_.length then
      return { open_, waiting := source :: rest, done }
    else
      let (delay, outcome) ← ask transport keyword source
      if delay = 0 then start transport keyword time open_ (done ++ [outcome]) rest
      else start transport keyword time (insert { time := time + delay, outcome } open_) done rest

/-- Take the answers one after the other; each makes room for a waiting source.
There are at most as many answers as sources. -/
def finish (transport : Transport) (keyword : String) : Nat → Progress → Fetch (List Outcome)
  | 0, progress => return progress.done
  | fuel + 1, progress => do
    match progress.open_ with
    | [] => return progress.done
    | first :: rest =>
      let progress ← start transport keyword first.time rest (progress.done ++ [first.outcome])
        progress.waiting
      finish transport keyword fuel progress

/-- The outcomes of sources in the order in which their answers come. -/
def outcomes (transport : Transport) (keyword : String) (sources : List Source) :
    Fetch (List Outcome) := do
  let progress ← start transport keyword 0 [] [] sources
  finish transport keyword sources.length progress

/-- Leave out books whose address occurred before; `seen` holds the addresses. -/
def newBooks (seen : List String) : List FoundBook → List FoundBook
  | [] => []
  | book :: rest =>
    if seen.contains book.bookUrl then newBooks seen rest
    else book :: newBooks (book.bookUrl :: seen) rest

def booksOf : Outcome → List FoundBook
  | .ok books => books
  | .error _ => []

/-- The books of all outcomes, each address once. -/
def merge (outcomes : List Outcome) : List FoundBook :=
  newBooks [] (outcomes.flatMap booksOf)

end Search

/-- Search all sources that can be searched. -/
def searchAll (transport : Transport) (sources : List Source) (keyword : String) :
    Fetch (List FoundBook) := do
  let outcomes ← Search.outcomes transport keyword (sources.filter Source.isSearchable)
  return Search.merge outcomes

end BookRules
