import BookRules.Request.Basic

/-!
# Fetching pages

A transport answers requests, each after some time with the body of a page or
with a fault.  An answer may depend on the requests made before.  What is fetched
is recorded request by request.
-/

namespace BookRules

/-- The answer to a request. -/
structure Reply where
  /-- Time until the answer, in milliseconds. -/
  delay : Nat := 0
  body : Except Fault String

/-- Answers a request after the requests made before it. -/
abbrev Transport :=
  List Request → Request → Reply

/-- Answers from pages that are kept by address; all other addresses are
missing. -/
def Transport.ofPages (pages : Bindings) : Transport := fun _ request =>
  match pages.get? request.url with
  | some body => { body := .ok body }
  | none => { body := .error (.status request.url 404) }

/-- Runs that make requests; the requests made are kept in their order. -/
abbrev Fetch :=
  StateM (List Request)

namespace Fetch

/-- Make a request. -/
def send (transport : Transport) (request : Request) : Fetch Reply := do
  let earlier ← get
  set (earlier ++ [request])
  return transport earlier request

end Fetch

/-- Runs that make requests and may fail. -/
abbrev Attempt :=
  ExceptT Fault Fetch

namespace Attempt

/-- A result that is known. -/
def ofExcept {α : Type} : Except Fault α → Attempt α
  | .ok a => return a
  | .error fault => throw fault

def answer (transport : Transport) (request : Request) : Attempt (Except Fault String) :=
  return (← ExceptT.lift (Fetch.send transport request)).body

/-- The body of a page. -/
def fetch (transport : Transport) (request : Request) : Attempt String := do
  ofExcept (← answer transport request)

end Attempt

end BookRules
