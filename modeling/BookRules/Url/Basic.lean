import BookRules.Text.Occurrence

/-!
# URLs

A URL in its parts, and its text.  Some schemes have rules of their own: their
URLs always have a host, and the port that is usual for the scheme is left out.
-/

namespace BookRules

/-- A URL in its parts. -/
structure Url where
  scheme : List Char
  /-- User, host and port as they stand behind the two slashes. -/
  authority : Option (List Char)
  path : List Char
  query : Option (List Char)
  fragment : Option (List Char)
  deriving DecidableEq, Repr

namespace Url

/-- Schemes with rules of their own. -/
inductive Kind
  | file
  | special
  | other
  deriving DecidableEq, Repr

def kindOf (scheme : List Char) : Kind :=
  match String.ofList scheme with
  | "http" | "https" | "ws" | "wss" | "ftp" => .special
  | "file" => .file
  | _ => .other

def Kind.isSpecial (kind : Kind) : Bool :=
  kind != .other

/-- The port that is left out. -/
def defaultPort? (scheme : List Char) : Option Nat :=
  match String.ofList scheme with
  | "http" | "ws" => some 80
  | "https" | "wss" => some 443
  | "ftp" => some 21
  | _ => none

def host? (url : Url) : Option (List Char) :=
  url.authority.bind fun authority =>
    let place := match Text.cutAtLast? '@' authority with
      | some (_, place) => place
      | none => authority
    let host := match place with
      | '[' :: _ => place.takeWhile (· != ']')
      | _ => place.takeWhile (· != ':')
    if host.isEmpty then none else some host

/-- The path is not made of segments. -/
def isOpaque (url : Url) : Bool :=
  url.authority.isNone && url.path.head? != some '/'

def textWithoutFragment (url : Url) : List Char :=
  url.scheme ++ ':' ::
    (match url.authority with
      | some authority => '/' :: '/' :: authority
      | none => if ['/', '/'].isPrefixOf url.path then ['/', '.'] else []) ++
    url.path ++
    (match url.query with
      | some query => '?' :: query
      | none => [])

def text (url : Url) : List Char :=
  url.textWithoutFragment ++
    match url.fragment with
    | some fragment => '#' :: fragment
    | none => []

end Url

end BookRules
