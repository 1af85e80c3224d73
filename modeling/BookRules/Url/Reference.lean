import BookRules.Url.Host
import BookRules.Url.Path

/-!
# References

A reference is read against a base: it may be a URL of its own or take the
scheme, the host and the front of the path from the base.  Reading brings a URL
into its normal form: dots in the path are resolved, characters are encoded, the
port of the scheme is left out.
-/

namespace BookRules

namespace Url

/-- The authority at the front of a text and what follows it. -/
def splitAuthority (kind : Kind) (cs : List Char) : List Char × List Char :=
  cs.span fun c => !(c == '/' || c == '?' || c == '#' || (c == '\\' && kind.isSpecial))

/-- User and password as they are written. -/
def userText (cs : List Char) : List Char :=
  let user := (cs.takeWhile (· != ':')).flatMap (percentChar keepUser)
  let password := ((cs.dropWhile (· != ':')).drop 1).flatMap (percentChar keepUser)
  let both := user ++ if password.isEmpty then [] else ':' :: password
  if both.isEmpty then [] else both ++ ['@']

/-- Take the user information off the front. -/
def splitUser (kind : Kind) (cs : List Char) : Except UrlFault (List Char × List Char) :=
  let (authority, rest) := splitAuthority kind cs
  match Text.cutAtLast? '@' authority with
  | none => .ok ([], cs)
  | some (user, host) =>
    if user.isEmpty && host.isEmpty && !rest.isEmpty then .error .emptyHost
    else .ok (userText user, host ++ rest)

/-- Where a host ends; a colon in brackets does not end it. -/
def splitHost (kind : Kind) (brackets : Bool) : List Char → List Char × List Char
  | [] => ([], [])
  | c :: rest =>
    if (c == ':' && !brackets) || c == '/' || c == '?' || c == '#' ||
        (c == '\\' && kind.isSpecial) then ([], c :: rest)
    else
      let inside := if c == '[' then true else if c == ']' then false else brackets
      let (host, after) := splitHost kind inside rest
      (c :: host, after)

/-- Read the digits of a port. -/
def port? (cs : List Char) : Except UrlFault (Option Nat × List Char) :=
  let digits := cs.takeWhile Char.isDigit
  let rest := cs.dropWhile Char.isDigit
  let n := Decimal.valueOf digits
  if 65535 < n then .error .badPort
  else match rest with
    | c :: _ =>
      if c == '/' || c == '\\' || c == '?' || c == '#' then
        .ok (if digits.isEmpty then none else some n, rest)
      else .error .badPort
    | [] => .ok (if digits.isEmpty then none else some n, [])

/-- Read what follows the two slashes. -/
def afterSlashes (scheme cs : List Char) : Except UrlFault Url := do
  let kind := kindOf scheme
  let (user, cs) ← splitUser kind cs
  let (hostText, rest) := splitHost kind false cs
  let host ←
    if kind == .special && hostText.isEmpty then .error .emptyHost
    else if kind.isSpecial then domainHost hostText
    else opaqueHost hostText
  let (port, rest) ← match rest with
    | ':' :: after => if host.isEmpty then .error .emptyHost else port? after
    | _ => .ok (none, rest)
  let shownPort := match port with
    | some n => if defaultPort? scheme == some n then [] else ':' :: Decimal.digitsOf n
    | none => []
  if host.isEmpty && !user.isEmpty then .error .emptyHost
  else
    let authority := some (user ++ host ++ shownPort)
    match rest with
    | '/' :: after => return withPath scheme authority [] after
    | _ =>
      let isEnd := rest.head?.all fun c => c == '?' || c == '#'
      if isEnd && !kind.isSpecial then
        let (query, fragment) := readTail kind rest
        return { scheme, authority, path := [], query, fragment }
      else
        return withPath scheme authority [] <|
          if kind.isSpecial && rest.head? == some '\\' then rest.drop 1 else rest

/-- The host of a file; the local one is left out. -/
def fileHost (cs : List Char) : Except UrlFault (Option (List Char) × List Char) :=
  let (name, rest) := cs.span fun c => !(c == '/' || c == '\\' || c == '?' || c == '#')
  if isDrive name then .ok (none, cs)
  else if name.isEmpty then .ok (none, rest)
  else do
    let host ← domainHost name
    return (if host == "localhost".toList then none else some host, rest)

def fileScheme : List Char :=
  "file".toList

/-- Read a file URL behind its scheme, or a reference to a file. -/
def file (base? : Option Url) (cs : List Char) : Except UrlFault Url :=
  let isSlash (c : Char) : Bool := c == '/' || c == '\\'
  match cs with
  | a :: b :: rest =>
    if isSlash a && isSlash b then do
      let (host, rest) ← fileHost rest
      let after := match rest with
        | c :: more => if isSlash c then more else rest
        | [] => []
      let url := withPath fileScheme (some (host.getD [])) [] after
      let drive := ((segmentsOf url.path).head?).any isNormalDrive
      return if drive then { url with authority := some [] } else url
    else one (a :: b :: rest)
  | _ => one cs
where
  /-- A reference with at most one slash in front. -/
  one (cs : List Char) : Except UrlFault Url :=
    match cs with
    | [] =>
      match base? with
      | some base => .ok { base with fragment := none }
      | none => .ok (withPath fileScheme (some []) [] [])
    | c :: rest =>
      if c == '/' || c == '\\' then
        let inherited : List Char × List (List Char) :=
          match base? with
          | none => ([], [])
          | some base =>
            if startsWithDrive rest then ([], [])
            else match segmentsOf base.path with
              | first :: _ =>
                if isNormalDrive first then ([], [first]) else (base.authority.getD [], [])
              | [] => (base.authority.getD [], [])
        .ok (withPath fileScheme (some inherited.1) inherited.2 rest)
      else match base? with
        | none => .ok (withPath fileScheme (some []) [] cs)
        | some base =>
          if c == '?' then
            let (query, fragment) := readTail .file cs
            .ok { base with query, fragment }
          else if c == '#' then .ok { base with fragment := (readTail .file cs).2 }
          else if startsWithDrive cs then .ok (withPath fileScheme (some []) [] cs)
          else
            .ok (withPath fileScheme base.authority
              (dropSegment .file (segmentsOf base.path).reverse) cs)

/-- Read a reference that takes its front from a base. -/
def relative (base : Url) (cs : List Char) : Except UrlFault Url :=
  let isSlash (c : Char) : Bool := c == '/' || c == '\\'
  match cs with
  | [] => .ok { base with fragment := none }
  | '?' :: _ =>
    let (query, fragment) := readTail (kindOf base.scheme) cs
    .ok { base with query, fragment }
  | '#' :: _ => .ok { base with fragment := (readTail (kindOf base.scheme) cs).2 }
  | c :: rest =>
    if isSlash c then
      if rest.head?.any isSlash then
        match cs with
        | '/' :: '/' :: after => afterSlashes base.scheme after
        | _ => afterSlashes base.scheme (cs.dropWhile isSlash)
      else .ok (withPath base.scheme base.authority [] rest)
    else
      .ok (withPath base.scheme base.authority ((segmentsOf base.path).reverse.drop 1) cs)

/-- The scheme in front of a reference, in lower case, and what follows its
colon. -/
def splitScheme? (cs : List Char) : Option (List Char × List Char) :=
  match cs with
  | c :: _ =>
    if c.isAlpha then
      match cs.span fun c => c.isAlphanum || c == '+' || c == '-' || c == '.' with
      | (scheme, ':' :: rest) => some (Text.lowerAscii scheme, rest)
      | _ => none
    else none
  | [] => none

/-- Read a URL whose scheme is not well known. -/
def other (scheme cs : List Char) : Except UrlFault Url :=
  match cs with
  | '/' :: '/' :: rest => afterSlashes scheme rest
  | '/' :: rest => .ok (withPath scheme none [] rest)
  | _ =>
    let isEnd (c : Char) : Bool := c == '?' || c == '#'
    let (query, fragment) := readTail .other (cs.dropWhile fun c => !isEnd c)
    .ok { scheme, authority := none, query, fragment
          path := (cs.takeWhile fun c => !isEnd c).flatMap (percentChar keepOpaque) }

/-- Control characters and spaces at the ends do not count, nor tabs and line
ends anywhere. -/
def cleaned (cs : List Char) : List Char :=
  let outer (c : Char) : Bool := c.toNat ≤ 0x20
  ((((cs.dropWhile outer).reverse).dropWhile outer).reverse).filter fun c =>
    !(c == '\t' || c == '\n' || c == '\r')

/-- Read a reference, against a base if there is one. -/
def resolve (base? : Option Url) (reference : List Char) : Except UrlFault Url :=
  let cs := cleaned reference
  match splitScheme? cs with
  | some (scheme, rest) =>
    match kindOf scheme with
    | .file => file (base?.filter fun base => base.scheme == fileScheme) rest
    | .other => other scheme rest
    | .special =>
      let slashes := (rest.takeWhile fun c => c == '/' || c == '\\').length
      match base? with
      | some base =>
        if slashes < 2 && base.scheme == scheme then relative base rest
        else afterSlashes scheme (rest.drop slashes)
      | none => afterSlashes scheme (rest.drop slashes)
  | none =>
    match base? with
    | none => .error .relativeWithoutBase
    | some base =>
      match cs with
      | '#' :: _ => .ok { base with fragment := (readTail (kindOf base.scheme) cs).2 }
      | _ =>
        if base.isOpaque then .error .relativeWithOpaqueBase
        else if kindOf base.scheme == .file then file (some base) cs
        else relative base cs

/-- Read a URL on its own. -/
def parse (text : String) : Except UrlFault Url :=
  resolve none text.toList

/-- The text of a reference against a base; without a base it has to be a URL of
its own. -/
def absolute (base reference : String) : Except UrlFault String := do
  let url ←
    if base.isEmpty then resolve none reference.toList
    else resolve (some (← parse base)) reference.toList
  return String.ofList url.text

end Url

end BookRules
