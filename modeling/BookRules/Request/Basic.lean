import BookRules.Json.Passing
import BookRules.Source.Basic

/-!
# Requests

An address may be followed by a comma and a JSON object with options: the method,
the body and further headers.  The options begin at the first comma from which on
the text is such an object; the address itself is read against the address of
the source.  Only the options of the object are read, its other members are passed
over.
-/

namespace BookRules

inductive Method
  | get
  | post
  deriving DecidableEq, Repr

def Method.name : Method → String
  | .get => "GET"
  | .post => "POST"

structure Request where
  url : String
  method : Method := .get
  body : Option String := none
  headers : Bindings := []
  deriving DecidableEq, Repr

namespace Request

/-- What may follow an address. -/
structure Options where
  method : String := ""
  body : Option String := none
  headers : Bindings := []
  deriving DecidableEq, Repr

namespace Options

/-- The names of the options. -/
def names : List String :=
  ["method", "body", "headers"]

/-- Read the name of a member and the colon behind it. -/
def name? (cs : List Char) : Option (String × List Char) :=
  match Json.skipSpace cs with
  | '"' :: rest =>
    match Json.stringTail? [] rest with
    | some (name, rest) =>
      match Json.skipSpace rest with
      | ':' :: rest => some (name, rest)
      | _ => none
    | none => none
  | _ => none

/-- Read the value of an option, or pass over the value of another member.  The
object around it is open. -/
def value? (name : String) (cs : List Char) : Option (Option Json × List Char) :=
  if name ∈ names then
    (Json.value? (2 * cs.length + 2) (Json.maxDepth - 1) cs).map fun (value, rest) =>
      (some value, rest)
  else
    (Json.Passing.pass? {} cs).map fun rest => (none, rest)

/-- Read the members of an object up to the closing brace, and keep the options. -/
def members? : Nat → List (String × Json) → List Char → Option (List (String × Json) × List Char)
  | 0, _, _ => none
  | fuel + 1, done, cs =>
    match name? cs with
    | none => none
    | some (name, rest) =>
      match value? name rest with
      | none => none
      | some (value?, rest) =>
        let done := (value?.map fun value => (name, value)).toList ++ done
        match Json.skipSpace rest with
        | ',' :: rest => members? fuel done rest
        | '}' :: rest => some (done.reverse, rest)
        | _ => none

/-- Read an object. -/
def object? (cs : List Char) : Option (List (String × Json) × List Char) :=
  match Json.skipSpace cs with
  | '{' :: rest =>
    match Json.skipSpace rest with
    | '}' :: rest => some ([], rest)
    | _ => members? rest.length [] rest
  | _ => none

/-- How often a name stands in an object. -/
def count (name : String) (members : List (String × Json)) : Nat :=
  members.countP fun (k, _) => k == name

/-- The options that the members of an object give; none stands twice. -/
def ofMembers? (members : List (String × Json)) : Option Options :=
  if names.any fun name => 1 < count name members then none
  else do
    let method ← match Json.lookup? "method" members with
      | none => some ""
      | some (.string s) => some s
      | _ => none
    let body ← match Json.lookup? "body" members with
      | none | some .null => some none
      | some (.string s) => some (some s)
      | _ => none
    let headers ← match Json.lookup? "headers" members with
      | none => some []
      | some (.object headers) => some headers
      | _ => none
    return { method, body, headers := Source.headersOf headers }

/-- Read options, which have to be a whole text. -/
def parse? (cs : List Char) : Option Options :=
  match object? cs with
  | some (members, rest) =>
    if (Json.skipSpace rest).isEmpty then
      ofMembers? (members.map fun (name, value) => (name, value.merged))
    else none
  | none => none

/-- The method; any method but POST is GET. -/
def methodOf (options : Options) : Method :=
  if Text.lowerAscii options.method.toList = "post".toList then .post else .get

end Options

/-- Cut an address from its options; `before` holds what was passed over, in
reverse. -/
def splitOptionsFrom (before : List Char) : List Char → List Char × Option Options
  | [] => (Text.trim before.reverse, none)
  | c :: rest =>
    let options := if c == ',' && rest.head? == some '\x7b' then Options.parse? rest else none
    match options with
    | some options => (Text.trim before.reverse, some options)
    | none => splitOptionsFrom (c :: before) rest

/-- An address and its options. -/
def splitOptions (text : List Char) : List Char × Option Options :=
  splitOptionsFrom [] text

/-- A request with the headers of a source, which options may replace. -/
def withOptions (source : Source) (url : String) : Option Options → Request
  | none => { url, headers := source.headers }
  | some options =>
    { url, method := options.methodOf, body := options.body,
      headers := source.headers.setAll options.headers }

/-- The request for an address with options. -/
def ofTarget (source : Source) (text : List Char) : Except Fault Request :=
  let (target, options) := splitOptions text
  match Url.absolute source.url (String.ofList target) with
  | .ok url => .ok (withOptions source url options)
  | .error fault => .error (.url fault)

/-- The request for an address that was found on the site of a source. -/
def forSource (source : Source) (url : String) : Except Fault Request :=
  ofTarget source url.toList

end Request

end BookRules
