import BookRules.Bindings
import BookRules.Json.Parser
import BookRules.Json.Printer
import BookRules.Rule.Replacement
import BookRules.Rule.Segment
import BookRules.Text.Span

/-!
# Stages

A stage of a rule has a mode, a text and a replacement, and it may bind
variables with `@put:{…}` before it is evaluated.  The braces hold a JSON object
from names to rules and end at the first closing brace; what is no object is
dropped.
-/

namespace BookRules.Rule

/-- One stage of a rule. -/
structure Stage where
  mode : Mode
  /-- The rule without prefix and replacement; for a script its source. -/
  expression : String
  pattern : String := ""
  replacement : String := ""
  firstOnly : Bool := false
  /-- Variables to bind, each with the rule for its value. -/
  bindings : Bindings := []
  /-- The segments of the whole text with its replacement; none for a text
  without placeholders. -/
  segments : List Segment := []
  deriving DecidableEq, Repr

namespace Stage

/-- Placeholders have to be replaced before the stage is evaluated. -/
def isTemplate (stage : Stage) : Bool :=
  !stage.segments.isEmpty

def ofScript (source : List Char) : Stage :=
  { mode := .script, expression := String.ofList (Text.trim source) }

/-- Read `@put:{…}`: the object with its braces, and what follows. -/
def put? (cs : List Char) : Option (List Char × List Char) :=
  match Unicode.afterFolded? "@put:\x7b".toList cs with
  | none => none
  | some rest =>
    match rest.takeWhile (· != '\x7d'), rest.dropWhile (· != '\x7d') with
    | c :: body, _ :: after => some ('\x7b' :: c :: body ++ ['\x7d'], after)
    | _, _ => none

/-- The text of a rule given as a JSON value. -/
def ruleText : Json → String
  | .string s => s
  | value => value.compact

/-- The bindings of an object; none when the text is no object. -/
def putBindings (text : List Char) : List (String × String) :=
  match Json.parse? text with
  | some (.object members) => members.map fun (name, value) => (name, ruleText value)
  | _ => []

/-- The objects of all bindings in a text. -/
def putsFrom : Nat → List Char → List (List Char)
  | _, [] => []
  | skip + 1, _ :: rest => putsFrom skip rest
  | 0, c :: rest =>
    match put? (c :: rest) with
    | some (object, after) => object :: putsFrom (rest.length - after.length) rest
    | none => putsFrom 0 rest

/-- Take the bindings out of a text. -/
def splitPuts (text : List Char) : Bindings × List Char :=
  (Bindings.ofPairs ((putsFrom 0 text).flatMap putBindings),
    Text.replaceSpans (fun cs => (put? cs).map fun (_, after) => ([], after)) text)

/-- Read a stage that is no script. -/
def parse (content : Content) (text : List Char) : Stage :=
  let (bindings, rest) := splitPuts text
  let (mode, body) := Mode.detect content (Text.trim rest)
  let (segments, templated) := Segment.scan body
  let parts := splitReplacement body
  { mode := if templated then .template else mode
    expression := parts.rule
    pattern := parts.pattern
    replacement := parts.replacement
    firstOnly := parts.firstOnly
    bindings
    segments := match segments with
      | [] => []
      | [.literal _] => []
      | segments => segments }

end Stage

end BookRules.Rule
