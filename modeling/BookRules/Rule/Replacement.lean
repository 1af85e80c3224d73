import BookRules.Regex.Search
import BookRules.Text.Span

/-!
# Replacement

A rule may end in `##pattern##replacement`.  Every match of the pattern in a
result is replaced; with `###` at the end the first match alone is kept and
replaced.  In the replacement a dollar sign with digits stands for a group of
the match, and any other dollar sign for itself.  A pattern that is no regular
expression stands for itself.

Groups are put into templates, a language with more references: `$$` is a dollar
sign, and `$name` and `${name}` are groups.  A replacement is therefore written
as a template first, in which its references are in braces and its other dollar
signs are doubled.
-/

namespace BookRules.Rule

/-- A rule and its replacement. -/
structure Replacing where
  rule : String
  /-- Empty when nothing is replaced. -/
  pattern : String
  replacement : String
  /-- Only the first match is kept. -/
  firstOnly : Bool
  deriving DecidableEq, Repr

/-- Cut a rule at its `##`. -/
def splitReplacement (text : List Char) : Replacing :=
  let parts := Text.splitAll ['#', '#'] text
  let part (i : Nat) : List Char := parts[i]?.getD []
  { rule := String.ofList (Text.trim (part 0))
    pattern := String.ofList (part 1)
    replacement := String.ofList (part 2)
    firstOnly := 3 < parts.length }

namespace Replacement

/-- A dollar sign of a replacement, with the digits behind it, as it is written in a
template: a reference in braces, and a dollar sign by itself doubled. -/
def templateSign : Text.Recogniser
  | '$' :: rest =>
    let digits := rest.takeWhile Decimal.isDigit
    some (if digits.isEmpty then ['$', '$'] else '$' :: '\x7b' :: digits ++ ['\x7d'],
      rest.dropWhile Decimal.isDigit)
  | _ => none

/-- The template that a replacement stands for. -/
def template (replacement : List Char) : List Char :=
  Text.replaceSpans templateSign replacement

/-- The signs that the name of a group goes on with. -/
def isNameSign (c : Char) : Bool :=
  c.isAlphanum || c == '_'

/-- What a reference stands for: a group by its number, or by its name. -/
def referred (group : Nat → List Char) (named : List Char → List Char) (name : List Char) :
    List Char :=
  match Decimal.natural? name with
  | some index => group index
  | none => named name

/-- Read a dollar sign of a template: two of them are one, and a reference is a number or a
name, in braces or as long as it goes on. -/
def reference (group : Nat → List Char) (named : List Char → List Char) : Text.Recogniser
  | '$' :: '$' :: rest => some (['$'], rest)
  | '$' :: '\x7b' :: rest =>
    (Text.cutAt? ['\x7d'] rest).map fun (name, after) => (referred group named name, after)
  | '$' :: rest =>
    let name := rest.takeWhile isNameSign
    if name.isEmpty then none
    else some (referred group named name, rest.dropWhile isNameSign)
  | _ => none

/-- A template with its references replaced by groups. -/
def fillTemplate (group : Nat → List Char) (named : List Char → List Char)
    (template : List Char) : List Char :=
  Text.replaceSpans (reference group named) template

/-- The replacement with its references replaced by groups.  No replacement refers to a group
by its name. -/
def expand (group : Nat → List Char) (replacement : List Char) : List Char :=
  fillTemplate group (fun _ => []) (template replacement)

end Replacement

def spliced (text : Array Char) (replace : Regex.Match → List Char) (position : Nat) :
    List Regex.Match → List Char
  | [] => (text.extract position text.size).toList
  | m :: rest =>
    (text.extract position m.span.1).toList ++ replace m ++ spliced text replace m.span.2 rest

/-- Apply a replacement to a result, with an engine for its pattern. -/
def replaceWith (engine : Regex.Engine) (input pattern replacement : String)
    (firstOnly : Bool) : String :=
  match engine.search? pattern with
  | some search =>
    let text := input.toList.toArray
    let expanded (m : Regex.Match) : List Char :=
      Replacement.expand (m.group text) replacement.toList
    if firstOnly then
      String.ofList (((search.first? text).map expanded).getD [])
    else
      String.ofList (spliced text expanded 0 (search.matchesIn text))
  | none =>
    if firstOnly then
      if Text.occursIn pattern.toList input.toList then replacement else ""
    else
      String.ofList (Text.replaceAll pattern.toList replacement.toList input.toList)

/-- Apply a replacement to a result. -/
def replace (input pattern replacement : String) (firstOnly : Bool) : String :=
  replaceWith Regex.programs input pattern replacement firstOnly

end BookRules.Rule
