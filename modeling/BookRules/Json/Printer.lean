import BookRules.Text.Hexadecimal
import BookRules.Json.Value

/-!
# JSON text

The compact form: no white space, members in their order.  In strings the two
characters `"` and `\` and the control characters are escaped and every other
character stands for itself.  Doubles have the fewest digits that read back and
always show a fraction or a power.

The text form of a value is what a reader of the page would see: strings
without quotes, whole doubles without a fraction, arrays as lines.
-/

namespace BookRules.Json

/-- Doubles up to 16 digits before the point and 4 zeros after it are written
plainly, others with a signed power. -/
def doubleLayout : Decimal.Layout :=
  { leastPlain := -5, greatestPlain := 15, wholeFraction := true, plusSign := true }

/-- A character inside a string. -/
def escapeChar (c : Char) : List Char :=
  if c == '"' then ['\\', '"']
  else if c == '\\' then ['\\', '\\']
  else if c == '\x08' then ['\\', 'b']
  else if c == '\x0c' then ['\\', 'f']
  else if c == '\n' then ['\\', 'n']
  else if c == '\r' then ['\\', 'r']
  else if c == '\t' then ['\\', 't']
  else if c.toNat < 0x20 then
    ['\\', 'u', '0', '0', Text.hexDigit (c.toNat / 16), Text.hexDigit (c.toNat % 16)]
  else [c]

def quote (s : String) : List Char :=
  '"' :: s.toList.flatMap escapeChar ++ ['"']

/-- A whole number in decimal. -/
def wholeText (n : Int) : List Char :=
  if n < 0 then '-' :: Decimal.digitsOf n.natAbs else Decimal.digitsOf n.natAbs

def Number.text : Number → List Char
  | .whole n => wholeText n
  | .real x => doubleLayout.write x

mutual

/-- The compact text of a document. -/
def text : Json → List Char
  | .null => ['n', 'u', 'l', 'l']
  | .bool true => ['t', 'r', 'u', 'e']
  | .bool false => ['f', 'a', 'l', 's', 'e']
  | .number n => n.text
  | .string s => quote s
  | .array items => '[' :: (itemTexts items ++ [']'])
  | .object members => '{' :: (memberTexts members ++ ['}'])

def itemTexts : List Json → List Char
  | [] => []
  | item :: rest => text item ++ match rest with
    | [] => []
    | _ :: _ => ',' :: itemTexts rest

def memberTexts : List (String × Json) → List Char
  | [] => []
  | (name, value) :: rest => quote name ++ ':' :: (text value ++ match rest with
    | [] => []
    | _ :: _ => ',' :: memberTexts rest)

end

/-- The compact text of a document. -/
def compact (doc : Json) : String :=
  String.ofList doc.text

mutual

/-- The text of a document with a line for each item and member; `indent` is what
stands in front of the line. -/
def prettyText (indent : List Char) : Json → List Char
  | .array (item :: rest) =>
    '[' :: (prettyItems (' ' :: ' ' :: indent) (item :: rest) ++ '\n' :: indent ++ [']'])
  | .object (member :: rest) =>
    '\x7b' :: (prettyMembers (' ' :: ' ' :: indent) (member :: rest) ++ '\n' :: indent ++ ['\x7d'])
  | value => text value

def prettyItems (indent : List Char) : List Json → List Char
  | [] => []
  | item :: rest => '\n' :: indent ++ prettyText indent item ++ match rest with
    | [] => []
    | _ :: _ => ',' :: prettyItems indent rest

def prettyMembers (indent : List Char) : List (String × Json) → List Char
  | [] => []
  | (name, value) :: rest =>
    '\n' :: indent ++ quote name ++ ':' :: ' ' :: prettyText indent value ++ match rest with
    | [] => []
    | _ :: _ => ',' :: prettyMembers indent rest

end

/-- The text of a document on several lines. -/
def pretty (doc : Json) : String :=
  String.ofList (prettyText [] doc)

/-- A number as a reader sees it: whole doubles below `10 ^ 15` have no
fraction. -/
def Number.shown : Number → List Char
  | .whole n => wholeText n
  | .real x =>
    if x.floor == x && x.abs < 1e15 then
      { doubleLayout with wholeFraction := false }.write x
    else
      doubleLayout.write x

mutual

/-- The text form of a value; nothing for `null`. -/
def shown? : Json → Option String
  | .null => none
  | .string s => some s
  | .bool b => some (if b then "true" else "false")
  | .number n => some (String.ofList n.shown)
  | .array items => some ("\n".intercalate (shownItems items))
  | .object members => some (compact (.object members))

/-- The text forms of the items that have one. -/
def shownItems : List Json → List String
  | [] => []
  | item :: rest => match shown? item with
    | some s => s :: shownItems rest
    | none => shownItems rest

end

end BookRules.Json
