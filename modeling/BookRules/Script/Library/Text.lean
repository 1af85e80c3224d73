import BookRules.Json.Parser
import BookRules.Limits
import BookRules.Script.Library.Number
import BookRules.Text.Blank

/-!
# Functions on texts

Lengths and places count characters, and negative places count from the end.
Some functions change the text they are called on and give nothing.
-/

namespace BookRules.Script.Library

open Value

/-- The characters of a text or a character. -/
def charsOf? : Value → Option (List Char)
  | .text s => some s.toList
  | .char c => some [c]
  | _ => none

/-- The pieces of a text between the occurrences of another; an empty one occurs
around every character. -/
def pieces (needle cs : List Char) : List (List Char) :=
  if needle.isEmpty then [] :: cs.map ([·]) ++ [[]] else Text.splitAll needle cs

/-- The first pieces, at most so many; the last one keeps what is left. -/
def firstPieces (count : Nat) (needle cs : List Char) : List (List Char) :=
  let all := pieces needle cs
  if all.length ≤ count then all
  else all.take (count - 1) ++ [Text.joinWith needle (all.drop (count - 1))]

/-- The last pieces, the last one first, at most so many; the last of them keeps
what is left. -/
def lastPieces (count : Nat) (needle cs : List Char) : List (List Char) :=
  let all := (pieces needle cs).reverse
  if all.length ≤ count then all
  else all.take (count - 1) ++ [Text.joinWith needle (all.drop (count - 1)).reverse]

def listOf (parts : List (List Char)) : Reply :=
  { value := .list (parts.map ofChars) }

/-- The place of the first occurrence from a place on, or -1.  Nothing occurs in
an empty text. -/
def occurrence (needle cs : List Char) (start : Int) : Value :=
  let (offset, _) := part cs.length start 0
  if cs.isEmpty || (0 < start && cs.length ≤ start.toNat) then .int (-1)
  else
    match Text.cutAt? needle (cs.drop offset) with
    | some (before, _) => .int (offset + before.length)
    | none => .int (-1)

/-- A text made longer by repeating characters up to a length. -/
def padded (cs filler : List Char) (length : Int) : Option Reply :=
  if filler.isEmpty || length ≤ cs.length then some (.change (ofChars cs))
  else if Limits.scriptTextBytes < length then none
  else
    let missing := length.toNat - cs.length
    let copies := (List.replicate (missing / filler.length + 1) filler).flatten
    some (.change (ofChars (cs ++ copies.take missing)))

/-- The map that a JSON text stands for. -/
def readMap? (s : String) : Option Value :=
  match Json.parse? s.toList with
  | some (.object members) => some (Value.ofJson (.object members))
  | _ => none

/-- Characters to be gone through. -/
def characterStream (cs : List Char) : Value :=
  .stream "rhai::packages::iter_basic::CharsStream" (cs.map .char)

/-- Functions of a text alone. -/
def ofTextAlone (name : String) (s : String) : Option Reply :=
  let cs := s.toList
  match name with
  | "len" => some { value := .int cs.length }
  | "bytes" => some { value := .int (Text.byteCount cs) }
  | "is_empty" => some { value := .bool s.isEmpty }
  | "trim" => some (.change (ofChars (Text.trim cs)))
  | "clear" => some (.change (.text ""))
  | "to_upper" => some { value := .text (Unicode.upperText s) }
  | "to_lower" => some { value := .text (Unicode.lowerText s) }
  | "make_upper" => some (.change (.text (Unicode.upperText s)))
  | "make_lower" => some (.change (.text (Unicode.lowerText s)))
  | "chars" => some { value := characterStream cs }
  | "to_chars" => some { value := .list (cs.map .char) }
  | "split" => some (listOf (Text.words cs))
  | "pop" =>
    match cs.getLast? with
    | some c => some { value := .char c, changed := some (ofChars cs.dropLast) }
    | none => some { value := .unit, changed := some (.text "") }
  | "parse_int" => ((parseWhole? 10 (Text.trim cs)).bind fitting).map ({ value := · })
  | "parse_json" => (readMap? s).map ({ value := · })
  | "parse_float" => (parseFloat? (Text.trim cs)).map ({ value := .float · })
  | _ => none

/-- Functions of two texts. -/
def ofTexts (name : String) (cs other : List Char) : Option Reply :=
  match name with
  | "starts_with" => some { value := .bool (other.isPrefixOf cs) }
  | "ends_with" => some { value := .bool (other.isSuffixOf cs) }
  | "min" => some { value := ofChars (if other < cs then other else cs) }
  | "max" => some { value := ofChars (if cs < other then other else cs) }
  | _ => none

/-- Functions of a text and a text or character in it. -/
def ofTextAndNeedle (name : String) (cs needle : List Char) : Option Reply :=
  match name with
  | "contains" => some { value := .bool (Text.occursIn needle cs) }
  | "index_of" => some { value := occurrence needle cs 0 }
  | "split" => some (listOf (pieces needle cs))
  | "split_rev" => some (listOf (pieces needle cs).reverse)
  | "remove" => some (.change (ofChars (Text.replaceAll needle [] cs)))
  | _ => none

/-- Functions of a text and a place. -/
def ofTextAndPlace (name : String) (cs : List Char) (n : Int) : Option Reply :=
  match name with
  | "get" =>
    some { value := (((place? cs.length n).bind fun i => cs[i]?).map .char).getD .unit }
  | "truncate" => some (.change (ofChars (cs.take n.toNat)))
  | "split" =>
    let offset := if n < 0 then cs.length - n.natAbs else n.toNat
    some (listOf [cs.take offset, cs.drop offset])
  | "pop" =>
    let kept := cs.length - n.toNat
    some { value := ofChars (cs.drop kept), changed := some (ofChars (cs.take kept)) }
  | "parse_int" =>
    if n < 2 || 36 < n then none
    else ((parseWhole? n.toNat (Text.trim cs)).bind fitting).map ({ value := · })
  | _ => none

/-- Functions of a text and further values. -/
def ofTextAndMore (name : String) (cs : List Char) (arguments : List Value) : Option Reply :=
  match name, arguments with
  | "replace", [a, b] => do
    let needle ← charsOf? a
    let replacement ← charsOf? b
    return .change (ofChars (Text.replaceAll needle replacement cs))
  | "index_of", [a, .int start] => do
    let needle ← charsOf? a
    return { value := occurrence needle cs start }
  | "split", [a, .int count] => do
    let needle ← charsOf? a
    return listOf (firstPieces (max 1 count.toNat) needle cs)
  | "split_rev", [a, .int count] => do
    let needle ← charsOf? a
    return listOf (lastPieces (max 1 count.toNat) needle cs)
  | "pad", [.int length, a] => do padded cs (← charsOf? a) length
  | "set", [.int n, .char c] =>
    some (.change (ofChars (match place? cs.length n with
      | some i => cs.set i c
      | none => cs)))
  | "append", [v] => some (.change (ofChars (cs ++ v.plain)))
  | _, _ => none

/-- Functions of a text and a part of it. -/
def ofTextPart (name : String) (cs : List Char) (offset count : Nat) : Option Reply :=
  let chosen := (cs.drop offset).take count
  match name with
  | "sub_string" => some { value := ofChars chosen }
  | "crop" => some (.change (ofChars chosen))
  | "chars" => some { value := characterStream chosen }
  | _ => none

def ofText (name : String) (s : String) (arguments : List Value) : Option Reply :=
  let cs := s.toList
  let byPart := (partOf? cs.length arguments).bind fun (offset, count) =>
    ofTextPart name cs offset count
  let direct := match arguments with
    | [] => ofTextAlone name s
    | [.text t] => (ofTextAndNeedle name cs t.toList).or (ofTexts name cs t.toList)
    | [.char c] => ofTextAndNeedle name cs [c]
    | [.int n] => ofTextAndPlace name cs n
    | _ => none
  (byPart.or direct).or (ofTextAndMore name cs arguments)

end BookRules.Script.Library
