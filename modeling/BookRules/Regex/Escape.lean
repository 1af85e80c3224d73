import BookRules.Text.Hexadecimal
import BookRules.Regex.Syntax

/-!
# Flags and escapes

The flags that hold at a place of a regular expression, and what is left to read
there.  In the mode that ignores white space, spaces and comments are passed
over between the parts of an expression.

A backslash stands for a character by its code, a class of characters by its
letter or by a property, or a place in the text.
-/

namespace BookRules.Regex

structure Flags where
  ignoreCase : Bool := false
  multiLine : Bool := false
  dotAll : Bool := false
  swapGreed : Bool := false
  unicode : Bool := true
  carriageReturn : Bool := false
  ignoreSpace : Bool := false
  deriving DecidableEq, Repr

/-- What is left to read and what was seen. -/
structure Reader where
  rest : List Char
  flags : Flags := {}
  groups : Nat := 0
  names : List (List Char) := []

namespace Reader

def withRest (r : Reader) (rest : List Char) : Reader :=
  { r with rest }

/-- Skip white space and comments, in the mode that ignores them. -/
def skipSpaceWith : Nat → List Char → List Char
  | 0, cs => cs
  | fuel + 1, cs =>
    match cs.dropWhile Text.isBlank with
    | '#' :: rest => skipSpaceWith fuel (rest.dropWhile (· != '\n'))
    | cs => cs

def skipSpace (r : Reader) : Reader :=
  if r.flags.ignoreSpace then r.withRest (skipSpaceWith (r.rest.length + 1) r.rest) else r

/-- Pass over a character and the space behind it. -/
def bump (r : Reader) : Reader :=
  (r.withRest (r.rest.drop 1)).skipSpace

end Reader

/-- Characters with a meaning of their own. -/
def isMeta (c : Char) : Bool :=
  ['\\', '.', '+', '*', '?', '(', ')', '|', '[', ']', '\x7b', '\x7d', '^', '$', '#', '&', '-',
    '~'].contains c

/-- Characters that a backslash makes literal. -/
def isEscapable (c : Char) : Bool :=
  isMeta c || (c.toNat < 128 && !c.isAlphanum && c != '<' && c != '>')

/-- Read so many hexadecimal digits. -/
def fixedHex? (r : Reader) : Nat → Nat → Option (Nat × Reader)
  | 0, code => some (code, r)
  | n + 1, code =>
    match r.rest with
    | c :: _ => (Text.hexValue? c).bind fun d => fixedHex? r.bump n (16 * code + d)
    | [] => none

/-- Read hexadecimal digits up to the closing brace. -/
def bracedHex? (r : Reader) : Nat → List Nat → Option (Nat × Reader)
  | 0, _ => none
  | fuel + 1, digits =>
    match r.rest with
    | '\x7d' :: _ =>
      if digits.isEmpty then none
      else some (digits.reverse.foldl (fun n d => 16 * n + d) 0, r.bump)
    | c :: _ => (Text.hexValue? c).bind fun d => bracedHex? r.bump fuel (d :: digits)
    | [] => none

/-- Read the digits of an escape by code point. -/
def hexEscape? (count : Nat) (r : Reader) : Option (Char × Reader) := do
  let (code, r) ← match r.rest with
    | '\x7b' :: _ => bracedHex? r.bump (r.rest.length + 1) []
    | _ => fixedHex? r count 0
  return (← Text.charOf? code, r)

/-- Read characters up to the closing brace. -/
def braced? (r : Reader) : Nat → List Char → Option (List Char × Reader)
  | 0, _ => none
  | fuel + 1, done =>
    match r.rest with
    | '\x7d' :: rest => some (done.reverse, r.withRest rest)
    | c :: _ => braced? r.bump fuel (c :: done)
    | [] => none

/-- The set of a property, from the text in braces. -/
def propertySet? (text : List Char) : Option CharSet :=
  match Text.cutAt? ['!', '='] text with
  | some (name, value) =>
    (CharSet.propertyValue? (String.ofList name) (String.ofList value)).map CharSet.complement
  | none =>
    match (Text.cutAt? [':'] text).or (Text.cutAt? ['='] text) with
    | some (name, value) => CharSet.propertyValue? (String.ofList name) (String.ofList value)
    | none => CharSet.property? (String.ofList text)

/-- Read the name of a property after `p`. -/
def property? (r : Reader) : Option (CharSet × Reader) :=
  match r.rest with
  | '\x7b' :: _ => do
    let (text, r) ← braced? r.bump (r.rest.length + 1) []
    return (← propertySet? text, r)
  | '\\' :: _ => none
  | c :: _ => (CharSet.property? (String.ofList [c])).map (·, r.bump)
  | [] => none

/-- Apply the case flag to a set. -/
def caseClosed (flags : Flags) (set : CharSet) : CharSet :=
  if !flags.ignoreCase then set
  else if flags.unicode then set.closeCase
  else set.closeAsciiCase

/-- Take the opposite of a set, when asked. -/
def negated (negate : Bool) (set : CharSet) : CharSet :=
  if negate then set.complement else set

/-- Without Unicode a set must consist of ASCII characters. -/
def allowed? (flags : Flags) (set : CharSet) : Option CharSet :=
  if flags.unicode || set.isAscii then some set else none

/-- The set of a class that is written with one letter. -/
def letterClass? (flags : Flags) (letter : Char) : Option CharSet :=
  let pick (wide ascii : CharSet) (negate : Bool) : Option CharSet :=
    allowed? flags (negated negate (if flags.unicode then wide else ascii))
  match letter with
  | 'd' => pick .digits .asciiDigits false
  | 'D' => pick .digits .asciiDigits true
  | 's' => pick .spaces .asciiSpaces false
  | 'S' => pick .spaces .asciiSpaces true
  | 'w' => pick .wordChars .asciiWordChars false
  | 'W' => pick .wordChars .asciiWordChars true
  | _ => none

/-- Something that stands for one character or for a place. -/
inductive Atom
  | literal (c : Char)
  | set (s : CharSet)
  | place (p : Place)

/-- The condition named behind `\b`, if there is a name in braces.  The outer
option is empty on an error. -/
def namedBoundary? (r : Reader) : Option (Option (Place × Reader)) :=
  match r.rest with
  | '\x7b' :: _ =>
    let inside := r.bump
    let isNameChar (c : Char) := c.isAlpha || c == '-'
    match inside.rest with
    | [] => none
    | c :: _ =>
      if !isNameChar c then some none
      else
        let ascii := !r.flags.unicode
        match braced? inside (inside.rest.length + 1) [] with
        | none => none
        | some (name, r) =>
          match String.ofList name with
          | "start" => some (some (.wordEdge ascii (some false) (some true), r))
          | "end" => some (some (.wordEdge ascii (some true) (some false), r))
          | "start-half" => some (some (.wordEdge ascii (some false) none, r))
          | "end-half" => some (some (.wordEdge ascii none (some false), r))
          | _ => none
  | _ => some none

/-- Read an escape after its backslash. -/
def escape? (r : Reader) : Option (Atom × Reader) :=
  let flags := r.flags
  match r.rest with
  | [] => none
  | c :: rest =>
    let after := r.withRest rest
    let literal (c : Char) : Option (Atom × Reader) := some (.literal c, after)
    let place (p : Place) : Option (Atom × Reader) := some (.place p, after)
    let ascii := !flags.unicode
    if isEscapable c then literal c
    else match c with
      | 'x' => (hexEscape? 2 r.bump).map fun (c, r) => (.literal c, r)
      | 'u' => (hexEscape? 4 r.bump).map fun (c, r) => (.literal c, r)
      | 'U' => (hexEscape? 8 r.bump).map fun (c, r) => (.literal c, r)
      | 'p' | 'P' =>
        if !flags.unicode then none
        else (property? r.bump).map fun (set, r) =>
          (.set (negated (c == 'P') (caseClosed flags set)), r)
      | 'd' | 'D' | 's' | 'S' | 'w' | 'W' => (letterClass? flags c).map fun s => (.set s, after)
      | 'a' => literal '\x07'
      | 'f' => literal '\x0c'
      | 't' => literal '\t'
      | 'n' => literal '\n'
      | 'r' => literal '\r'
      | 'v' => literal '\x0b'
      | 'A' => place .textStart
      | 'z' => place .textEnd
      | 'b' =>
        (namedBoundary? after).map fun
          | some (p, r) => (.place p, r)
          | none => (.place (.wordBoundary ascii false), after)
      | 'B' => place (.wordBoundary ascii true)
      | '<' => place (.wordEdge ascii (some false) (some true))
      | '>' => place (.wordEdge ascii (some true) (some false))
      | _ => none

end BookRules.Regex
