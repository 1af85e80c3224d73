import BookRules.Json.Parser

/-!
# Passing over values

A value that nobody asks for is passed over character by character.  What is open
around a place is kept in a list, so arrays and objects may be nested as deep as
they like.  Numbers of any size pass, and so does every escape that is spelled
like one, whether it stands for a character or not.
-/

namespace BookRules.Json

/-- How much of a number was passed. -/
inductive NumberPart
  | minus
  | zero
  | whole
  | point
  | fraction
  | power
  | powerSign
  | powerDigits
  deriving DecidableEq, Repr

namespace NumberPart

def mayEnd : NumberPart → Bool
  | .zero | .whole | .fraction | .powerDigits => true
  | .minus | .point | .power | .powerSign => false

/-- Behind digits a number may go on with a power. -/
def power? (c : Char) : Option NumberPart :=
  if c == 'e' || c == 'E' then some .power else none

/-- Behind its whole part a number may go on with a fraction as well. -/
def point? (c : Char) : Option NumberPart :=
  if c == '.' then some .point else power? c

/-- Pass one more character of a number. -/
def next? (part : NumberPart) (c : Char) : Option NumberPart :=
  let digit (next : NumberPart) : Option NumberPart :=
    if Decimal.isDigit c then some next else none
  match part with
  | .minus => if c == '0' then some .zero else digit .whole
  | .zero => point? c
  | .whole => (digit .whole).or (point? c)
  | .point => digit .fraction
  | .fraction => (digit .fraction).or (power? c)
  | .power => if c == '+' || c == '-' then some .powerSign else digit .powerDigits
  | .powerSign | .powerDigits => digit .powerDigits

/-- The number is over in front of a character.  No digit stands behind a leading
zero. -/
def endsBefore (part : NumberPart) (c : Char) : Bool :=
  part.mayEnd && (part.next? c).isNone && !Decimal.isDigit c

end NumberPart

/-- The values that are words. -/
inductive Word
  | null
  | yes
  | no
  deriving DecidableEq, Repr

def Word.letters : Word → List Char
  | .null => ['n', 'u', 'l', 'l']
  | .yes => ['t', 'r', 'u', 'e']
  | .no => ['f', 'a', 'l', 's', 'e']

inductive Container
  | array
  | object
  deriving DecidableEq, Repr

/-- What is passed next. -/
inductive Place
  | value
  /-- A value, or the end of an array. -/
  | firstItem
  | name
  /-- A name, or the end of an object. -/
  | firstName
  | colon
  /-- What stands behind a value. -/
  | behind
  /-- The inside of a string, which may be the name of a member. -/
  | text (named : Bool)
  | escape (named : Bool)
  /-- A digit of a code, and so many behind it. -/
  | code (named : Bool) (left : Nat)
  /-- What stands behind so many letters of a word. -/
  | word (w : Word) (passed : Nat)
  | number (part : NumberPart)
  deriving DecidableEq, Repr

/-- How far the passing over a value has come. -/
structure Passing where
  place : Place := .value
  opened : List Container := []
  deriving DecidableEq, Repr

namespace Passing

def at_ (p : Passing) (place : Place) : Option Passing :=
  some { p with place }

/-- Pass the first character of a value. -/
def begin? (p : Passing) (c : Char) : Option Passing :=
  match c with
  | '"' => p.at_ (.text false)
  | '[' => some { place := .firstItem, opened := .array :: p.opened }
  | '\x7b' => some { place := .firstName, opened := .object :: p.opened }
  | 'n' => p.at_ (.word .null 1)
  | 't' => p.at_ (.word .yes 1)
  | 'f' => p.at_ (.word .no 1)
  | '-' => p.at_ (.number .minus)
  | _ => (NumberPart.minus.next? c).bind fun part => p.at_ (.number part)

/-- Pass the sign behind a value: a comma, or the end of what is open. -/
def sign? (p : Passing) (c : Char) : Option Passing :=
  match p.opened with
  | .array :: opened =>
    if c == ',' then p.at_ .value
    else if c == ']' then some { place := .behind, opened }
    else none
  | .object :: opened =>
    if c == ',' then p.at_ .name
    else if c == '\x7d' then some { place := .behind, opened }
    else none
  | [] => none

/-- Pass a character. -/
def step? (p : Passing) (c : Char) : Option Passing :=
  match p.place with
  | .value => if isSpace c then some p else p.begin? c
  | .firstItem => if isSpace c then some p else if c == ']' then p.sign? c else p.begin? c
  | .name => if isSpace c then some p else if c == '"' then p.at_ (.text true) else none
  | .firstName =>
    if isSpace c then some p
    else if c == '"' then p.at_ (.text true)
    else if c == '\x7d' then p.sign? c
    else none
  | .colon => if isSpace c then some p else if c == ':' then p.at_ .value else none
  | .behind => if isSpace c then some p else p.sign? c
  | .text named =>
    if c == '"' then p.at_ (if named then .colon else .behind)
    else if c == '\\' then p.at_ (.escape named)
    else if c.toNat < 0x20 then none
    else some p
  | .escape named =>
    if c == 'u' then p.at_ (.code named 3)
    else (simpleEscape? c).bind fun _ => p.at_ (.text named)
  | .code named left =>
    (Text.hexValue? c).bind fun _ =>
      match left with
      | 0 => p.at_ (.text named)
      | left + 1 => p.at_ (.code named left)
  | .word w passed =>
    if w.letters[passed]? == some c then
      p.at_ (if passed + 1 = w.letters.length then .behind else .word w (passed + 1))
    else none
  | .number part => (part.next? c).bind fun part => p.at_ (.number part)

/-- The place in front of a character: a number ends there when it does not go on. -/
def before (p : Passing) (c : Char) : Passing :=
  match p.place with
  | .number part => if part.endsBefore c then { p with place := .behind } else p
  | _ => p

/-- The whole value was passed. -/
def isOver (p : Passing) : Bool :=
  p.place == .behind && p.opened.isEmpty

/-- The value may end with the text. -/
def mayEnd (p : Passing) : Bool :=
  p.opened.isEmpty &&
    match p.place with
    | .behind => true
    | .number part => part.mayEnd
    | _ => false

/-- Pass over the rest of a value; the answer is what stands behind it. -/
def pass? (p : Passing) : List Char → Option (List Char)
  | [] => if p.mayEnd then some [] else none
  | c :: cs =>
    let p := p.before c
    if p.isOver then some (c :: cs)
    else match p.step? c with
      | some p => pass? p cs
      | none => none

end Passing

end BookRules.Json
