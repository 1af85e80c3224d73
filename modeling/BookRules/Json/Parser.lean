import BookRules.Text.Hexadecimal
import BookRules.Word
import BookRules.Json.Value
import BookRules.Decimal.Whole

/-!
# Reading JSON

The grammar is the strict one: no comments, no trailing commas, no lone
surrogates, nothing but white space around the document, and at most 127 open
arrays and objects.

A number without fraction and power that fits a 64-bit word is whole.  For any
other number the digits are gathered into one unsigned word as long as they
fit, the digits after that only shift the power of ten, and the word is then
multiplied or divided by that power in double arithmetic.  Numbers too large for
a double are refused.
-/

namespace BookRules.Json

/-- White space between tokens. -/
def isSpace (c : Char) : Bool :=
  c == ' ' || c == '\n' || c == '\t' || c == '\r'

def skipSpace (cs : List Char) : List Char :=
  cs.dropWhile isSpace

/-- Value of four hexadecimal digits. -/
def hex4? (a b c d : Char) : Option Nat := do
  let front := (← Text.hexValue? a) * 16 + (← Text.hexValue? b)
  return (front * 16 + (← Text.hexValue? c)) * 16 + (← Text.hexValue? d)

def isHighSurrogate (n : Nat) : Bool :=
  0xD800 ≤ n && n < 0xDC00

def isLowSurrogate (n : Nat) : Bool :=
  0xDC00 ≤ n && n < 0xE000

/-- What a backslash and a letter stand for. -/
def simpleEscape? (c : Char) : Option Char :=
  if c == '"' || c == '\\' || c == '/' then some c
  else if c == 'b' then some '\x08'
  else if c == 'f' then some '\x0c'
  else if c == 'n' then some '\n'
  else if c == 'r' then some '\r'
  else if c == 't' then some '\t'
  else none

/-- The rest of a string, up to and including the closing quote; `done` holds
the characters read in reverse. -/
def stringTail? (done : List Char) : List Char → Option (String × List Char)
  | [] => none
  | '"' :: rest => some (String.ofList done.reverse, rest)
  | '\\' :: 'u' :: a :: b :: c :: d :: rest =>
    match hex4? a b c d with
    | none => none
    | some high =>
      if isLowSurrogate high then none
      else if isHighSurrogate high then
        match rest with
        | '\\' :: 'u' :: e :: f :: g :: h :: rest =>
          match hex4? e f g h with
          | none => none
          | some low =>
            if isLowSurrogate low then
              let code := 0x10000 + (high - 0xD800) * 0x400 + (low - 0xDC00)
              stringTail? (Char.ofNat code :: done) rest
            else none
        | _ => none
      else stringTail? (Char.ofNat high :: done) rest
  | '\\' :: c :: rest =>
    match simpleEscape? c with
    | some e => stringTail? (e :: done) rest
    | none => none
  | c :: rest => if c.toNat < 0x20 || c == '\\' then none else stringTail? (c :: done) rest

/-- The largest number that the digits of a double are gathered into. -/
def significandMax : Nat :=
  Word.range64 - 1

/-- Take digits into the significand as long as they fit.  The answer is the
significand, the number of digits taken and the number of digits left out. -/
def gather (significand taken : Nat) : List Char → Nat × Nat × Nat
  | [] => (significand, taken, 0)
  | c :: cs =>
    let next := significand * 10 + Decimal.digitValue c
    if significandMax < next then (significand, taken, cs.length + 1) else gather next (taken + 1) cs

/-- A power of ten as a double. -/
def powerOfTen (n : Nat) : Float :=
  Float.ofScientific 1 false n

/-- The double `f * 10 ^ exponent`, computed in steps of at most `10 ^ 308`;
nothing when it is infinite. -/
def scaled? (fuel : Nat) (f : Float) (exponent : Int) : Option Float :=
  if exponent.natAbs ≤ 308 then
    if 0 ≤ exponent then
      let g := f * powerOfTen exponent.natAbs
      if g.isInf then none else some g
    else
      some (f / powerOfTen exponent.natAbs)
  else if f == 0 then some f
  else if 0 ≤ exponent then none
  else match fuel with
    | 0 => some 0
    | fuel + 1 => scaled? fuel (f / powerOfTen 308) (exponent + 308)

/-- A double from its sign, its digits and its power of ten. -/
def assemble? (negative : Bool) (significand : Nat) (exponent : Int) : Option Number :=
  (scaled? 4 (UInt64.ofNat significand).toFloat exponent).map fun f =>
    .real (if negative then -f else f)

/-- The largest power that is read. -/
def exponentMax : Nat :=
  Word.half32 - 1

/-- Read the power after `e`. -/
def powerPart? (negative : Bool) (significand : Nat) (start : Int) (cs : List Char) :
    Option (Number × List Char) :=
  let (down, cs) := match cs with
    | '+' :: rest => (false, rest)
    | '-' :: rest => (true, rest)
    | _ => (false, cs)
  let digits := cs.takeWhile Decimal.isDigit
  let rest := cs.dropWhile Decimal.isDigit
  if digits.isEmpty then none
  else
    let n := Decimal.valueOf digits
    if exponentMax < n then
      if significand != 0 && !down then none
      else some (.real (if negative then -0.0 else 0.0), rest)
    else
      (assemble? negative significand (if down then start - n else start + n)).map (·, rest)

/-- Continue after the whole part and the fraction. -/
def afterFraction? (negative : Bool) (significand : Nat) (exponent : Int) (cs : List Char) :
    Option (Number × List Char) :=
  match cs with
  | 'e' :: rest | 'E' :: rest => powerPart? negative significand exponent rest
  | _ => (assemble? negative significand exponent).map (·, cs)

/-- Read the fraction after the point. -/
def fractionPart? (negative : Bool) (significand : Nat) (exponent : Int) (cs : List Char) :
    Option (Number × List Char) :=
  let digits := cs.takeWhile Decimal.isDigit
  if digits.isEmpty then none
  else
    let (significand, taken, _) := gather significand 0 digits
    afterFraction? negative significand (exponent - taken) (cs.dropWhile Decimal.isDigit)

/-- A whole number with its sign.  Minus zero and numbers below the signed
range are doubles. -/
def wholeNumber (negative : Bool) (n : Nat) : Number :=
  if !negative then .whole n
  else if n == 0 || Word.half64 < n then .real (-(UInt64.ofNat n).toFloat)
  else .whole (-(n : Int))

/-- Read a number after its sign. -/
def numberTail? (negative : Bool) (cs : List Char) : Option (Number × List Char) :=
  let digits := cs.takeWhile Decimal.isDigit
  let rest := cs.dropWhile Decimal.isDigit
  match digits with
  | [] => none
  | '0' :: _ :: _ => none
  | _ =>
    let (significand, _, left) := gather 0 0 digits
    match rest with
    | '.' :: after => fractionPart? negative significand left after
    | 'e' :: after | 'E' :: after => powerPart? negative significand left after
    | _ =>
      if left == 0 then some (wholeNumber negative significand, rest)
      else (assemble? negative significand left).map (·, rest)

/-- Read a number. -/
def number? : List Char → Option (Number × List Char)
  | '-' :: cs => numberTail? true cs
  | cs => numberTail? false cs

/-- The number of arrays and objects that may be open. -/
def maxDepth : Nat :=
  127

mutual

/-- Read a value.  `depth` more arrays and objects may be opened. -/
def value? (fuel depth : Nat) (cs : List Char) : Option (Json × List Char) :=
  match fuel with
  | 0 => none
  | fuel + 1 =>
    match skipSpace cs with
    | 'n' :: 'u' :: 'l' :: 'l' :: rest => some (.null, rest)
    | 't' :: 'r' :: 'u' :: 'e' :: rest => some (.bool true, rest)
    | 'f' :: 'a' :: 'l' :: 's' :: 'e' :: rest => some (.bool false, rest)
    | '"' :: rest => (stringTail? [] rest).map fun (s, rest) => (.string s, rest)
    | '[' :: rest =>
      match depth with
      | 0 => none
      | depth + 1 =>
        match skipSpace rest with
        | ']' :: rest => some (.array [], rest)
        | _ => (items? fuel depth [] rest).map fun (items, rest) => (.array items, rest)
    | '{' :: rest =>
      match depth with
      | 0 => none
      | depth + 1 =>
        match skipSpace rest with
        | '}' :: rest => some (.object [], rest)
        | _ => (members? fuel depth [] rest).map fun (members, rest) => (.object members, rest)
    | cs => (number? cs).map fun (n, rest) => (.number n, rest)

/-- Read the items of an array up to the closing bracket. -/
def items? (fuel depth : Nat) (done : List Json) (cs : List Char) :
    Option (List Json × List Char) :=
  match fuel with
  | 0 => none
  | fuel + 1 =>
    match value? fuel depth cs with
    | none => none
    | some (item, rest) =>
      match skipSpace rest with
      | ',' :: rest => items? fuel depth (item :: done) rest
      | ']' :: rest => some ((item :: done).reverse, rest)
      | _ => none

/-- Read the members of an object up to the closing brace, as they are written. -/
def members? (fuel depth : Nat) (done : List (String × Json)) (cs : List Char) :
    Option (List (String × Json) × List Char) :=
  match fuel with
  | 0 => none
  | fuel + 1 =>
    match skipSpace cs with
    | '"' :: rest =>
      match stringTail? [] rest with
      | none => none
      | some (name, rest) =>
        match skipSpace rest with
        | ':' :: rest =>
          match value? fuel depth rest with
          | none => none
          | some (value, rest) =>
            match skipSpace rest with
            | ',' :: rest => members? fuel depth ((name, value) :: done) rest
            | '}' :: rest => some (((name, value) :: done).reverse, rest)
            | _ => none
        | _ => none
    | _ => none

end

/-- Read a document as it is written: a name may stand twice in an object. -/
def written? (cs : List Char) : Option Json :=
  match value? (2 * cs.length + 2) maxDepth cs with
  | some (doc, rest) => if (skipSpace rest).isEmpty then some doc else none
  | none => none

/-- Read a document. -/
def parse? (cs : List Char) : Option Json :=
  (written? cs).map merged

end BookRules.Json
