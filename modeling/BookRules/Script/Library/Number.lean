import BookRules.Limits
import BookRules.Script.Operation
import BookRules.Script.Token
import BookRules.Unicode.CaseMap

/-!
# Functions on numbers, truth values and characters

Each function is looked up by its name and its arguments; where there is none,
the call fails.
-/

namespace BookRules.Script.Library

open Value

/-- The whole number a digit text stands for in a base, with an optional sign. -/
def parseWhole? (base : Nat) (cs : List Char) : Option Int :=
  let digit? (c : Char) : Option Nat :=
    let n := if c.isDigit then c.toNat - '0'.toNat
      else if c.isLower then c.toNat - 'a'.toNat + 10
      else if c.isUpper then c.toNat - 'A'.toNat + 10
      else 36
    if n < base then some n else none
  let natural? (cs : List Char) : Option Nat :=
    if cs.isEmpty then none
    else cs.foldlM (fun n c => (digit? c).map fun d => base * n + d) 0
  match cs with
  | '-' :: rest => (natural? rest).map fun n => -(n : Int)
  | '+' :: rest => (natural? rest).map fun n => (n : Int)
  | _ => (natural? cs).map fun n => (n : Int)

/-- The digits of a double: a whole part and a fraction, one of them not empty,
and a power. -/
def parseFloatDigits? (cs : List Char) : Option Float :=
  let whole := cs.takeWhile Char.isDigit
  let rest := cs.drop whole.length
  let (fraction, rest) := match rest with
    | '.' :: after =>
      let fraction := after.takeWhile Char.isDigit
      (fraction, after.drop fraction.length)
    | _ => ([], rest)
  if whole.isEmpty && fraction.isEmpty then none
  else
    let power? : Option Int := match rest with
      | [] => some 0
      | e :: power => if e == 'e' || e == 'E' then Decimal.whole? power else none
    power?.map fun power =>
      let power : Int := max (-100000) (min power 100000) - fraction.length
      Float.ofScientific (Decimal.valueOf (whole ++ fraction)) (power < 0) power.natAbs

/-- The double a text stands for. -/
def parseFloat? (cs : List Char) : Option Float :=
  let unsigned? (cs : List Char) : Option Float :=
    let lower := String.ofList (Text.lowerAscii cs)
    if lower == "inf" || lower == "infinity" then some (1.0 / 0.0)
    else if lower == "nan" then some (0.0 / 0.0)
    else parseFloatDigits? cs
  match cs with
  | '-' :: rest => (unsigned? rest).map fun x => -x
  | '+' :: rest => unsigned? rest
  | _ => unsigned? cs

/-- A double without its fraction, if it is in the range of the signed 64-bit
words; the end of the range counts as the greatest word, and a NaN as zero. -/
def truncated? (x : Float) : Option Value :=
  if x.abs > 9223372036854775808.0 then none
  else
    let n : Int := x.abs.toUInt64.toNat
    some (.int (if x < 0 then -n else min n (Word.half64 - 1)))

/-- A double without its fraction. -/
def wholePart (x : Float) : Float :=
  if x < 0 then x.ceil else x.floor

/-- A whole number in a base that is a power of two, by its bits. -/
def inBase (base : Nat) (n : Int) : Value :=
  ofChars (Nat.toDigits base (Word.bits64 n))

def ofInt (name : String) (n : Int) : List Value → Option Reply
  | [] =>
    match name with
    | "abs" => (fitting n.natAbs).map ({ value := · })
    | "sign" => some { value := .int n.sign }
    | "is_zero" => some { value := .bool (n == 0) }
    | "is_odd" => some { value := .bool (n % 2 == 1) }
    | "is_even" => some { value := .bool (n % 2 == 0) }
    | "to_int" => some { value := .int n }
    | "to_float" => some { value := .float (floatOfInt n) }
    | "to_hex" => some { value := inBase 16 n }
    | "to_octal" => some { value := inBase 8 n }
    | "to_binary" => some { value := inBase 2 n }
    | "to_char" => (Text.charOf? n.toNat).bind fun c => if n < 0 then none else some { value := .char c }
    | _ => none
  | [.int m] =>
    match name with
    | "min" => some { value := .int (min n m) }
    | "max" => some { value := .int (max n m) }
    | "range" => some { value := .range n m false }
    | _ => none
  | [.int last, .int step] =>
    match name with
    | "range" =>
      if step == 0 then none else
      let count := ((last - n + step - step.sign) / step).toNat
      let numbers := (List.range (min count Limits.scriptOperations)).map fun (i : Nat) =>
        Value.int (n + step * i)
      some { value := .stream "rhai::packages::iter_basic::StepRange<i64>" numbers }
    | _ => none
  | _ => none

def ofFloat (name : String) (x : Float) : List Value → Option Reply
  | [] =>
    let float (y : Float) : Option Reply := some { value := .float y }
    match name with
    | "abs" => float x.abs
    | "sign" =>
      if x.isNaN then none
      else some { value := .int (if x == 0 then 0 else if x < 0 then -1 else 1) }
    | "is_zero" => some { value := .bool (x == 0) }
    | "to_int" => (truncated? x).map ({ value := · })
    | "to_float" => float x
    | "round" => float x.round
    | "floor" => float x.floor
    | "ceiling" => float x.ceil
    | "int" => float (wholePart x)
    | "fraction" => float (x - wholePart x)
    | "sqrt" => float x.sqrt
    | "exp" => float x.exp
    | "ln" => float x.log
    | "log" => float x.log10
    | "sin" => float x.sin
    | "cos" => float x.cos
    | "tan" => float x.tan
    | "asin" => float x.asin
    | "acos" => float x.acos
    | "atan" => float x.atan
    | "sinh" => float x.sinh
    | "cosh" => float x.cosh
    | "tanh" => float x.tanh
    | "asinh" => float x.asinh
    | "acosh" => float x.acosh
    | "atanh" => float x.atanh
    | "to_degrees" => float (x * (180.0 / 3.141592653589793))
    | "to_radians" => float (x * (3.141592653589793 / 180.0))
    | "is_nan" => some { value := .bool x.isNaN }
    | "is_finite" => some { value := .bool x.isFinite }
    | "is_infinite" => some { value := .bool x.isInf }
    | _ => none
  | [.float y] =>
    match name with
    | "min" => some { value := .float (if y < x then y else x) }
    | "max" => some { value := .float (if x < y then y else x) }
    | "log" => some { value := .float (x.log / y.log) }
    | "atan" => some { value := .float (x.atan2 y) }
    | "hypot" => some { value := .float (Float.sqrt (x * x + y * y)) }
    | _ => none
  | _ => none

/-- The lesser or the greater of a whole number and a double, as a double. -/
def mixedExtreme (name : String) : List Value → Option Reply
  | [.int n, .float y] => ofFloat name (floatOfInt n) [.float y]
  | [.float x, .int n] => ofFloat name x [.float (floatOfInt n)]
  | _ => none

/-- A character in the other case, when one character is enough for it. -/
def inCase (change : Char → List Char) (c : Char) : Value :=
  match change c with
  | [d] => .char d
  | _ => .char c

def ofCharacter (name : String) (c : Char) : List Value → Option Reply
  | [] =>
    match name with
    | "to_int" => some { value := .int c.toNat }
    | "to_upper" => some { value := inCase Unicode.upperChar c }
    | "to_lower" => some { value := inCase Unicode.lowerChar c }
    | "make_upper" => some (.change (inCase Unicode.upperChar c))
    | "make_lower" => some (.change (inCase Unicode.lowerChar c))
    | _ => none
  | [.char d] =>
    match name with
    | "min" => some { value := .char (if d < c then d else c) }
    | "max" => some { value := .char (if c < d then d else c) }
    | _ => none
  | _ => none

/-- Functions on ranges. -/
def ofRange (name : String) (first last : Int) (closed : Bool) : List Value → Option Reply
  | [] =>
    match name with
    | "start" => some { value := .int first }
    | "end" => some { value := .int last }
    | "is_inclusive" => some { value := .bool closed }
    | "is_exclusive" => some { value := .bool !closed }
    | "is_empty" => some { value := .bool (if closed then last < first else last ≤ first) }
    | _ => none
  | _ => none

end BookRules.Script.Library
