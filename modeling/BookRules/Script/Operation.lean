import BookRules.Word
import BookRules.Script.Value
import BookRules.Text.Occurrence

/-!
# Operations on values

Whole numbers are signed 64-bit words: an operation whose result does not fit,
a division by zero and a negative power of a whole number have no result.
Whole numbers and doubles may be mixed.  Text and anything else add up to a
text.  Values of different kinds are unequal, and none of them is the lesser.
-/

namespace BookRules.Script

namespace Value

/-- A whole number, if it fits. -/
def fitting (n : Int) : Option Value :=
  if Word.inSigned64 n then some (.int n) else none

def ofChars (cs : List Char) : Value :=
  .text (String.ofList cs)

/-- The remainder that has the sign of the first number. -/
def floatRemainder (x y : Float) : Float :=
  let q := x / y
  x - y * (if q < 0 then q.ceil else q.floor)

/-- A power of a whole number; `none` when it leaves the signed 64-bit words. -/
def wholePower : Nat → Int → Nat → Option Int
  | 0, _, _ => none
  | _ + 1, _, 0 => some 1
  | fuel + 1, base, e =>
    if Word.range32 ≤ e then none
    else if base == 0 || base == 1 then some base
    else if base == -1 then some (if e % 2 == 0 then 1 else -1)
    else if 64 < e then none
    else (wholePower fuel base (e - 1)).map (· * base)

def shiftLeft (a b : Int) : Int :=
  if b < 0 then (if b ≤ -64 then (if a < 0 then -1 else 0) else a >>> b.natAbs)
  else if 64 ≤ b then 0
  else Word.signed64 (a * Nat.pow 2 b.natAbs)

/-- Whole numbers. -/
def wholeOperation (op : Operator) (a b : Int) : Option Value :=
  match op with
  | .add => fitting (a + b)
  | .sub => fitting (a - b)
  | .mul => fitting (a * b)
  | .div => if b == 0 then none else fitting (a.tdiv b)
  | .rem => if b == 0 || (b == -1 && a == -Word.half64) then none else fitting (a.tmod b)
  | .pow => if b < 0 then none else (wholePower 70 a b.toNat).bind fitting
  | .shiftLeft => some (.int (shiftLeft a b))
  | .shiftRight => some (.int (shiftLeft a (-b)))
  | .bitAnd => some (.int (Word.signed64 (Word.bits64 a &&& Word.bits64 b)))
  | .bitOr => some (.int (Word.signed64 (Word.bits64 a ||| Word.bits64 b)))
  | .bitXor => some (.int (Word.signed64 (Word.bits64 a ^^^ Word.bits64 b)))
  | .lt => some (.bool (a < b))
  | .le => some (.bool (a ≤ b))
  | .gt => some (.bool (b < a))
  | .ge => some (.bool (b ≤ a))
  | .eq => some (.bool (a == b))
  | .ne => some (.bool (a != b))
  | .inside => none

/-- Doubles. -/
def floatOperation (op : Operator) (a b : Float) : Option Value :=
  match op with
  | .add => some (.float (a + b))
  | .sub => some (.float (a - b))
  | .mul => some (.float (a * b))
  | .div => some (.float (a / b))
  | .rem => some (.float (floatRemainder a b))
  | .pow => some (.float (a.pow b))
  | .lt => some (.bool (a < b))
  | .le => some (.bool (a ≤ b))
  | .gt => some (.bool (b < a))
  | .ge => some (.bool (b ≤ a))
  | .eq => some (.bool (a == b))
  | .ne => some (.bool (a != b))
  | _ => none

def truthOperation (op : Operator) (a b : Bool) : Option Value :=
  match op with
  | .bitAnd => some (.bool (a && b))
  | .bitOr => some (.bool (a || b))
  | .bitXor => some (.bool (a != b))
  | .lt => some (.bool (!a && b))
  | .le => some (.bool (!a || b))
  | .gt => some (.bool (a && !b))
  | .ge => some (.bool (a || !b))
  | .eq => some (.bool (a == b))
  | .ne => some (.bool (a != b))
  | _ => none

/-- Texts and characters. -/
def textOperation (op : Operator) (a b : String) : Option Value :=
  match op with
  | .add => some (.text (a ++ b))
  | .lt => some (.bool (a < b))
  | .le => some (.bool (a ≤ b))
  | .gt => some (.bool (b < a))
  | .ge => some (.bool (b ≤ a))
  | .eq => some (.bool (a == b))
  | .ne => some (.bool (a != b))
  | _ => none

/-- Merge the members of a second map into a first. -/
def mergeMembers (members more : List (String × Value)) : List (String × Value) :=
  more.foldl (fun done (name, v) => setMember name v done) members

/-- Values that are neither numbers nor texts nor truth values, or are of
different kinds. -/
def mixedOperation (op : Operator) (a b : Value) : Option Value :=
  match op with
  | .add =>
    match a, b with
    | .list as, .list bs => some (.list (as ++ bs))
    | .map as, .map bs => some (.map (mergeMembers as bs))
    | .text _, _ => some (ofChars (a.plain ++ b.plain))
    | _, .text _ => some (ofChars (a.plain ++ b.plain))
    | _, _ => none
  | .eq => some (.bool (same a b))
  | .ne => some (.bool (!same a b))
  | .lt | .gt => if a.typeName == b.typeName && a.typeName != "()" then none else some (.bool false)
  | .le | .ge =>
    if a.typeName == b.typeName then (if a.typeName == "()" then some (.bool true) else none)
    else some (.bool false)
  | _ => none

/-- Whether a value is in a collection. -/
def contains? (whole part : Value) : Option Bool :=
  match whole, part with
  | .text s, .text t => some (Text.occursIn t.toList s.toList)
  | .text s, .char c => some (s.toList.contains c)
  | .list items, v => some (items.any fun item => same item v)
  | .map members, .text name => some (member? name members).isSome
  | .range first last closed, .int n =>
    some (first ≤ n && (if closed then n ≤ last else n < last))
  | _, _ => none

def operate (op : Operator) (a b : Value) : Option Value :=
  if op == .inside then (contains? b a).map .bool
  else
    match a, b with
    | .int a, .int b => wholeOperation op a b
    | .float a, .float b => floatOperation op a b
    | .int a, .float b => floatOperation op (floatOfInt a) b
    | .float a, .int b => floatOperation op a (floatOfInt b)
    | .bool a, .bool b => truthOperation op a b
    | .text a, .text b =>
      if op == .sub then some (ofChars (Text.replaceAll b.toList [] a.toList))
      else textOperation op a b
    | .text a, .char b =>
      if op == .sub then some (ofChars (a.toList.filter (· != b)))
      else textOperation op a (String.singleton b)
    | .char a, .text b => textOperation op (String.singleton a) b
    | .char a, .char b => textOperation op (String.singleton a) (String.singleton b)
    | a, b => mixedOperation op a b

/-- The negative of a number. -/
def negative? : Value → Option Value
  | .int n => fitting (-n)
  | .float x => some (.float (-x))
  | _ => none

/-- The place an index means among `count` places; negative ones count from the
end. -/
def place? (count : Nat) (n : Int) : Option Nat :=
  if 0 ≤ n then (if n < count then some n.toNat else none)
  else if n.natAbs ≤ count then some (count - n.natAbs)
  else none

/-- Where a part starts and how many places it has, cut to `count` places. -/
def part (count : Nat) (start length : Int) : Nat × Nat :=
  let offset := if start < 0 then count - start.natAbs else min start.toNat count
  (offset, min length.toNat (count - offset))

/-- The part a range means. -/
def rangePart (first last : Int) (closed : Bool) : Int × Int :=
  let start := max first 0
  let stop := max (if closed then last + 1 else last) start
  (start, stop - start)

/-- The part that one or two arguments mean: from a place on, from a place so
many, or a range. -/
def partOf? (count : Nat) : List Value → Option (Nat × Nat)
  | [.int start] => some (part count start Word.half64)
  | [.int start, .int length] => some (part count start length)
  | [.range first last closed] =>
    let (start, length) := rangePart first last closed
    some (part count start length)
  | _ => none

def item? (object position : Value) : Option Value :=
  match object, position with
  | .list items, .int n => (place? items.length n).bind fun i => items[i]?
  | .map members, .text name => some ((member? name members).getD .unit)
  | .text s, .int n =>
    let cs := s.toList
    ((place? cs.length n).bind fun i => cs[i]?).map .char
  | .text s, .range first last closed =>
    let cs := s.toList
    let (start, length) := rangePart first last closed
    let (offset, count) := part cs.length start length
    some (ofChars ((cs.drop offset).take count))
  | .int n, .int i => (place? 64 i).map fun i => .bool ((Word.bits64 n).testBit i)
  | _, _ => none

def setItem? (object position v : Value) : Option Value :=
  match object, position with
  | .list items, .int n => (place? items.length n).map fun i => .list (items.set i v)
  | .map members, .text name => some (.map (setMember name v members))
  | .text s, .int n =>
    match v with
    | .char c =>
      let cs := s.toList
      (place? cs.length n).map fun i => ofChars (cs.set i c)
    | _ => none
  | _, _ => none

/-- At most `limit` numbers of a range. -/
def rangeItems (limit : Nat) (first last : Int) (closed : Bool) : List Value :=
  let count := (if closed then last - first + 1 else last - first).toNat
  (List.range (min count limit)).map fun (i : Nat) => .int (first + i)

/-- What a loop goes through, at most `limit` values. -/
def elements? (limit : Nat) : Value → Option (List Value)
  | .list items => some items
  | .text s => some (s.toList.map .char)
  | .range first last closed => some (rangeItems limit first last closed)
  | .stream _ items => some items
  | _ => none

end Value

/-- What a function gives: its value and, if it changes its first argument, the
changed one. -/
structure Reply where
  value : Value
  changed : Option Value := none

/-- A function that gives nothing but changes its first argument. -/
def Reply.change (v : Value) : Reply :=
  { value := .unit, changed := some v }

end BookRules.Script
