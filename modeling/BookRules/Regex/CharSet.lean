import BookRules.Text.Occurrence
import BookRules.Unicode.CaseMap
import BookRules.Unicode.Script

/-!
# Sets of characters

A set is a list of ranges of code points, in order, apart from each other and
without surrogates.  Every operation keeps that form.
-/

namespace BookRules.Regex

/-- Ranges of code points with both ends, in order and apart. -/
structure CharSet where
  ranges : List (Nat × Nat)
  deriving DecidableEq, Repr

namespace CharSet

/-- The last code point. -/
def last : Nat :=
  0x10FFFF

/-- Join ranges, ordered by their first code points, that touch each other. -/
def joined : List (Nat × Nat) → List (Nat × Nat)
  | (a, b) :: (c, d) :: rest =>
    if c ≤ b + 1 then joined ((a, max b d) :: rest) else (a, b) :: joined ((c, d) :: rest)
  | ranges => ranges
  termination_by ranges => ranges.length

def withoutSurrogates (range : Nat × Nat) : List (Nat × Nat) :=
  let (a, b) := range
  (if a ≤ b && a < 0xD800 then [(a, min b 0xD7FF)] else []) ++
    (if a ≤ b && 0xDFFF < b then [(max a 0xE000, b)] else [])

/-- The set of ranges in any order. -/
def ofRanges (ranges : List (Nat × Nat)) : CharSet :=
  ⟨joined ((ranges.flatMap withoutSurrogates).mergeSort fun x y => x.1 ≤ y.1)⟩

def empty : CharSet :=
  ⟨[]⟩

def all : CharSet :=
  ofRanges [(0, last)]

def ofChars (cs : List Char) : CharSet :=
  ofRanges (cs.map fun c => (c.toNat, c.toNat))

def ofTable (table : Unicode.Ranges) : CharSet :=
  ofRanges table.toList

/-- The code points of the categories for which a condition holds. -/
def ofCategories (accept : Unicode.Category → Bool) : CharSet :=
  let table := Unicode.Category.table
  let starts := table.starts.toList
  let runs := (starts.zip (starts.drop 1 ++ [last + 1])).zip table.values.toList
  ofRanges <| runs.filterMap fun ((first, next), category) =>
    if accept category then some (first, next - 1) else none

/-- The gaps in front of the ranges and behind them. -/
def gaps (next : Nat) : List (Nat × Nat) → List (Nat × Nat)
  | [] => if next ≤ last then [(next, last)] else []
  | (a, b) :: rest => (if next < a then [(next, a - 1)] else []) ++ gaps (b + 1) rest

def complement (s : CharSet) : CharSet :=
  ofRanges (gaps 0 s.ranges)

def union (s t : CharSet) : CharSet :=
  ofRanges (s.ranges ++ t.ranges)

def inter (s t : CharSet) : CharSet :=
  (s.complement.union t.complement).complement

def diff (s t : CharSet) : CharSet :=
  s.inter t.complement

/-- The characters in exactly one of two sets. -/
def symmDiff (s t : CharSet) : CharSet :=
  (s.diff t).union (t.diff s)

/-- The ranges for look-ups. -/
def table (s : CharSet) : Unicode.Ranges :=
  .ofSorted s.ranges

def isAscii (s : CharSet) : Bool :=
  s.ranges.all fun (_, b) => b < 128

/-- All letters that differ from a member only in case. -/
def closeCase (s : CharSet) : CharSet :=
  let members := s.table
  ofRanges <| s.ranges ++ (Unicode.orbits.filter fun orbit => orbit.any members.contains).flatMap
    fun orbit => orbit.map fun code => (code, code)

/-- All ASCII letters that differ from a member only in case. -/
def closeAsciiCase (s : CharSet) : CharSet :=
  let members := s.table
  ofRanges <| s.ranges ++ (List.range 26).flatMap fun i =>
    if members.contains (65 + i) || members.contains (97 + i) then
      [(65 + i, 65 + i), (97 + i, 97 + i)]
    else []

/-- Decimal digits. -/
def digits : CharSet :=
  ofCategories (· == .decimalNumber)

/-- White space. -/
def spaces : CharSet :=
  ofRanges [(9, 13), (0x20, 0x20), (0x85, 0x85), (0xA0, 0xA0), (0x1680, 0x1680), (0x2000, 0x200A),
    (0x2028, 0x2029), (0x202F, 0x202F), (0x205F, 0x205F), (0x3000, 0x3000)]

def letters : CharSet :=
  ofCategories (·.belongsTo "l")

def alphabetic : CharSet :=
  (letters.union (ofCategories (· == .letterNumber))).union (ofTable Unicode.otherAlphabetic)

def wordChars : CharSet :=
  (alphabetic.union (ofCategories fun c => c.belongsTo "m" || c == .decimalNumber ||
    c == .connectorPunctuation)).union (ofRanges [(0x200C, 0x200D)])

def asciiDigits : CharSet :=
  ofRanges [(48, 57)]

def asciiSpaces : CharSet :=
  ofRanges [(9, 13), (32, 32)]

def asciiWordChars : CharSet :=
  ofRanges [(48, 57), (65, 90), (95, 95), (97, 122)]

/-- The sets that have names inside brackets. -/
def asciiClass? (name : String) : Option CharSet :=
  match name with
  | "alnum" => some (ofRanges [(48, 57), (65, 90), (97, 122)])
  | "alpha" => some (ofRanges [(65, 90), (97, 122)])
  | "ascii" => some (ofRanges [(0, 127)])
  | "blank" => some (ofRanges [(9, 9), (32, 32)])
  | "cntrl" => some (ofRanges [(0, 31), (127, 127)])
  | "digit" => some asciiDigits
  | "graph" => some (ofRanges [(33, 126)])
  | "lower" => some (ofRanges [(97, 122)])
  | "print" => some (ofRanges [(32, 126)])
  | "punct" => some (ofRanges [(33, 47), (58, 64), (91, 96), (123, 126)])
  | "space" => some asciiSpaces
  | "upper" => some (ofRanges [(65, 90)])
  | "word" => some asciiWordChars
  | "xdigit" => some (ofRanges [(48, 57), (65, 70), (97, 102)])
  | _ => none

/-- A name of a property without spaces, underscores and hyphens, in lower case
and without a leading `is`. -/
def propertyName (name : String) : String :=
  let plain := (Text.lowerAscii name.toList).filter fun c =>
    !(c == ' ' || c == '_' || c == '-' || Text.isBlank c) && c.toNat < 128
  match plain with
  | ['i', 's', 'c'] => "isc"
  | 'i' :: 's' :: rest => String.ofList rest
  | _ => String.ofList plain

/-- The set of a general category. -/
def categorySet? (name : String) : Option CharSet :=
  match name with
  | "any" => some all
  | "assigned" => some (ofCategories (· != .unassigned))
  | "ascii" => some (ofRanges [(0, 127)])
  | _ => (Unicode.Category.group? name).map fun group => ofCategories (·.belongsTo group)

def scriptSet? (name : String) : Option CharSet :=
  (Unicode.script? name).map ofTable

/-- The set of a property that is true or false of every character.  These are the
properties of letters and spaces; patterns with others are refused here. -/
def binarySet? (name : String) : Option CharSet :=
  match name with
  | "alphabetic" | "alpha" => some alphabetic
  | "lowercase" | "lower" =>
    some ((ofCategories (· == .lowercaseLetter)).union (ofTable Unicode.otherLowercase))
  | "uppercase" | "upper" =>
    some ((ofCategories (· == .uppercaseLetter)).union (ofTable Unicode.otherUppercase))
  | "whitespace" | "wspace" | "space" => some spaces
  | "asciihexdigit" | "ahex" => asciiClass? "xdigit"
  | _ => none

def property? (name : String) : Option CharSet :=
  let name := propertyName name
  let short := ["cf", "sc", "lc"]
  if short.contains name then categorySet? name
  else (binarySet? name).or ((categorySet? name).or (scriptSet? name))

def propertyValue? (name value : String) : Option CharSet :=
  let value := propertyName value
  match propertyName name with
  | "generalcategory" | "gc" => categorySet? value
  | "script" | "sc" | "scriptextensions" | "scx" => scriptSet? value
  | _ => none

end CharSet

end BookRules.Regex
