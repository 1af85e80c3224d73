import BookRules.Word
import BookRules.Decimal.Shortest
import BookRules.Json.Printer
import BookRules.Script.Syntax

/-!
# Values of scripts

The members of a map are sorted by name.  A value has two texts: the plain one,
which puts texts into texts as they are, and the quoted one, which is used
inside lists and maps.
-/

namespace BookRules.Script

/-- What a function value runs. -/
inductive Code
  | named (name : String)
  | anonymous (parameters : List String) (body : Statement)

inductive Value
  | unit
  | bool (b : Bool)
  /-- A signed 64-bit word. -/
  | int (n : Int)
  /-- A number above the signed 64-bit words, as it comes from a document. -/
  | word (n : Int)
  | float (x : Float)
  | char (c : Char)
  | text (s : String)
  | list (items : List Value)
  | map (members : List (String × Value))
  | range (first last : Int) (closed : Bool)
  /-- Values to be gone through, shown by a label. -/
  | stream (label : String) (items : List Value)
  /-- A function with the first values it is applied to. -/
  | function (code : Code) (bound : List Value)
  /-- A variable that a function shares with its surroundings. -/
  | cell (id : Nat)

instance : Inhabited Value := ⟨.unit⟩

namespace Value

def typeName : Value → String
  | .unit => "()"
  | .bool _ => "bool"
  | .int _ => "i64"
  | .word _ => "u64"
  | .float _ => "f64"
  | .char _ => "char"
  | .text _ => "string"
  | .list _ => "array"
  | .map _ => "map"
  | .range _ _ closed => if closed then "range=" else "range"
  | .stream label _ => label
  | .function _ _ => "Fn"
  | .cell _ => "()"

/-- Doubles inside texts: powers are written above `10 ^ 13` and below
`10 ^ -7`. -/
def floatText (x : Float) : List Char :=
  if x == 0 then ['0', '.', '0']
  else
    let power := x.abs > 10000000000000.0 || x.abs < 0.0000001
    Decimal.Layout.write
      { leastPlain := if power then 1 else -400, greatestPlain := if power then 0 else 400,
        wholeFraction := true, plusSign := false } x

/-- Doubles inside lists and maps: powers are written from `10 ^ 16` on and
below `10 ^ -4`. -/
def quotedFloat (x : Float) : List Char :=
  Decimal.Layout.write
    { leastPlain := -4, greatestPlain := 15, wholeFraction := true, plusSign := false } x

/-- A double as the result of a script: no power, and whole doubles below
`10 ^ 15` without a fraction. -/
def resultFloat (x : Float) : List Char :=
  Decimal.Layout.write
    { leastPlain := -400, greatestPlain := 400, wholeFraction := false, plusSign := false } x

/-- A character inside quotes. -/
def quoteChar (quote : Char) (c : Char) : List Char :=
  if c == quote || c == '\\' then ['\\', c]
  else if c == '\n' then ['\\', 'n']
  else if c == '\r' then ['\\', 'r']
  else if c == '\t' then ['\\', 't']
  else if c == '\x00' then ['\\', '0']
  else if c.toNat < 0x20 || (0x7F ≤ c.toNat && c.toNat < 0xA0) then
    "\\u\x7b".toList ++ Nat.toDigits 16 c.toNat ++ ['\x7d']
  else [c]

def quoteText (s : String) : List Char :=
  '"' :: s.toList.flatMap (quoteChar '"') ++ ['"']

def rangeText (first last : Int) (closed : Bool) : List Char :=
  Json.wholeText first ++ (if closed then "..=" else "..").toList ++ Json.wholeText last

def codeName : Code → List Char
  | .named name => name.toList
  | .anonymous _ _ => "anon$".toList

mutual

/-- The text of a value inside lists and maps. -/
def quoted : Value → List Char
  | .unit => ['(', ')']
  | .bool b => (if b then "true" else "false").toList
  | .int n => Json.wholeText n
  | .word n => Json.wholeText n
  | .float x => quotedFloat x
  | .char c => '\'' :: quoteChar '\'' c ++ ['\'']
  | .text s => quoteText s
  | .list items => '[' :: (quotedItems items ++ [']'])
  | .map members => '#' :: '\x7b' :: (quotedMembers members ++ ['\x7d'])
  | .range first last closed => rangeText first last closed
  | .stream label _ => label.toList
  | .function code _ => 'F' :: 'n' :: '(' :: (codeName code ++ [')'])
  | .cell _ => []

def quotedItems : List Value → List Char
  | [] => []
  | v :: rest => v.quoted ++ match rest with
    | [] => []
    | _ :: _ => ',' :: ' ' :: quotedItems rest

def quotedMembers : List (String × Value) → List Char
  | [] => []
  | (name, v) :: rest => quoteText name ++ ':' :: ' ' :: (v.quoted ++ match rest with
    | [] => []
    | _ :: _ => ',' :: ' ' :: quotedMembers rest)

end

/-- The text of a value inside a text. -/
def plain : Value → List Char
  | .unit => []
  | .char c => [c]
  | .text s => s.toList
  | .float x => floatText x
  | v => v.quoted

mutual

/-- A value as a document; functions and streams have no such form. -/
def toJson? : Value → Option Json
  | .unit => some .null
  | .bool b => some (.bool b)
  | .int n => some (.number (.whole n))
  | .word n => some (.number (.whole n))
  | .float x => some (if x.isFinite then .number (.real x) else .null)
  | .char c => some (.string (String.singleton c))
  | .text s => some (.string s)
  | .list items => (itemsToJson? items).map .array
  | .map members => (membersToJson? members).map .object
  | _ => none

def itemsToJson? : List Value → Option (List Json)
  | [] => some []
  | v :: rest => do
    let doc ← v.toJson?
    return doc :: (← itemsToJson? rest)

def membersToJson? : List (String × Value) → Option (List (String × Json))
  | [] => some []
  | (name, v) :: rest => do
    let doc ← v.toJson?
    return (name, doc) :: (← membersToJson? rest)

end

/-- Set a member of a map. -/
def setMember (name : String) (v : Value) : List (String × Value) → List (String × Value)
  | [] => [(name, v)]
  | (k, w) :: rest =>
    if k = name then (k, v) :: rest
    else if name < k then (name, v) :: (k, w) :: rest
    else (k, w) :: setMember name v rest

def member? (name : String) (members : List (String × Value)) : Option Value :=
  (members.find? fun p => p.1 == name).map (·.2)

mutual

/-- The value of a document. -/
def ofJson : Json → Value
  | .null => .unit
  | .bool b => .bool b
  | .number (.whole n) => if n < Word.half64 then .int n else .word n
  | .number (.real x) => .float x
  | .string s => .text s
  | .array items => .list (ofItems items)
  | .object members => .map (ofMembers [] members)

def ofItems : List Json → List Value
  | [] => []
  | doc :: rest => ofJson doc :: ofItems rest

def ofMembers (done : List (String × Value)) : List (String × Json) → List (String × Value)
  | [] => done
  | (name, doc) :: rest => ofMembers (setMember name (ofJson doc) done) rest

end

/-- The double nearest to a whole number. -/
def floatOfInt (n : Int) : Float :=
  (Json.Number.whole n).toFloat

mutual

/-- Equality: whole numbers and doubles compare by value, a character equals
the text that holds it alone. -/
def same : Value → Value → Bool
  | .unit, .unit => true
  | .bool a, .bool b => a == b
  | .int a, .int b => a == b
  | .word a, .word b => a == b
  | .float a, .float b => a == b
  | .int a, .float b => floatOfInt a == b
  | .float a, .int b => a == floatOfInt b
  | .char a, .char b => a == b
  | .text a, .text b => a == b
  | .char a, .text b => b == String.singleton a
  | .text a, .char b => a == String.singleton b
  | .list as, .list bs => sameItems as bs
  | .map as, .map bs => sameMembers as bs
  | .range a b c, .range d e f => a == d && b == e && c == f
  | _, _ => false

def sameItems : List Value → List Value → Bool
  | [], [] => true
  | a :: as, b :: bs => same a b && sameItems as bs
  | _, _ => false

def sameMembers : List (String × Value) → List (String × Value) → Bool
  | [], [] => true
  | (k, a) :: as, (l, b) :: bs => k == l && same a b && sameMembers as bs
  | _, _ => false

end

/-- The text of a value that is the result of a script, or an item of it. -/
def resultText? : Value → Option String
  | .unit => none
  | .map members => ((Value.map members).toJson?).map Json.compact
  | .float x => some (String.ofList (resultFloat x))
  | .text s => some s
  | v => some (String.ofList v.plain)

end Value

end BookRules.Script
