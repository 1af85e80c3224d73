import BookRules.Decimal.Shortest

/-!
# JSON values

A number is either whole, in the range of a signed or an unsigned 64-bit word,
or a finite double.  The members of an object keep the order in which their
names first occurred.
-/

namespace BookRules

namespace Json

/-- A JSON number. -/
inductive Number
  | whole (n : Int)
  | real (x : Float)

/-- The double nearest to a number. -/
def Number.toFloat : Number → Float
  | .whole n => if n < 0 then -(UInt64.ofNat n.natAbs).toFloat else (UInt64.ofNat n.natAbs).toFloat
  | .real x => x

/-- Whole numbers equal whole numbers only, doubles are compared as doubles. -/
def Number.same : Number → Number → Bool
  | .whole a, .whole b => a == b
  | .real a, .real b => a == b
  | _, _ => false

end Json

/-- A JSON document. -/
inductive Json
  | null
  | bool (b : Bool)
  | number (n : Json.Number)
  | string (s : String)
  | array (items : List Json)
  | object (members : List (String × Json))

namespace Json

instance : Inhabited Json := ⟨.null⟩

def isNull : Json → Bool
  | .null => true
  | _ => false

/-- The value of the first member with a name. -/
def lookup? (name : String) : List (String × Json) → Option Json
  | [] => none
  | (k, v) :: rest => if k = name then some v else lookup? name rest

/-- Set a member.  A name that occurred before keeps its place and takes the
new value. -/
def setMember (name : String) (value : Json) : List (String × Json) → List (String × Json)
  | [] => [(name, value)]
  | (k, v) :: rest =>
    if k = name then (k, value) :: rest else (k, v) :: setMember name value rest

mutual

/-- Every name stands once in an object, with its last value. -/
def merged : Json → Json
  | .array items => .array (mergedItems items)
  | .object members => .object (mergedMembers [] members)
  | value => value

def mergedItems : List Json → List Json
  | [] => []
  | item :: rest => merged item :: mergedItems rest

def mergedMembers (done : List (String × Json)) : List (String × Json) → List (String × Json)
  | [] => done
  | (name, value) :: rest => mergedMembers (setMember name (merged value) done) rest

end

/-- The values directly inside a value. -/
def children : Json → List Json
  | .array items => items
  | .object members => members.map Prod.snd
  | _ => []

mutual

/-- Equality of documents; the order of members does not matter. -/
def same : Json → Json → Bool
  | .null, .null => true
  | .bool a, .bool b => a == b
  | .number a, .number b => a.same b
  | .string a, .string b => a == b
  | .array as, .array bs => sameItems as bs
  | .object as, .object bs => as.length == bs.length && sameMembers as bs
  | _, _ => false

def sameItems : List Json → List Json → Bool
  | [], [] => true
  | a :: as, b :: bs => same a b && sameItems as bs
  | _, _ => false

def sameMembers : List (String × Json) → List (String × Json) → Bool
  | [], _ => true
  | (k, a) :: as, bs =>
    (match lookup? k bs with
      | some b => same a b
      | none => false) && sameMembers as bs

end

end Json

end BookRules
