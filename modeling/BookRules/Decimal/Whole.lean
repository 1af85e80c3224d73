import BookRules.Word

/-!
# Whole numbers in decimal

Reading whole numbers that are written with ASCII digits.
-/

namespace BookRules.Decimal

/-- An ASCII digit. -/
def isDigit (c : Char) : Bool :=
  '0' ≤ c && c ≤ '9'

def digitValue (c : Char) : Nat :=
  c.toNat - '0'.toNat

/-- The number a run of digits stands for. -/
def valueOf (digits : List Char) : Nat :=
  digits.foldl (fun n c => 10 * n + digitValue c) 0

/-- Read one or more digits. -/
def natural? (cs : List Char) : Option Nat :=
  if cs.isEmpty || !cs.all isDigit then none else some (valueOf cs)

/-- Read digits after an optional sign. -/
def whole? : List Char → Option Int
  | '-' :: cs => (natural? cs).map fun n => -(n : Int)
  | '+' :: cs => (natural? cs).map fun n => (n : Int)
  | cs => (natural? cs).map fun n => (n : Int)

/-- Read a number in the range of a signed 64-bit word. -/
def signed64? (cs : List Char) : Option Int :=
  (whole? cs).filter Word.inSigned64

end BookRules.Decimal
