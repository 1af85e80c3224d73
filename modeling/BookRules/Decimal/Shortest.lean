import BookRules.Word

/-!
# The shortest decimal of a double

A finite double is `m * 2 ^ q`.  Every real number between the midpoints to its
two neighbours reads back as it, the midpoints themselves exactly when `m` is
even.  `Shortest.digits` looks at decimal grids that get finer digit by digit;
the first grid with a point in that interval gives the shortest decimal, and of
two such points the nearer one is taken.
-/

namespace BookRules.Decimal

/-- A finite double without its sign: `mantissa * 2 ^ exponent`, and whether
the gap below it is half the gap above it. -/
structure Binary where
  mantissa : Nat
  exponent : Int
  narrowBelow : Bool
  deriving DecidableEq, Repr

/-- The leading bit of a mantissa, which is not written down. -/
def leadingBit : Nat := 0x10000000000000

/-- The parts of a double that is neither infinite nor a NaN. -/
def Binary.ofFloat (x : Float) : Binary :=
  let bits := x.toBits.toNat % Word.half64
  let fraction := bits % leadingBit
  let biased := bits / leadingBit
  if biased == 0 then
    { mantissa := fraction, exponent := -1074, narrowBelow := false }
  else
    { mantissa := fraction + leadingBit, exponent := (biased : Int) - 1075,
      narrowBelow := fraction == 0 && biased != 1 }

/-- A positive decimal `digits * 10 ^ exponent`. -/
structure Digits where
  digits : Nat
  exponent : Int
  deriving DecidableEq, Repr

namespace Shortest

/-- Remove the zeros at the end of the digits. -/
def normalize : Nat → Digits → Digits
  | 0, d => d
  | fuel + 1, d =>
    if d.digits != 0 && d.digits % 10 == 0 then
      normalize fuel { digits := d.digits / 10, exponent := d.exponent + 1 }
    else d

/-- The fraction `num / den * 10 ^ (-k)`. -/
def scale (num den : Nat) (k : Int) : Nat × Nat :=
  if 0 ≤ k then (num, den * Nat.pow 10 k.toNat) else (num * Nat.pow 10 (-k).toNat, den)

/-- The exponent of the leading decimal digit of `num / den`, found by
correcting an estimate at most `fuel` times. -/
def leading (num den : Nat) : Nat → Int → Int
  | 0, e => e
  | fuel + 1, e =>
    let (n, d) := scale num den e
    if n < d then leading num den fuel (e - 1)
    else if 10 * d ≤ n then leading num den fuel (e + 1)
    else e

/-- The best point of the grid `10 ^ k` that reads back, if there is one.  The
three numerators over `den` are the lower end, the value and the upper end of
the interval. -/
def onGrid (lo value hi den : Nat) (closed : Bool) (k : Int) : Option Nat :=
  let (v, d) := scale value den k
  let (l, _) := scale lo den k
  let (h, _) := scale hi den k
  let below := v / d
  let above := below + 1
  let okBelow := if closed then l ≤ below * d else l < below * d
  let okAbove := if closed then above * d ≤ h else above * d < h
  if okBelow && okAbove then
    let toBelow := v - below * d
    let toAbove := above * d - v
    if toBelow < toAbove then some below
    else if toAbove < toBelow then some above
    else if below % 2 == 0 then some below else some above
  else if okBelow then some below
  else if okAbove then some above
  else none

/-- Try grids from `n` digits on. -/
def search (lo value hi den : Nat) (closed : Bool) (top : Int) : Nat → Nat → Digits
  | 0, _ => { digits := 0, exponent := 0 }
  | fuel + 1, n =>
    let k := top - n + 1
    match onGrid lo value hi den closed k with
    | some digits => { digits, exponent := k }
    | none => search lo value hi den closed top fuel (n + 1)

end Shortest

/-- The shortest decimal that reads back as the positive double `b`. -/
def Binary.shortest (b : Binary) : Digits :=
  let up := if 0 ≤ b.exponent then Nat.pow 2 b.exponent.toNat else 1
  let den := if 0 ≤ b.exponent then 4 else 4 * Nat.pow 2 (-b.exponent).toNat
  let value := 4 * b.mantissa * up
  let lo := (4 * b.mantissa - if b.narrowBelow then 1 else 2) * up
  let hi := (4 * b.mantissa + 2) * up
  let guess : Int := ((Nat.log2 value : Int) - Nat.log2 den) * 30103 / 100000
  let top := Shortest.leading value den 4 guess
  Shortest.normalize 20 (Shortest.search lo value hi den (b.mantissa % 2 == 0) top 18 1)

/-- The decimal digits of a number. -/
def digitsOf (n : Nat) : List Char :=
  Nat.toDigits 10 n

/-- How a double is written. -/
structure Layout where
  /-- Least exponent of the leading digit that is written without a power. -/
  leastPlain : Int
  /-- Greatest exponent of the leading digit that is written without a power. -/
  greatestPlain : Int
  /-- Whole numbers keep a fraction of zero. -/
  wholeFraction : Bool
  /-- Positive powers carry a plus sign. -/
  plusSign : Bool

namespace Layout

/-- Digits of a positive decimal, written plainly. -/
def plain (layout : Layout) (d : Digits) : List Char :=
  let cs := digitsOf d.digits
  if 0 ≤ d.exponent then
    cs ++ List.replicate d.exponent.toNat '0' ++ if layout.wholeFraction then ['.', '0'] else []
  else
    let places := (-d.exponent).toNat
    if places < cs.length then
      cs.take (cs.length - places) ++ '.' :: cs.drop (cs.length - places)
    else
      '0' :: '.' :: List.replicate (places - cs.length) '0' ++ cs

/-- Digits of a positive decimal, written with a power of ten. -/
def power (layout : Layout) (d : Digits) : List Char :=
  let cs := digitsOf d.digits
  let e := d.exponent + cs.length - 1
  let mantissa := match cs with
    | [] => []
    | [c] => [c]
    | c :: rest => c :: '.' :: rest
  let sign := if e < 0 then ['-'] else if layout.plusSign then ['+'] else []
  mantissa ++ 'e' :: sign ++ digitsOf e.natAbs

/-- A double in this layout. -/
def write (layout : Layout) (x : Float) : List Char :=
  if x.isNaN then
    "NaN".toList
  else
    let sign := if x.toBits.toNat < Word.half64 then [] else ['-']
    if x.isInf then
      sign ++ "inf".toList
    else
      let b := Binary.ofFloat x
      if b.mantissa == 0 then
        sign ++ '0' :: if layout.wholeFraction then ['.', '0'] else []
      else
        let d := b.shortest
        let top := d.exponent + (digitsOf d.digits).length - 1
        if layout.leastPlain ≤ top && top ≤ layout.greatestPlain then
          sign ++ layout.plain d
        else
          sign ++ layout.power d

end Layout

end BookRules.Decimal
