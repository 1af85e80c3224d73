/-!
# Occurrences of one text in another

The first occurrence of a needle, cutting a text at every occurrence, and
replacing every occurrence.  Occurrences are found from left to right and do
not overlap.
-/

namespace BookRules.Text

/-- The part after `front`, when the text starts with it. -/
def stripFront? : List Char → List Char → Option (List Char)
  | [], cs => some cs
  | _ :: _, [] => none
  | f :: fs, c :: cs => if f = c then stripFront? fs cs else none

/-- A front and what follows it make up the text. -/
theorem append_of_stripFront? {front cs after : List Char}
    (h : stripFront? front cs = some after) : front ++ after = cs := by
  induction front generalizing cs with
  | nil =>
    simp only [stripFront?, Option.some.injEq] at h
    simp [h]
  | cons f fs ih =>
    cases cs with
    | nil => simp [stripFront?] at h
    | cons c cs =>
      by_cases hc : f = c
      · simp only [stripFront?, hc, if_true] at h
        simp [hc, ih h]
      · simp [stripFront?, hc] at h

/-- The text around the first occurrence of `needle`. -/
def cutAt? (needle : List Char) : List Char → Option (List Char × List Char)
  | [] => if needle.isEmpty then some ([], []) else none
  | c :: rest =>
    match stripFront? needle (c :: rest) with
    | some after => some ([], after)
    | none => (cutAt? needle rest).map fun (before, after) => (c :: before, after)

def occursIn (needle cs : List Char) : Bool :=
  (cutAt? needle cs).isSome

/-- Cut at every occurrence of `needle`.  `skip` characters of the occurrence
found last are still to be passed over. -/
def splitAllFrom (needle : List Char) : Nat → List Char → List Char → List (List Char)
  | _, piece, [] => [piece.reverse]
  | skip + 1, piece, _ :: rest => splitAllFrom needle skip piece rest
  | 0, piece, c :: rest =>
    if needle.isPrefixOf (c :: rest) then
      piece.reverse :: splitAllFrom needle (needle.length - 1) [] rest
    else
      splitAllFrom needle 0 (c :: piece) rest

/-- The pieces between the occurrences of a needle that is not empty. -/
def splitAll (needle cs : List Char) : List (List Char) :=
  splitAllFrom needle 0 [] cs

/-- Put `between` between the parts. -/
def joinWith (between : List Char) (parts : List (List Char)) : List Char :=
  (parts.intersperse between).flatten

/-- Replace every occurrence of `needle`.  The empty needle occurs at both ends
and between any two characters. -/
def replaceAll (needle by_ cs : List Char) : List Char :=
  if needle.isEmpty then
    by_ ++ cs.flatMap (· :: by_)
  else
    joinWith by_ (splitAll needle cs)

/-- The text around the last occurrence of the character `c`. -/
def cutAtLast? (c : Char) (cs : List Char) : Option (List Char × List Char) :=
  match cs.reverse.span (· != c) with
  | (after, _ :: before) => some (before.reverse, after.reverse)
  | (_, []) => none

/-- Number of bytes of the UTF-8 form. -/
def byteCount (cs : List Char) : Nat :=
  cs.foldr (fun c n => c.utf8Size + n) 0

/-- Drop characters until at least `n` bytes of the UTF-8 form are gone. -/
def dropBytes : Nat → List Char → List Char
  | 0, cs => cs
  | _, [] => []
  | n + 1, c :: cs => dropBytes (n + 1 - c.utf8Size) cs

/-- The text without its first `n` bytes, unless these end inside a character or
behind the end. -/
def dropBytes? : Nat → List Char → Option (List Char)
  | 0, cs => some cs
  | _ + 1, [] => none
  | n + 1, c :: cs =>
    if c.utf8Size ≤ n + 1 then dropBytes? (n + 1 - c.utf8Size) cs else none

/-- What is left is no longer than the text. -/
theorem length_le_of_dropBytes? {n : Nat} {cs left : List Char}
    (h : dropBytes? n cs = some left) : left.length ≤ cs.length := by
  fun_induction dropBytes? n cs with
  | case1 cs => simp_all
  | case2 => simp at h
  | case3 n c cs hle ih => exact Nat.le_succ_of_le (ih h)
  | case4 => simp at h

/-- Upper-case ASCII letters become lower-case, other characters stay. -/
def lowerAscii (cs : List Char) : List Char :=
  cs.map Char.toLower

/-- The part after `front`, when the text starts with it up to the case of
ASCII letters. -/
def stripFrontNoCase? (front cs : List Char) : Option (List Char) :=
  if lowerAscii front = lowerAscii (cs.take front.length) then some (cs.drop front.length)
  else none

end BookRules.Text
