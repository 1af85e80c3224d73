import BookRules.Word
import BookRules.Decimal.Shortest
import BookRules.Error
import BookRules.Url.DomainName
import BookRules.Url.Encoding

/-!
# Hosts

The host of a URL is a domain name, an address of one of the two kinds, or, for
schemes that are not well known, any text.  Addresses are written in their
shortest form.
-/

namespace BookRules.Url

/-- What a part of an address is written in: a number, a number that is too
large, or none. -/
inductive AddressPart
  | number (n : Nat)
  | tooLarge
  | other
  deriving DecidableEq, Repr

/-- The largest number of an address. -/
def addressMax : Nat :=
  Word.range32 - 1

def numberInBase? (base : Nat) (cs : List Char) : Option Nat :=
  cs.foldlM (fun n c => match Text.hexValue? c with
    | some d => if d < base then some (base * n + d) else none
    | none => none) 0

/-- Read a part of an address: decimal, octal behind `0`, hexadecimal behind
`0x`. -/
def addressPart (cs : List Char) : AddressPart :=
  let (base, digits) := match cs with
    | '0' :: 'x' :: rest | '0' :: 'X' :: rest => (16, rest)
    | '0' :: d :: rest => (8, d :: rest)
    | _ => (10, cs)
  if cs.isEmpty then .other
  else match numberInBase? base digits with
    | some n => if addressMax < n then .tooLarge else .number n
    | none => .other

/-- The parts of a name between its dots, a last empty one left out. -/
def dotted (name : List Char) : List (List Char) :=
  let parts := name.splitOnP (· == '.')
  if 1 < parts.length && parts.getLast? == some [] then parts.dropLast else parts

/-- The name has to be an address: its last part is a number. -/
def endsInNumber (name : List Char) : Bool :=
  match (dotted name).getLast? with
  | none => false
  | some last =>
    (!last.isEmpty && last.all Char.isDigit) || addressPart last != .other

/-- The numbers of the parts of an address. -/
def addressNumbers? : List (List Char) → Option (List Nat)
  | [] => some []
  | part :: rest =>
    match addressPart part with
    | .number n => (addressNumbers? rest).map (n :: ·)
    | _ => none

/-- The address that numbers make up; the last one fills the bytes that are
left. -/
def address4? (numbers : List Nat) : Option Nat :=
  let front := numbers.dropLast
  match numbers.getLast? with
  | none => none
  | some last =>
    if 4 < numbers.length || Nat.pow 256 (4 - front.length) ≤ last || front.any (255 < ·) then none
    else some (front.zipIdx.foldl (fun total (n, i) => total + n * Nat.pow 256 (3 - i)) last)

/-- Four bytes with dots. -/
def address4Text (n : Nat) : List Char :=
  Text.joinWith ['.'] <| [n >>> 24, (n >>> 16) % 256, (n >>> 8) % 256, n % 256].map
    Decimal.digitsOf

/-- Up to four hexadecimal digits in front, and what follows. -/
def group16 (cs : List Char) : List Char × List Char :=
  let digits := (cs.take 4).takeWhile fun c => Text.isHexDigit c
  (digits, cs.drop digits.length)

/-- Read four bytes with dots at the end of an address. -/
def tail4? (cs : List Char) : Option (List Nat) :=
  let parts := cs.splitOnP (· == '.')
  let bytes := parts.mapM fun part =>
    match part with
    | [] => none
    | '0' :: _ :: _ => none
    | _ => (Decimal.natural? part).filter (· ≤ 255)
  match bytes with
  | some [a, b, c, d] => some [256 * a + b, 256 * c + d]
  | _ => none

/-- Read groups of an address with colons.  `done` holds the groups read, in
reverse, and `gap` how many there were in front of the double colon. -/
def groups6? : Nat → List Nat → Option Nat → List Char → Option (List Nat × Option Nat)
  | 0, _, _, _ => none
  | _ + 1, done, gap, [] => some (done.reverse, gap)
  | fuel + 1, done, gap, cs =>
    if done.length = 8 then none
    else match cs with
    | ':' :: rest => if gap.isSome then none else groups6? fuel done (some done.length) rest
    | _ =>
      let (digits, rest) := group16 cs
      match rest with
      | '.' :: _ =>
        if digits.isEmpty || 6 < done.length then none
        else (tail4? cs).map fun last => ((last.reverse ++ done).reverse, gap)
      | ':' :: after =>
        if digits.isEmpty || after.isEmpty then none
        else groups6? fuel ((numberInBase? 16 digits).getD 0 :: done) gap after
      | [] =>
        if digits.isEmpty then none
        else some (((numberInBase? 16 digits).getD 0 :: done).reverse, gap)
      | _ => none

/-- Read an address with colons: its eight groups. -/
def address6? (cs : List Char) : Option (List Nat) :=
  let start : Option (List Nat × Option Nat) := match cs with
    | ':' :: ':' :: rest => groups6? (cs.length + 1) [] (some 0) rest
    | ':' :: _ => none
    | _ => groups6? (cs.length + 1) [] none cs
  match start with
  | some (groups, some gap) =>
    if groups.length = 8 then none
    else
      some (groups.take gap ++ List.replicate (8 - groups.length) 0 ++ groups.drop gap)
  | some (groups, none) => if groups.length = 8 then some groups else none
  | none => none

/-- The longest run of zeros that the groups start with. -/
def zerosInFront (groups : List Nat) : Nat :=
  (groups.takeWhile (· == 0)).length

/-- Where the first of the longest runs of at least two zeros is, and how long it
is. -/
def longestZeros (groups : List Nat) : Option (Nat × Nat) :=
  (List.range groups.length).foldl (fun best i =>
    let n := zerosInFront (groups.drop i)
    if n < 2 then best
    else match best with
      | some (_, m) => if m < n then some (i, n) else best
      | none => some (i, n)) none

/-- A group in hexadecimal. -/
def hexText (n : Nat) : List Char :=
  Nat.toDigits 16 n

def groupsText (groups : List Nat) : List Char :=
  Text.joinWith [':'] (groups.map hexText)

/-- An address with colons in brackets. -/
def address6Text (groups : List Nat) : List Char :=
  let inside := match longestZeros groups with
    | some (i, n) => groupsText (groups.take i) ++ [':', ':'] ++ groupsText (groups.drop (i + n))
    | none => groupsText groups
  '[' :: inside ++ [']']

/-- Read an address in brackets. -/
def bracketed (cs : List Char) : Except UrlFault (List Char) :=
  match cs.getLast?, cs with
  | some ']', _ :: inside =>
    match address6? inside.dropLast with
    | some groups => .ok (address6Text groups)
    | none => .error .badIPv6
  | _, _ => .error .badIPv6

/-- A character that a host of any scheme cannot hold. -/
def isForbiddenHostChar (c : Char) : Bool :=
  ['\x00', '\t', '\n', '\r', ' ', '#', '/', ':', '<', '>', '?', '@', '[', '\\', ']', '^',
    '|'].contains c

/-- The host of a URL whose scheme is not well known. -/
def opaqueHost (cs : List Char) : Except UrlFault (List Char) :=
  match cs with
  | '[' :: _ => bracketed cs
  | _ =>
    if cs.any isForbiddenHostChar then .error .badDomainCharacter
    else .ok (cs.flatMap (percentChar keepOpaque))

/-- The host of a URL with a well-known scheme. -/
def domainHost (cs : List Char) : Except UrlFault (List Char) :=
  match cs with
  | '[' :: _ => bracketed cs
  | _ =>
    match (textOfBytes? (percentBytes cs)).bind DomainName.toAscii? with
    | none => .error .badInternationalName
    | some name =>
      if name.isEmpty then .error .emptyHost
      else if endsInNumber name then
        match (addressNumbers? (dotted name)).bind address4? with
        | some n => .ok (address4Text n)
        | none => .error .badIPv4
      else .ok name

end BookRules.Url
