import BookRules.Text.Occurrence
import BookRules.Markup.Entity

/-!
# Markup tokens

The tokens of a page, and the characters in them: lines end with a line feed,
the character with code zero is replaced, and character references stand for the
characters they name.
-/

namespace BookRules.Markup

/-- How the text in front is read. -/
inductive TextState
  /-- Ordinary content. -/
  | data
  /-- Text with character references, up to the end tag. -/
  | title (name : String)
  /-- Text as it is, up to the end tag. -/
  | raw (name : String)
  /-- A script, up to its end tag. -/
  | script (name : String)
  /-- Text as it is, up to the end. -/
  | plain
  deriving DecidableEq, Repr

/-- A start or end tag. -/
structure TagToken where
  name : String
  /-- Names and values in the order they are written, no name twice. -/
  attributes : List (String × String)
  selfClosing : Bool
  deriving DecidableEq, Repr

structure DoctypeToken where
  name : Option String := none
  publicId : Option String := none
  systemId : Option String := none
  /-- The declaration is not a complete one. -/
  broken : Bool := false
  deriving DecidableEq, Repr

inductive Token
  | doctype (d : DoctypeToken)
  | startTag (t : TagToken)
  | endTag (t : TagToken)
  | comment (content : String)
  /-- Characters that all are spaces. -/
  | spaces (content : String)
  /-- Characters none of which is a space. -/
  | letters (content : String)
  /-- The character with code zero. -/
  | nul
  | finish
  deriving DecidableEq, Repr

namespace Token

/-- The five spaces of markup. -/
def isSpace (c : Char) : Bool :=
  c == ' ' || c == '\t' || c == '\n' || c == '\x0c' || c == '\r'

/-- Line ends become line feeds. -/
def normalizeLines : List Char → List Char
  | [] => []
  | '\r' :: '\n' :: rest => '\n' :: normalizeLines rest
  | '\r' :: rest => '\n' :: normalizeLines rest
  | c :: rest => c :: normalizeLines rest

/-- The character with code zero is replaced where it may not stand. -/
def noNul (c : Char) : Char :=
  if c == '\x00' then '\uFFFD' else c

/-- Characters in the range of control codes, read as a Western encoding. -/
def westernTable : List Nat :=
  [0x20AC, 0x81, 0x201A, 0x0192, 0x201E, 0x2026, 0x2020, 0x2021, 0x02C6, 0x2030, 0x0160, 0x2039,
    0x0152, 0x8D, 0x017D, 0x8F, 0x90, 0x2018, 0x2019, 0x201C, 0x201D, 0x2022, 0x2013, 0x2014,
    0x02DC, 0x2122, 0x0161, 0x203A, 0x0153, 0x9D, 0x017E, 0x0178]

/-- The character a number stands for. -/
def numbered (n : Nat) : Char :=
  if n == 0 || 0x10FFFF < n || (0xD800 ≤ n && n ≤ 0xDFFF) then '\uFFFD'
  else if 0x80 ≤ n && n ≤ 0x9F then Char.ofNat (westernTable.getD (n - 0x80) n)
  else Char.ofNat n

/-- Read a number and the semicolon behind it; numbers beyond the last character
all count as one. -/
def numberReference? (base : Nat) (isDigit : Char → Bool) (cs : List Char) :
    Option (Char × List Char) :=
  let digits := cs.takeWhile isDigit
  if digits.isEmpty then none
  else
    let value := digits.foldl (fun n c =>
      min 0x110000 (base * n + (Text.hexValue? c).getD 0)) 0
    match cs.dropWhile isDigit with
    | ';' :: rest => some (numbered value, rest)
    | rest => some (numbered value, rest)

/-- Read what follows an ampersand.  Inside an attribute a name without its
semicolon is no reference when a letter, a digit or `=` follows. -/
def reference? (inAttribute : Bool) : List Char → Option (String × List Char)
  | '#' :: 'x' :: rest | '#' :: 'X' :: rest =>
    (numberReference? 16 Text.isHexDigit rest).map fun (c, rest) => (c.toString, rest)
  | '#' :: rest => (numberReference? 10 Char.isDigit rest).map fun (c, rest) => (c.toString, rest)
  | cs =>
    match Entity.named? cs with
    | none => none
    | some (name, value, rest) =>
      let closed := name.toList.getLast? = some ';'
      let guarded := match rest with
        | c :: _ => c == '=' || c.isAlphanum
        | [] => false
      if inAttribute && !closed && guarded then none else some (value, rest)

/-- Replace the character references of an attribute value. -/
def decodeValue : Nat → List Char → List Char
  | 0, _ => []
  | _ + 1, [] => []
  | fuel + 1, '&' :: rest =>
    match reference? true rest with
    | some (value, rest) => value.toList ++ decodeValue fuel rest
    | none => '&' :: decodeValue fuel rest
  | fuel + 1, c :: rest => noNul c :: decodeValue fuel rest

/-- An attribute value as it reads. -/
def attributeValue (raw : List Char) : String :=
  String.ofList (decodeValue (raw.length + 1) raw)

/-- A name in lower case. -/
def lowerName (cs : List Char) : String :=
  String.ofList (cs.map fun c => noNul c.toLower)

end Token

end BookRules.Markup
