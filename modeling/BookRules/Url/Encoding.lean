import BookRules.Text.Hexadecimal
import BookRules.Text.Occurrence

/-!
# Percent encoding

A byte outside the characters that may stand for themselves is written as a
percent sign and two hexadecimal digits.  Which ASCII characters stand for
themselves depends on the part of the URL; characters beyond ASCII never do.
-/

namespace BookRules.Url

/-- The bytes of the UTF-8 form. -/
def bytesOf (c : Char) : List Nat :=
  (String.utf8EncodeChar c).map UInt8.toNat

/-- A byte behind a percent sign. -/
def percentByte (b : Nat) : List Char :=
  ['%', Text.upperHexDigit (b / 16), Text.upperHexDigit (b % 16)]

/-- A character of a part of a URL; `keep` says which ASCII characters stay. -/
def percentChar (keep : Char → Bool) (c : Char) : List Char :=
  if c.toNat < 128 && keep c then [c] else (bytesOf c).flatMap percentByte

/-- Not a control character. -/
def keepOpaque (c : Char) : Bool :=
  0x20 ≤ c.toNat && c.toNat < 0x7F

def keepFragment (c : Char) : Bool :=
  keepOpaque c && !([' ', '"', '<', '>', '\x60'].contains c)

def keepPath (c : Char) : Bool :=
  keepFragment c && !(['#', '?', '\x7b', '\x7d'].contains c)

def keepUser (c : Char) : Bool :=
  keepPath c && !(['/', ':', ';', '=', '@', '[', '\\', ']', '^', '|'].contains c)

def keepQuery (c : Char) : Bool :=
  keepOpaque c && !([' ', '"', '#', '<', '>'].contains c)

/-- URLs of the well-known schemes encode the apostrophe in queries. -/
def keepSpecialQuery (c : Char) : Bool :=
  keepQuery c && c != '\''

/-- The bytes of a text with its percent signs read. -/
def percentBytes : List Char → List Nat
  | [] => []
  | '%' :: a :: b :: rest =>
    match Text.hexValue? a, Text.hexValue? b with
    | some x, some y => (16 * x + y) :: percentBytes rest
    | _, _ => 37 :: percentBytes (a :: b :: rest)
  | c :: rest => bytesOf c ++ percentBytes rest

/-- The text of bytes; nothing when they are no UTF-8. -/
def textOfBytes? (bytes : List Nat) : Option (List Char) :=
  (String.fromUTF8? ⟨(bytes.map UInt8.ofNat).toArray⟩).map String.toList

/-- The form of a text in the fields of a form: letters, digits and `*-._` stay,
a space becomes a plus sign. -/
def formEncode (text : List Char) : List Char :=
  text.flatMap fun c =>
    if c == ' ' then ['+']
    else percentChar (fun c => c.isAlphanum || c == '*' || c == '-' || c == '.' || c == '_') c

end BookRules.Url
