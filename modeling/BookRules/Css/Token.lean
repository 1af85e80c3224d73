import BookRules.Text.Hexadecimal
import BookRules.Word
import BookRules.Text.Occurrence
import BookRules.Decimal.Whole

/-!
# Tokens of selectors

The tokens of style sheets, as far as selectors need to tell them apart.
Brackets and function arguments are kept as groups of tokens; a group that is
not closed ends with the text.  Comments separate tokens and leave no trace.
-/

namespace BookRules.Css

/-- A token before brackets are grouped. -/
inductive Lexeme
  | ident (name : String)
  | function (name : String)
  | hash (name : String) (isId : Bool)
  | string (content : String)
  | number (value : Option Int) (signed : Bool)
  | dimension (value : Option Int) (unit : String)
  | space
  | matcher (first : Char)
  | delim (c : Char)
  /-- A token that no selector holds. -/
  | other
  /-- A string with a line end in it. -/
  | broken
  deriving DecidableEq, Repr

/-- Something a selector is made of. -/
inductive Token
  | ident (name : String)
  | function (name : String) (arguments : List Token)
  | hash (name : String) (isId : Bool)
  | string (content : String)
  | number (value : Option Int) (signed : Bool)
  | dimension (value : Option Int) (unit : String)
  | space
  /-- `~=`, `|=`, `^=`, `$=` or `*=`, by its first character. -/
  | matcher (first : Char)
  | delim (c : Char)
  | group (opening : Char) (inside : List Token)
  | other
  /-- A broken string or a bracket that closes nothing. -/
  | broken

def isSpace (c : Char) : Bool :=
  c == ' ' || c == '\t' || c == '\n' || c == '\r' || c == '\x0c'

def isLineEnd (c : Char) : Bool :=
  c == '\n' || c == '\r' || c == '\x0c'

/-- A character that a name may start with. -/
def isNameStart (c : Char) : Bool :=
  c.isAlpha || c == '_' || c == '\x00' || 0x80 ≤ c.toNat

/-- A character that a name may hold. -/
def isNameChar (c : Char) : Bool :=
  isNameStart c || c.isDigit || c == '-'

/-- A backslash in front of this text escapes something. -/
def escapes : List Char → Bool
  | c :: _ => !isLineEnd c
  | [] => true

/-- The text starts with an identifier. -/
def startsIdent : List Char → Bool
  | '-' :: '\\' :: rest => escapes rest
  | '-' :: c :: _ => isNameStart c || c == '-'
  | '\\' :: rest => escapes rest
  | c :: _ => isNameStart c
  | [] => false

/-- Read an escape after its backslash. -/
def escape : List Char → Char × List Char
  | [] => ('\uFFFD', [])
  | c :: rest =>
    let digits := ((c :: rest).take 6).takeWhile Text.isHexDigit
    if digits.isEmpty then (if c == '\x00' then '\uFFFD' else c, rest)
    else
      let code := Text.hexNumber digits
      let after := (c :: rest).drop digits.length
      let after := match after with
        | '\r' :: '\n' :: more => more
        | d :: more => if isSpace d then more else d :: more
        | [] => []
      (if code == 0 || 0x10FFFF < code || (0xD800 ≤ code && code ≤ 0xDFFF) then '\uFFFD'
        else Char.ofNat code, after)

/-- Read the characters of a name. -/
def name : Nat → List Char → List Char × List Char
  | 0, cs => ([], cs)
  | fuel + 1, '\\' :: rest =>
    if escapes rest then
      let (c, rest) := escape rest
      let (more, rest) := name fuel rest
      (c :: more, rest)
    else ([], '\\' :: rest)
  | fuel + 1, c :: rest =>
    if isNameChar c then
      let (more, rest) := name fuel rest
      ((if c == '\x00' then '\uFFFD' else c) :: more, rest)
    else ([], c :: rest)
  | _ + 1, [] => ([], [])

def readName (cs : List Char) : String × List Char :=
  let (cs, rest) := name (cs.length + 1) cs
  (String.ofList cs, rest)

/-- Read a string after its quote; nothing when a line ends in it. -/
def string? (quote : Char) : Nat → List Char → List Char → Option (String × List Char)
  | 0, _, _ => none
  | _ + 1, done, [] => some (String.ofList done.reverse, [])
  | _ + 1, done, ['\\'] => some (String.ofList done.reverse, [])
  | fuel + 1, done, '\\' :: c :: rest =>
    if c == '\r' then
      match rest with
      | '\n' :: rest => string? quote fuel done rest
      | _ => string? quote fuel done rest
    else if isLineEnd c then string? quote fuel done rest
    else
      let (e, rest) := escape (c :: rest)
      string? quote fuel (e :: done) rest
  | fuel + 1, done, c :: rest =>
    if c == quote then some (String.ofList done.reverse, rest)
    else if isLineEnd c then none
    else string? quote fuel ((if c == '\x00' then '\uFFFD' else c) :: done) rest

/-- The text starts with a number. -/
def startsNumber : List Char → Bool
  | '+' :: c :: rest | '-' :: c :: rest =>
    c.isDigit || (c == '.' && rest.head?.any Char.isDigit)
  | '.' :: c :: _ => c.isDigit
  | c :: _ => c.isDigit
  | [] => false

/-- Read a number: its value when it is whole, whether it has a sign, and what
follows. -/
def number (cs : List Char) : Option Int × Bool × List Char :=
  let (signed, negative, cs) := match cs with
    | '+' :: rest => (true, false, rest)
    | '-' :: rest => (true, true, rest)
    | _ => (false, false, cs)
  let whole := cs.takeWhile Char.isDigit
  let cs := cs.dropWhile Char.isDigit
  let (fraction, cs) := match cs with
    | '.' :: c :: rest =>
      if c.isDigit then (true, (c :: rest).dropWhile Char.isDigit) else (false, cs)
    | _ => (false, cs)
  let (power, cs) := match cs with
    | e :: sign :: c :: rest =>
      if e != 'e' && e != 'E' then (false, cs)
      else if sign.isDigit then (true, (sign :: c :: rest).dropWhile Char.isDigit)
      else if (sign == '+' || sign == '-') && c.isDigit then
        (true, (c :: rest).dropWhile Char.isDigit)
      else (false, cs)
    | [e, c] => if (e == 'e' || e == 'E') && c.isDigit then (true, []) else (false, cs)
    | _ => (false, cs)
  let n : Int := Decimal.valueOf whole
  (if fraction || power then none else some (Word.saturated32 (if negative then -n else n)), signed, cs)

/-- Skip a comment after its opening. -/
def skipComment : List Char → List Char
  | '*' :: '/' :: rest => rest
  | _ :: rest => skipComment rest
  | [] => []

/-- Cut a text into lexemes. -/
def lexemes : Nat → List Char → List Lexeme
  | 0, _ => []
  | _ + 1, [] => []
  | fuel + 1, c :: rest =>
    let cs := c :: rest
    if isSpace c then .space :: lexemes fuel (rest.dropWhile isSpace)
    else if c == '/' && rest.head? == some '*' then lexemes fuel (skipComment (rest.drop 1))
    else if c == '"' || c == '\'' then
      match string? c (rest.length + 1) [] rest with
      | some (s, rest) => .string s :: lexemes fuel rest
      | none => .broken :: lexemes fuel (rest.dropWhile fun d => !isLineEnd d)
    else if startsNumber cs then
      let (value, signed, rest) := number cs
      if startsIdent rest then
        let (unit, rest) := readName rest
        .dimension value unit :: lexemes fuel rest
      else match rest with
        | '%' :: rest => .other :: lexemes fuel rest
        | _ => .number value signed :: lexemes fuel rest
    else if c == '#' then
      if startsIdent rest then
        let (n, rest) := readName rest
        .hash n true :: lexemes fuel rest
      else if rest.head?.any fun d => d.isDigit || d == '-' then
        let (n, rest) := readName rest
        .hash n false :: lexemes fuel rest
      else .delim c :: lexemes fuel rest
    else if c == '@' && startsIdent rest then
      .other :: lexemes fuel (readName rest).2
    else if ['-', '-', '>'].isPrefixOf cs then .other :: lexemes fuel (cs.drop 3)
    else if ['<', '!', '-', '-'].isPrefixOf cs then .other :: lexemes fuel (cs.drop 4)
    else if startsIdent cs then
      let (n, rest) := readName cs
      match rest with
      | '(' :: rest => .function n :: lexemes fuel rest
      | _ => .ident n :: lexemes fuel rest
    else if rest.head? == some '=' && ['~', '|', '^', '$', '*'].contains c then
      .matcher c :: lexemes fuel (rest.drop 1)
    else .delim c :: lexemes fuel rest

/-- The bracket that closes a group. -/
def closing (opening : Char) : Char :=
  if opening == '(' then ')' else if opening == '[' then ']' else '\x7d'

/-- Group brackets.  The answer is the tokens up to the closing bracket, or up to
the end, and the lexemes behind it. -/
def grouped : Nat → Option Char → List Lexeme → List Token × List Lexeme
  | 0, _, ls => ([], ls)
  | _ + 1, _, [] => ([], [])
  | fuel + 1, until_, l :: rest =>
    let andThen (token : Token) (rest : List Lexeme) : List Token × List Lexeme :=
      let (more, rest) := grouped fuel until_ rest
      (token :: more, rest)
    match l with
    | .function n =>
      let (inside, rest) := grouped fuel (some ')') rest
      andThen (.function n inside) rest
    | .delim c =>
      if c == '(' || c == '[' || c == '\x7b' then
        let (inside, rest) := grouped fuel (some (closing c)) rest
        andThen (.group c inside) rest
      else if c == ')' || c == ']' || c == '\x7d' then
        if until_ == some c then ([], rest) else andThen .broken rest
      else andThen (.delim c) rest
    | .ident n => andThen (.ident n) rest
    | .hash n isId => andThen (.hash n isId) rest
    | .string s => andThen (.string s) rest
    | .number v signed => andThen (.number v signed) rest
    | .dimension v unit => andThen (.dimension v unit) rest
    | .space => andThen .space rest
    | .matcher c => andThen (.matcher c) rest
    | .other => andThen .other rest
    | .broken => andThen .broken rest

def tokens (text : String) : List Token :=
  let cs := text.toList
  let ls := lexemes (cs.length + 1) cs
  (grouped (2 * ls.length + 2) none ls).1

end BookRules.Css
