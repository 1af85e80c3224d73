import BookRules.Text.Hexadecimal
import BookRules.Word
import BookRules.Decimal.Whole
import BookRules.Text.Blank
import BookRules.Text.Occurrence

/-!
# Tokens of scripts

A script is cut into words, literals and marks.  Text between backquotes holds
expressions in `${…}`; each of them is cut into tokens of its own.  Comments of
both kinds separate tokens, and comments between marks may hold further ones.
-/

namespace BookRules.Script

inductive Token
  | word (name : String)
  | mark (spelling : String)
  | int (n : Int)
  | float (x : Float)
  | char (c : Char)
  | text (s : String)
  /-- Texts, each with the expression behind it, and the last text. -/
  | template (parts : List (String × List Token)) (last : String)

namespace Token

mutual

def words : Token → List String
  | .word name => [name]
  | .template parts _ => partWords parts
  | _ => []

def partWords : List (String × List Token) → List String
  | [] => []
  | (_, tokens) :: rest => tokenWords tokens ++ partWords rest

def tokenWords : List Token → List String
  | [] => []
  | t :: rest => t.words ++ tokenWords rest

end

end Token

/-- The marks, longer ones before the marks they start with. -/
def marks : List String :=
  ["**=", "<<=", ">>=", "..=", "...", "===", "!==", "&&", "||", "==", "!=", "<=", ">=", "=>", "->",
    "<-", "::", "**", "<<", ">>", "+=", "-=", "*=", "/=", "%=", "&=", "|=", "^=", "..", "??", "?.",
    "?[", "#\x7b", "++", "--", "+", "-", "*", "/", "%", "<", ">", "=", "!", "&", "|", "^", ".", ",",
    ";", ":", "(", ")", "[", "]", "\x7b", "\x7d", "~", "?", "@", "#", "$"]

/-- Marks without a meaning. -/
def idleMarks : List String :=
  ["...", "===", "!==", "->", "<-", "++", "--", "~", "?", "@", "#", "$"]

/-- Words that are kept for later use and mean nothing. -/
def idleWords : List String :=
  ["var", "static", "begin", "end", "shared", "each", "then", "goto", "unless", "match",
    "case", "public", "protected", "new", "use", "with", "module", "package", "super", "thread",
    "spawn", "go", "await", "async", "sync", "yield", "default", "void", "null", "nil", "is",
    "import", "export", "as", "private", "eval"]

def isWordStart (c : Char) : Bool :=
  c.isAlpha || c == '_'

def isWordChar (c : Char) : Bool :=
  c.isAlphanum || c == '_'

/-- Skip a comment that may hold comments; `depth` of them are open. -/
def skipBlockComment : Nat → List Char → List Char
  | _, [] => []
  | depth, '/' :: '*' :: rest => skipBlockComment (depth + 1) rest
  | 0, '*' :: '/' :: rest => rest
  | depth + 1, '*' :: '/' :: rest => skipBlockComment depth rest
  | depth, _ :: rest => skipBlockComment depth rest

/-- So many hexadecimal digits. -/
def hexCode? (count : Nat) (cs : List Char) : Option (Nat × List Char) :=
  let digits := cs.take count
  if digits.length < count then none
  else (digits.foldlM (fun n c => (Text.hexValue? c).map (16 * n + ·)) 0).map (·, cs.drop count)

/-- Read an escape after its backslash. -/
def escape? (quote : Char) (cs : List Char) : Option (Char × List Char) :=
  let coded (count : Nat) (rest : List Char) : Option (Char × List Char) := do
    let (code, rest) ← hexCode? count rest
    return (← Text.charOf? code, rest)
  match cs with
  | 't' :: rest => some ('\t', rest)
  | 'n' :: rest => some ('\n', rest)
  | 'r' :: rest => some ('\r', rest)
  | '\\' :: rest => some ('\\', rest)
  | 'x' :: rest => coded 2 rest
  | 'u' :: rest => coded 4 rest
  | 'U' :: rest => coded 8 rest
  | c :: rest => if c == quote then some (c, rest) else none
  | [] => none

/-- Read a quoted text after its quote.  A line end ends the text with an error
unless a backslash stands in front of it; then the white space that starts the
next line is left out. -/
def quotedText? (quote : Char) : Nat → List Char → List Char → Option (String × List Char)
  | 0, _, _ => none
  | _ + 1, _, [] => none
  | fuel + 1, done, '\\' :: '\n' :: rest =>
    quotedText? quote fuel done (rest.dropWhile Text.isBlank)
  | fuel + 1, done, '\\' :: rest =>
    match escape? quote rest with
    | some (c, rest) => quotedText? quote fuel (c :: done) rest
    | none => none
  | fuel + 1, done, c :: rest =>
    if c == quote then
      match rest with
      | d :: after =>
        if d == quote then quotedText? quote fuel (c :: done) after
        else some (String.ofList done.reverse, rest)
      | [] => some (String.ofList done.reverse, [])
    else if c == '\n' then none
    else quotedText? quote fuel (c :: done) rest

/-- Digits with underscores between them. -/
def digitRun (accept : Char → Bool) (cs : List Char) : List Char × List Char :=
  let run := cs.takeWhile fun c => accept c || c == '_'
  (run.filter (· != '_'), cs.drop run.length)

/-- A number in a base other than ten, as a signed 64-bit word. -/
def baseNumber? (base : Nat) (cs : List Char) : Option (Token × List Char) :=
  let accept (c : Char) : Bool := (Text.hexValue? c).any (· < base)
  let (digits, rest) := digitRun accept cs
  let n := digits.foldl (fun n c => base * n + (Text.hexValue? c).getD 0) 0
  if digits.isEmpty || Word.range64 ≤ n || rest.head?.any isWordChar then none
  else some (.int (Word.signed64 n), rest)

/-- A decimal number with fraction and power as a double. -/
def floatOf (whole fraction : List Char) (power : Int) : Float :=
  let e := power - fraction.length
  let n := Decimal.valueOf (whole ++ fraction)
  if e < 0 then Float.ofScientific n true e.natAbs else Float.ofScientific n false e.natAbs

/-- The power behind `e`, if there is one. -/
def power? (cs : List Char) : Option (Int × List Char) :=
  match cs with
  | e :: rest =>
    if e != 'e' && e != 'E' then none
    else
      let (sign, rest) : Int × List Char := match rest with
        | '-' :: rest => (-1, rest)
        | '+' :: rest => (1, rest)
        | _ => (1, rest)
      let (digits, after) := digitRun Char.isDigit rest
      if digits.isEmpty then none
      else some (sign * min (Decimal.valueOf digits) 100000, after)
  | [] => none

/-- Read a number.  A point belongs to it unless a second point, a word or an
underscore follows. -/
def number? (cs : List Char) : Option (Token × List Char) :=
  match cs with
  | '0' :: 'x' :: rest | '0' :: 'X' :: rest => baseNumber? 16 rest
  | '0' :: 'o' :: rest | '0' :: 'O' :: rest => baseNumber? 8 rest
  | '0' :: 'b' :: rest | '0' :: 'B' :: rest => baseNumber? 2 rest
  | _ =>
    let (whole, rest) := digitRun Char.isDigit cs
    let (point, fraction, rest) := match rest with
      | '.' :: after =>
        let next := after.head?.getD ' '
        if next == '.' || isWordStart next then (false, [], rest)
        else
          let (fraction, after) := digitRun Char.isDigit after
          (true, fraction, after)
      | _ => (false, [], rest)
    match power? rest with
    | some (power, rest) => some (.float (floatOf whole fraction power), rest)
    | none =>
      if point then some (.float (floatOf whole fraction 0), rest)
      else
        let n := Decimal.valueOf whole
        if n < Word.half64 then some (.int n, rest) else some (.float (floatOf whole [] 0), rest)

/-- Read a character after its quote. -/
def charLiteral? (cs : List Char) : Option (Token × List Char) :=
  match cs with
  | '\\' :: rest =>
    match escape? '\'' rest with
    | some (c, '\'' :: rest) => some (.char c, rest)
    | _ => none
  | c :: '\'' :: rest => if c == '\'' || c == '\n' then none else some (.char c, rest)
  | _ => none

/-- Read a raw text after its number signs and quote. -/
def rawText? (signs : Nat) (cs : List Char) : Option (String × List Char) :=
  (Text.cutAt? ('"' :: List.replicate signs '#') cs).map fun (inside, rest) =>
    (String.ofList inside, rest)

mutual

/-- Cut a text into tokens, up to its end or, inside a template, to the brace
that closes it; `open_` counts the braces that are open. -/
def tokens? : Nat → Option Nat → List Char → Option (List Token × List Char)
  | 0, _, _ => none
  | fuel + 1, open_, cs =>
    let andThen (token : Token) (open_ : Option Nat) (rest : List Char) :
        Option (List Token × List Char) := do
      let (more, rest) ← tokens? fuel open_ rest
      return (token :: more, rest)
    match cs with
    | [] => if open_.isSome then none else some ([], [])
    | '/' :: '/' :: rest => tokens? fuel open_ (rest.dropWhile (· != '\n'))
    | '/' :: '*' :: rest => tokens? fuel open_ (skipBlockComment 0 rest)
    | '"' :: rest =>
      match quotedText? '"' (rest.length + 1) [] rest with
      | some (s, rest) => andThen (.text s) open_ rest
      | none => none
    | '\x60' :: rest =>
      let rest := match rest with
        | '\n' :: rest => rest
        | '\r' :: '\n' :: rest => rest
        | rest => rest
      match template? fuel [] [] rest with
      | some (token, rest) => andThen token open_ rest
      | none => none
    | '\'' :: rest =>
      match charLiteral? rest with
      | some (token, rest) => andThen token open_ rest
      | none => none
    | '#' :: rest =>
      let signs := ('#' :: rest).takeWhile (· == '#')
      match ('#' :: rest).drop signs.length with
      | '"' :: after =>
        match rawText? signs.length after with
        | some (s, rest) => andThen (.text s) open_ rest
        | none => none
      | _ =>
        match rest with
        | '\x7b' :: after => andThen (.mark "#\x7b") (open_.map (· + 1)) after
        | _ => none
    | c :: rest =>
      if Text.isBlank c then tokens? fuel open_ rest
      else if c.isDigit then
        match number? cs with
        | some (token, rest) => andThen token open_ rest
        | none => none
      else if isWordStart c then
        let name := cs.takeWhile isWordChar
        andThen (.word (String.ofList name)) open_ (cs.drop name.length)
      else if c == '\x7b' then andThen (.mark "\x7b") (open_.map (· + 1)) rest
      else if c == '\x7d' then
        match open_ with
        | some 0 => some ([], rest)
        | some (n + 1) => andThen (.mark "\x7d") (some n) rest
        | none => andThen (.mark "\x7d") none rest
      else
        match marks.find? fun m => m.toList.isPrefixOf cs with
        | some m =>
          if idleMarks.contains m then none else andThen (.mark m) open_ (cs.drop m.length)
        | none => none

/-- Read a template after its backquote. -/
def template? : Nat → List (String × List Token) → List Char → List Char →
    Option (Token × List Char)
  | 0, _, _, _ => none
  | fuel + 1, parts, done, cs =>
    match cs with
    | [] => none
    | '\x60' :: '\x60' :: rest => template? fuel parts ('\x60' :: done) rest
    | '\x60' :: rest => some (.template parts.reverse (String.ofList done.reverse), rest)
    | '$' :: '\x7b' :: rest =>
      match tokens? fuel (some 0) rest with
      | some (inside, rest) =>
        template? fuel ((String.ofList done.reverse, inside) :: parts) [] rest
      | none => none
    | c :: rest => template? fuel parts (c :: done) rest

end

/-- The tokens of a script. -/
def tokenize? (source : String) : Option (List Token) :=
  let cs := source.toList
  (tokens? (cs.length + 1) none cs).map (·.1)

end BookRules.Script
