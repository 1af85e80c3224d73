import BookRules.Text.Blank
import BookRules.Markup.Token.Tag
import BookRules.Markup.Token.Declaration

/-!
# Reading tokens

How the next tokens are read off the front of the text.  What the text in front
stands for depends on the state the tree is in: ordinary content, the content of
a title, of raw text or of a script, or plain text to the end.

Every reader takes the text and gives back the text it did not use.
-/

namespace BookRules.Markup.Token

/-- The text behind the name of an end tag that is the one looked for. -/
def endTagTail? (name : String) (cs : List Char) : Option (List Char) :=
  match Text.stripFrontNoCase? name.toList cs with
  | some (c :: rest) => if isSpace c || c == '/' || c == '>' then some (c :: rest) else none
  | _ => none

/-- The end tag looked for at the front of the text, with what follows it. -/
def closingTag? (name : String) : List Char → Option (Option TagToken × List Char)
  | '<' :: '/' :: cs =>
    match endTagTail? name cs with
    | none => none
    | some _ =>
      match tag? cs with
      | some (t, rest) => some (some t, rest)
      | none => some (none, [])
  | _ => none

/-- Text up to the end tag looked for, in reverse. -/
def rawText (name : String) (done : List Char) : List Char → List Char × List Char
  | [] => (done, [])
  | c :: rest =>
    if (closingTag? name (c :: rest)).isSome then (done, c :: rest)
    else rawText name (noNul c :: done) rest

/-- Text with character references up to the end tag looked for, in reverse. -/
def titleText (name : String) : Nat → List Char → List Char → List Char × List Char
  | 0, done, cs => (done, cs)
  | _ + 1, done, [] => (done, [])
  | fuel + 1, done, c :: rest =>
    if (closingTag? name (c :: rest)).isSome then (done, c :: rest)
    else if c == '&' then
      match reference? false rest with
      | some (value, rest) => titleText name fuel (value.toList.reverse ++ done) rest
      | none => titleText name fuel ('&' :: done) rest
    else titleText name fuel (noNul c :: done) rest

/-- Where in a script the reader is: outside comments, in one, or in a script
inside a comment. -/
inductive ScriptPlace
  | outside
  | comment
  | nested
  deriving DecidableEq, Repr

/-- The text behind the word `script` when a word ends there. -/
def scriptWord? (cs : List Char) : Bool :=
  (endTagTail? "script" cs).isSome

/-- The text of a script up to its end tag, in reverse.  A comment in it hides
no end tag unless it opens a script of its own. -/
def scriptText (name : String) (place : ScriptPlace) (done : List Char) :
    List Char → List Char × List Char
  | [] => (done, [])
  | c :: rest =>
    let next : ScriptPlace :=
      match place with
      | .outside =>
        if ['<', '!', '-', '-'].isPrefixOf (c :: rest) then .comment else .outside
      | .comment =>
        if c == '>' && ['-', '-'].isPrefixOf done then .outside
        else if c == '<' && scriptWord? rest then .nested
        else .comment
      | .nested =>
        if c == '>' && ['-', '-'].isPrefixOf done then .outside
        else if c == '<' && (match rest with
          | '/' :: more => scriptWord? more
          | _ => false) then .comment
        else .nested
    if place != .nested && (closingTag? name (c :: rest)).isSome then (done, c :: rest)
    else scriptText name next (noNul c :: done) rest

/-- Ordinary text in reverse: up to a tag, a declaration or the code zero. -/
def dataText : Nat → List Char → List Char → List Char × List Char
  | 0, done, cs => (done, cs)
  | _ + 1, done, [] => (done, [])
  | fuel + 1, done, '&' :: rest =>
    match reference? false rest with
    | some (value, rest) => dataText fuel (value.toList.reverse ++ done) rest
    | none => dataText fuel ('&' :: done) rest
  | fuel + 1, done, '<' :: rest =>
    let opens := match rest with
      | c :: _ => c.isAlpha || c == '/' || c == '!' || c == '?'
      | [] => false
    if opens && rest != ['/'] then (done, '<' :: rest) else dataText fuel ('<' :: done) rest
  | fuel + 1, done, c :: rest =>
    if c == '\x00' then (done, c :: rest) else dataText fuel (c :: done) rest

/-- Cut a text into runs of spaces and runs of other characters. -/
def runs (cs : List Char) : List Token :=
  (cs.splitBy (fun a b => isSpace a == isSpace b)).map fun run =>
    match run with
    | c :: _ => if isSpace c then .spaces (String.ofList run) else .letters (String.ofList run)
    | [] => .spaces ""

/-- Read the tag or declaration at the front of ordinary content. -/
def markup (foreign : Bool) : List Char → Option Token × List Char
  | '<' :: '!' :: rest => declaration foreign rest
  | '<' :: '?' :: rest =>
    let (token, rest) := bogusComment ('?' :: rest)
    (some token, rest)
  | '<' :: '/' :: '>' :: rest => (none, rest)
  | '<' :: '/' :: c :: rest =>
    if c.isAlpha then
      match tag? (c :: rest) with
      | some (t, rest) => (some (.endTag t), rest)
      | none => (none, [])
    else
      let (token, rest) := bogusComment (c :: rest)
      (some token, rest)
  | '<' :: rest =>
    match tag? rest with
    | some (t, rest) => (some (.startTag t), rest)
    | none => (none, [])
  | cs => (none, cs.drop 1)

/-- The tokens at the front of the text, and the text behind them.  `foreign`
says whether marked sections count.  At least one character is used unless the
text is at its end. -/
def next (state : TextState) (foreign : Bool) (cs : List Char) : List Token × List Char :=
  let fuel := cs.length + 1
  let upToEndTag (name : String) (read : List Char × List Char) : List Token × List Char :=
    match read with
    | ([], rest) =>
      match closingTag? name rest with
      | some (some t, rest) => ([.endTag t], rest)
      | some (none, rest) => ([], rest)
      | none => ([], rest)
    | (done, rest) => (runs done.reverse, rest)
  match state with
  | .plain => (runs (cs.map noNul), [])
  | .raw name => upToEndTag name (rawText name [] cs)
  | .title name => upToEndTag name (titleText name fuel [] cs)
  | .script name => upToEndTag name (scriptText name .outside [] cs)
  | .data =>
    match dataText fuel [] cs with
    | ([], '\x00' :: rest) => ([.nul], rest)
    | ([], rest) =>
      match markup foreign rest with
      | (some (.letters text), rest) => (runs text.toList, rest)
      | (some token, rest) => ([token], rest)
      | (none, rest) => ([], rest)
    | (done, rest) => (runs done.reverse, rest)

end BookRules.Markup.Token
