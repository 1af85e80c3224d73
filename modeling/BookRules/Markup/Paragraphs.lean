import BookRules.Text.Blank
import BookRules.Text.Occurrence
import BookRules.Text.Span
import BookRules.Unicode.CaseMap

/-!
# Paragraphs

The text of a chapter is written as markup.  Scripts, styles and comments are
left out, tags that end a line become line ends, all other tags are left out,
and the common character references are replaced.  Of the lines that result the
blank ones are left out and the others are trimmed.
-/

namespace BookRules.Markup.Paragraphs

/-- What follows the next closing bracket. -/
def afterTag? (cs : List Char) : Option (List Char) :=
  (Text.cutAt? ['>'] cs).map (·.2)

/-- What follows a word, up to the case of letters, and what is before it. -/
def afterWord? (word : List Char) : List Char → Option (List Char)
  | [] => none
  | c :: rest =>
    match Unicode.afterFolded? word (c :: rest) with
    | some after => some after
    | none => afterWord? word rest

/-- An element from its opening tag to the nearest closing one. -/
def afterElement? (opening closing : String) (cs : List Char) : Option (List Char) :=
  ((Unicode.afterFolded? opening.toList cs).bind afterTag?).bind (afterWord? closing.toList)

/-- Read a script, a style or a comment. -/
def hidden? (cs : List Char) : Option (List Char) :=
  (afterElement? "<script" "</script>" cs).or <|
    (afterElement? "<style" "</style>" cs).or <|
      (Text.stripFront? "<!--".toList cs).bind fun rest => (Text.cutAt? "-->".toList rest).map (·.2)

/-- Read the tag `br`. -/
def breakTag? (cs : List Char) : Option (List Char) :=
  (Unicode.afterFolded? "<br".toList cs).bind fun rest =>
    let rest := Text.trimStart rest
    Text.stripFront? ['>'] ((Text.stripFront? ['/'] rest).getD rest)

/-- Read an opening or closing tag `p`. -/
def paragraphTag? (cs : List Char) : Option (List Char) :=
  match cs with
  | '<' :: rest =>
    let rest := (Text.stripFront? ['/'] rest).getD rest
    (Unicode.afterFolded? ['p'] rest).bind fun
      | '>' :: after => some after
      | c :: after => if Text.isBlank c then afterTag? after else none
      | [] => none
  | _ => none

/-- Read a tag that ends a line. -/
def lineTag? (cs : List Char) : Option (List Char) :=
  (breakTag? cs).or ((paragraphTag? cs).or (Unicode.afterFolded? "</div>".toList cs))

/-- Read a tag that is not empty. -/
def tag? (cs : List Char) : Option (List Char) :=
  match cs with
  | '<' :: c :: rest => if c == '>' then none else afterTag? rest
  | _ => none

/-- Put a text in the place of every span. -/
def replaceSpans (span? : List Char → Option (List Char)) (by_ cs : List Char) : List Char :=
  Text.replaceSpans (fun cs => (span? cs).map fun after => (by_, after)) cs

/-- The character references with their characters, in the order in which they
are replaced. -/
def references : List (String × Char) :=
  [("&nbsp;", ' '), ("&lt;", '<'), ("&gt;", '>'), ("&quot;", '"'), ("&#39;", '\''),
    ("&apos;", '\''), ("&amp;", '&')]

/-- Replace the character references, one after the other. -/
def decode (cs : List Char) : List Char :=
  references.foldl (fun cs (name, c) => Text.replaceAll name.toList [c] cs) cs

/-- The text of some markup. -/
def textOf (markup : List Char) : List Char :=
  decode (replaceSpans tag? [] (replaceSpans lineTag? ['\n'] (replaceSpans hidden? [] markup)))

/-- The lines of a text without white space around them and without the blank
ones. -/
def cleanLines (cs : List Char) : List (List Char) :=
  ((Text.lines cs).map Text.trim).filter fun line => !line.isEmpty

/-- The paragraphs of some markup, one on a line. -/
def format (markup : String) : String :=
  String.ofList (Text.joinWith ['\n'] (cleanLines (textOf markup.toList)))

end BookRules.Markup.Paragraphs
