import BookRules.Markup.Token.Basic

/-!
# Comments and declarations

What follows `<!`: a comment, a document type, or a marked section.  Anything
else counts as a comment.
-/

namespace BookRules.Markup.Token

/-- The end of an unfinished comment does not count as its text. -/
def unfinishedComment (cs : List Char) : List Char :=
  match cs.reverse with
  | '!' :: '-' :: '-' :: before => before.reverse
  | '-' :: '-' :: before => before.reverse
  | '-' :: before => before.reverse
  | _ => cs

/-- The text of a comment up to its end, `-->` or `--!>`. -/
def commentText (done : List Char) : List Char → List Char × List Char
  | [] => (unfinishedComment done.reverse, [])
  | '-' :: '-' :: '>' :: rest => (done.reverse, rest)
  | '-' :: '-' :: '!' :: '>' :: rest => (done.reverse, rest)
  | c :: rest => commentText (noNul c :: done) rest

/-- A comment after its opening. -/
def readComment (cs : List Char) : List Char × List Char :=
  match cs with
  | '>' :: rest => ([], rest)
  | '-' :: '>' :: rest => ([], rest)
  | _ => commentText [] cs

/-- A declaration that counts as a comment. -/
def bogusComment (cs : List Char) : Token × List Char :=
  (.comment (String.ofList ((cs.takeWhile (· != '>')).map noNul)),
    (cs.dropWhile (· != '>')).drop 1)

/-- A quoted identifier of a document type: the text, whether it was closed by
its quote, and the text behind it. -/
def doctypeQuoted (quote : Char) (cs : List Char) : String × Bool × List Char :=
  let text := cs.takeWhile fun c => c != quote && c != '>'
  match cs.dropWhile fun c => c != quote && c != '>' with
  | c :: rest => (String.ofList (text.map noNul), c == quote, if c == quote then rest else c :: rest)
  | [] => (String.ofList (text.map noNul), false, [])

/-- Skip to the end of a declaration. -/
def pastDeclaration (cs : List Char) : List Char :=
  (cs.dropWhile (· != '>')).drop 1

/-- Read the end of a document type whose identifiers are complete. -/
def doctypeEnd (d : DoctypeToken) (cs : List Char) : Token × List Char :=
  match cs.dropWhile isSpace with
  | '>' :: rest => (.doctype d, rest)
  | [] => (.doctype { d with broken := true }, [])
  | rest => (.doctype d, pastDeclaration rest)

/-- Read a system identifier. -/
def doctypeSystem (d : DoctypeToken) (needed : Bool) (cs : List Char) : Token × List Char :=
  let quoted (q : Char) (rest : List Char) : Token × List Char :=
    let (id, closed, rest) := doctypeQuoted q rest
    let d := { d with systemId := some id }
    if closed then doctypeEnd d rest
    else (.doctype { d with broken := true }, rest.drop 1)
  match cs.dropWhile isSpace with
  | '"' :: rest => quoted '"' rest
  | '\'' :: rest => quoted '\'' rest
  | '>' :: rest => (.doctype { d with broken := d.broken || needed }, rest)
  | [] => (.doctype { d with broken := true }, [])
  | rest => (.doctype { d with broken := true }, pastDeclaration rest)

/-- Read a public identifier. -/
def doctypePublic (d : DoctypeToken) (cs : List Char) : Token × List Char :=
  let quoted (q : Char) (rest : List Char) : Token × List Char :=
    let (id, closed, rest) := doctypeQuoted q rest
    let d := { d with publicId := some id }
    if closed then doctypeSystem d false rest
    else (.doctype { d with broken := true }, rest.drop 1)
  match cs.dropWhile isSpace with
  | '"' :: rest => quoted '"' rest
  | '\'' :: rest => quoted '\'' rest
  | '>' :: rest => (.doctype { d with broken := true }, rest)
  | [] => (.doctype { d with broken := true }, [])
  | rest => (.doctype { d with broken := true }, pastDeclaration rest)

/-- Read a document type after its keyword. -/
def readDoctype (cs : List Char) : Token × List Char :=
  match cs.dropWhile isSpace with
  | '>' :: rest => (.doctype { broken := true }, rest)
  | [] => (.doctype { broken := true }, [])
  | cs =>
    let isName (c : Char) := !(isSpace c || c == '>')
    let d : DoctypeToken := { name := some (lowerName (cs.takeWhile isName)) }
    match (cs.dropWhile isName).dropWhile isSpace with
    | '>' :: rest => (.doctype d, rest)
    | [] => (.doctype { d with broken := true }, [])
    | rest =>
      match Text.stripFrontNoCase? "public".toList rest with
      | some rest => doctypePublic d rest
      | none =>
        match Text.stripFrontNoCase? "system".toList rest with
        | some rest => doctypeSystem d true rest
        | none => (.doctype { d with broken := true }, pastDeclaration rest)

/-- A declaration after `<!`.  `foreign` says whether marked sections count. -/
def declaration (foreign : Bool) (cs : List Char) : Option Token × List Char :=
  match cs with
  | '-' :: '-' :: rest =>
    let (text, rest) := readComment rest
    (some (.comment (String.ofList text)), rest)
  | _ =>
    match Text.stripFrontNoCase? "doctype".toList cs with
    | some rest =>
      let (token, rest) := readDoctype rest
      (some token, rest)
    | none =>
      match (if foreign then Text.stripFront? "[CDATA[".toList cs else none) with
      | some rest =>
        match Text.cutAt? "]]>".toList rest with
        | some (text, rest) => (some (.letters (String.ofList text)), rest)
        | none => (some (.letters (String.ofList rest)), [])
      | none =>
        let (token, rest) := bogusComment cs
        (some token, rest)

end BookRules.Markup.Token
