import BookRules.Finding.Evaluation
import BookRules.Request.Basic

/-!
# Search requests

The address of a search is a template.  `{{key}}` stands for the keyword, encoded
for a form, and `{{page}}` for the number of the page.  Any other `{{…}}` is
evaluated as a rule; in it the word `key` stands for the keyword as a quoted text
of a script, and the word `page` for the number.
-/

namespace BookRules.Request

/-- Read `{{name}}` with one of two names and white space around it. -/
def placeholder? (long short : List Char) (cs : List Char) : Option (List Char) :=
  match cs with
  | '\x7b' :: '\x7b' :: rest =>
    let rest := Text.trimStart rest
    let after? := (Text.stripFront? long rest).or (Text.stripFront? short rest)
    after?.bind fun after => Text.stripFront? ['\x7d', '\x7d'] (Text.trimStart after)
  | _ => none

/-- Replace the placeholders with one of two names. -/
def fillPlaceholders (long short value : List Char) (template : List Char) : List Char :=
  Text.replaceSpans (fun cs => (placeholder? long short cs).map fun after => (value, after)) template

/-- Replace words; `word` holds the letters of the word that is being read, in
reverse. -/
def replaceWordsFrom (replace : List Char → List Char) (word : List Char) :
    List Char → List Char
  | [] => replace word.reverse
  | c :: rest =>
    if Unicode.isWord c.toNat then replaceWordsFrom replace (c :: word) rest
    else replace word.reverse ++ c :: replaceWordsFrom replace [] rest

/-- Put a value in the place of two words. -/
def replaceWords (long short value : List Char) (cs : List Char) : List Char :=
  replaceWordsFrom (fun word => if word = long || word = short then value else word) [] cs

/-- The keyword as a quoted text of a script. -/
def quotedKeyword (keyword : String) : List Char :=
  '"' :: (keyword.toList.flatMap fun c => if c == '\\' || c == '"' then ['\\', c] else [c]) ++ ['"']

/-- Read `{{…}}`: what is inside, and what follows. -/
def expression? (cs : List Char) : Option (List Char × List Char) :=
  match cs with
  | '\x7b' :: '\x7b' :: rest => Text.cutAt? ['\x7d', '\x7d'] rest
  | _ => none

def filledExpression (keyword : String) (page : Nat) (body : List Char) : List Char :=
  replaceWords "searchPage".toList "page".toList (Decimal.digitsOf page)
    (replaceWords "searchKey".toList "key".toList (quotedKeyword keyword) body)

/-- The rule a template with expressions stands for. -/
def preparedTemplate (keyword : String) (page : Nat) (template : List Char) : List Char :=
  Text.replaceSpans (fun cs => (expression? cs).map fun (body, after) =>
    ('\x7b' :: '\x7b' :: filledExpression keyword page body ++ ['\x7d', '\x7d'], after)) template

/-- Evaluate the expressions of a template; one that gives nothing stays as it
is. -/
def evaluateExpressions (source : Source) (keyword : String) (page : Nat)
    (template : List Char) : List Char :=
  let rule := String.ofList (preparedTemplate keyword page template)
  let ctx : Context :=
    ({ baseUrl := source.url : Context }.put "key" keyword).put "page" (toString page)
  (((Finding.string? (.text "") rule).run { context := ctx }).1.getD rule).toList

/-- A template with the keyword and the number of the page. -/
def filledTemplate (source : Source) (keyword : String) (page : Nat) (template : List Char) :
    List Char :=
  let filled := fillPlaceholders "searchKey".toList "key".toList
    (Url.formEncode keyword.toList) template
  let filled := fillPlaceholders "searchPage".toList "page".toList (Decimal.digitsOf page) filled
  if Text.occursIn ['\x7b', '\x7b'] filled then evaluateExpressions source keyword page filled
  else filled

/-- The request for a page of search results. -/
def ofSearch (source : Source) (keyword : String) (page : Nat) : Except Fault Request :=
  let template := Source.rule source.searchUrl
  if template.isEmpty then .error (.source (.noSearch source.displayName))
  else ofTarget source (filledTemplate source keyword page template.toList)

end BookRules.Request
