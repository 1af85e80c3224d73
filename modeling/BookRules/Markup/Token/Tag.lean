import BookRules.Markup.Token.Basic

/-!
# Tags

Reading a tag from its name on.  Names and attributes are in lower case; of two
attributes with one name the first counts.  A tag that the text ends in gives no
token.
-/

namespace BookRules.Markup.Token

/-- The end of a tag: attributes with their raw values, whether it closes
itself, and the text behind it. -/
structure TagTail where
  attributes : List (String × String)
  selfClosing : Bool
  rest : List Char

/-- Add an attribute unless there is one of that name. -/
def addAttribute (name value : String) (attributes : List (String × String)) :
    List (String × String) :=
  if attributes.any (·.1 == name) then attributes else attributes ++ [(name, value)]

/-- Read the attributes of a tag and its end; nothing when the text ends. -/
def tagTail? (fuel : Nat) (attributes : List (String × String)) (cs : List Char) :
    Option TagTail :=
  match fuel with
  | 0 => none
  | fuel + 1 =>
    match cs.dropWhile isSpace with
    | [] => none
    | '>' :: rest => some { attributes, selfClosing := false, rest }
    | '/' :: '>' :: rest => some { attributes, selfClosing := true, rest }
    | '/' :: rest => tagTail? fuel attributes rest
    | first :: more =>
      let isName (c : Char) := !(isSpace c || c == '/' || c == '>' || c == '=')
      let name := lowerName (first :: more.takeWhile isName)
      match (more.dropWhile isName).dropWhile isSpace with
      | '=' :: rest =>
        match rest.dropWhile isSpace with
        | [] => none
        | '>' :: rest =>
          some { attributes := addAttribute name "" attributes, selfClosing := false, rest }
        | '"' :: rest =>
          match rest.dropWhile (· != '"') with
          | _ :: behind =>
            tagTail? fuel (addAttribute name (attributeValue (rest.takeWhile (· != '"'))) attributes)
              behind
          | [] => none
        | '\'' :: rest =>
          match rest.dropWhile (· != '\'') with
          | _ :: behind =>
            tagTail? fuel (addAttribute name (attributeValue (rest.takeWhile (· != '\''))) attributes)
              behind
          | [] => none
        | rest =>
          let isValue (c : Char) := !(isSpace c || c == '>')
          tagTail? fuel (addAttribute name (attributeValue (rest.takeWhile isValue)) attributes)
            (rest.dropWhile isValue)
      | rest => tagTail? fuel (addAttribute name "" attributes) rest

/-- Read a tag from its name on. -/
def tag? (cs : List Char) : Option (TagToken × List Char) :=
  let isName (c : Char) := !(isSpace c || c == '/' || c == '>')
  let name := lowerName (cs.takeWhile isName)
  let rest := cs.dropWhile isName
  (tagTail? (rest.length + 1) [] rest).map fun tail =>
    ({ name, attributes := tail.attributes, selfClosing := tail.selfClosing }, tail.rest)

end BookRules.Markup.Token
