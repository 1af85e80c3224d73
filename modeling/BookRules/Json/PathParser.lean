import BookRules.Error
import BookRules.Text.Occurrence
import BookRules.Json.Path
import BookRules.Json.Parser

/-!
# Reading JSON paths

A path starts at `$` or `@`; without either it starts with a member name.  A
step is `.name`, `.*`, `..` in front of a name, a star or a bracket, or a
bracket that holds quoted names, an index filter, a star, a bare name or a
condition `?(...)`.
-/

namespace BookRules.Json

/-- Find the bracket that closes an open one.  Quotes protect, and a backslash
protects inside quotes.  The answer is the text inside and the text behind;
`done` holds the text passed so far in reverse. -/
def closeBracket? (quote : Option Char) (depth : Nat) (done : List Char) :
    List Char → Option (List Char × List Char)
  | [] => none
  | c :: rest =>
    match quote with
    | some q =>
      if c == '\\' then
        match rest with
        | [] => none
        | d :: rest => closeBracket? quote depth (d :: c :: done) rest
      else closeBracket? (if c == q then none else quote) depth (c :: done) rest
    | none =>
      if c == '\'' || c == '"' then closeBracket? (some c) depth (c :: done) rest
      else if c == '[' then closeBracket? none (depth + 1) (c :: done) rest
      else if c == ']' then
        if depth - 1 == 0 then some (done.reverse, rest)
        else closeBracket? none (depth - 1) (c :: done) rest
      else closeBracket? none depth (c :: done) rest

/-- The path that a text stands for once its root is made explicit. -/
def pathBody (path : List Char) : List Char :=
  match Text.trim path with
  | '$' :: rest | '@' :: rest => rest
  | '[' :: rest => '[' :: rest
  | '.' :: rest => '.' :: rest
  | cs => '.' :: cs

/-- A constant in a condition: text in single quotes, any JSON value, or the
text itself. -/
def constant (raw : List Char) : Json :=
  let cs := Text.trim raw
  let asGiven : Json := match parse? cs with
    | some doc => doc
    | none => .string (String.ofList cs)
  match cs with
  | '\'' :: rest =>
    if rest.getLast? = some '\'' then .string (String.ofList rest.dropLast) else asGiven
  | _ => asGiven

/-- The characters that begin a comparison. -/
def isComparisonChar (c : Char) : Bool :=
  c == '=' || c == '!' || c == '<' || c == '>'

/-- The right side of a comparison: not empty and on one line. -/
def rightSide? (cs : List Char) : Option (List Char) :=
  let side := Text.trim cs
  if side.isEmpty || side.contains '\n' then none else some side

/-- Split `@path op constant`.  An operator of two characters is tried before
its first character. -/
def comparison? (cs : List Char) : Option (List Char × Comparison × List Char) :=
  let left := cs.takeWhile (fun c => !isComparisonChar c)
  let with? (op : Comparison) (right : List Char) :=
    (rightSide? right).map fun side => (Text.trimEnd left, op, side)
  match left with
  | '@' :: _ =>
    match cs.dropWhile (fun c => !isComparisonChar c) with
    | '=' :: '=' :: right => with? .eq right
    | '!' :: '=' :: right => with? .ne right
    | '<' :: '=' :: right => with? .le right <|> with? .lt ('=' :: right)
    | '>' :: '=' :: right => with? .ge right <|> with? .gt ('=' :: right)
    | '<' :: right => with? .lt right
    | '>' :: right => with? .gt right
    | _ => none
  | _ => none

/-- The names in a bracket that starts with a quote. -/
def quotedNames (inside : List Char) : List String :=
  let isMark (c : Char) := c == '\'' || c == '"'
  (inside.splitOnP (· == ',')).map fun name =>
    let name := (Text.trim name).dropWhile isMark
    String.ofList (name.reverse.dropWhile isMark).reverse

/-- The text of a condition without the parentheses around it. -/
def conditionText (raw : List Char) : List Char :=
  let cs := Text.trim raw
  match cs with
  | '(' :: rest => if rest.getLast? = some ')' then Text.trim rest.dropLast else cs
  | _ => cs

mutual

/-- Read the steps of `body` from `cs` on. -/
def steps (fuel : Nat) (body : List Char) (cs : List Char) : Except RuleError Path :=
  match fuel with
  | 0 => .ok []
  | fuel + 1 =>
    match cs with
    | [] => .ok []
    | '.' :: '.' :: rest => do
      let (step, rest) ← stepAfterDot fuel body true rest
      return .descend step :: (← steps fuel body rest)
    | '.' :: rest => do
      let (step, rest) ← stepAfterDot fuel body false rest
      return step :: (← steps fuel body rest)
    | '[' :: rest => do
      let (step, rest) ← bracket fuel body rest
      return step :: (← steps fuel body rest)
    | ' ' :: rest => steps fuel body rest
    | _ => .error (.path (String.ofList body) .expectedStep)

/-- Read what follows a dot. -/
def stepAfterDot (fuel : Nat) (body : List Char) (descend : Bool) (cs : List Char) :
    Except RuleError (Step × List Char) :=
  match fuel with
  | 0 => .error (.path (String.ofList body) .emptyName)
  | fuel + 1 =>
    let name (cs : List Char) : Except RuleError (Step × List Char) :=
      let isName (c : Char) := c != '.' && c != '['
      let name := Text.trim (cs.takeWhile isName)
      if name.isEmpty then .error (.path (String.ofList body) .emptyName)
      else .ok (.child [String.ofList name], cs.dropWhile isName)
    match cs with
    | '*' :: rest => .ok (.wildcard, rest)
    | '[' :: rest => if descend then bracket fuel body rest else name cs
    | _ => name cs

/-- Read a bracket after its opening. -/
def bracket (fuel : Nat) (body : List Char) (cs : List Char) :
    Except RuleError (Step × List Char) :=
  match fuel with
  | 0 => .error (.path (String.ofList body) .unclosedBracket)
  | fuel + 1 =>
    match closeBracket? none 1 [] cs with
    | none => .error (.path (String.ofList body) .unclosedBracket)
    | some (inside, rest) =>
      match Text.trim inside with
      | ['*'] => .ok (.wildcard, rest)
      | '?' :: raw => do return (.filter (← condition fuel raw), rest)
      | '\'' :: more => .ok (.child (quotedNames ('\'' :: more)), rest)
      | '"' :: more => .ok (.child (quotedNames ('"' :: more)), rest)
      | [] => .error (.path (String.ofList body) .emptyBrackets)
      | inner =>
        match Select.IndexFilter.parse? inner with
        | some filter => .ok (.indices filter, rest)
        | none => .ok (.child [String.ofList inner], rest)

/-- Read the condition of a filter. -/
def condition (fuel : Nat) (raw : List Char) : Except RuleError Condition :=
  match fuel with
  | 0 => .error (.path (String.ofList raw) .unsupportedFilter)
  | fuel + 1 =>
    let text := conditionText raw
    match comparison? text with
    | some (left, op, right) => do
      let body := pathBody left
      return .compare (← steps fuel body body) op (constant right)
    | none =>
      match text with
      | '@' :: _ => do
        let body := pathBody text
        return .present (← steps fuel body body)
      | _ => .error (.path (String.ofList text) .unsupportedFilter)

end

/-- Read a path. -/
def Path.parse (text : String) : Except RuleError Path :=
  let body := pathBody text.toList
  steps (3 * body.length + 3) body body

end BookRules.Json
