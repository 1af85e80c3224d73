import BookRules.Script.Parser.Basic

/-!
# The grammar of scripts

Operators bind by precedence; all of them group to the left, powers to the
right, and a sign binds tighter than any operator.  A statement ends with a
semicolon, which may be left out behind a block and at the end of a list.
Expressions may be nested only so deep.
-/

namespace BookRules.Script

namespace Parse

mutual

/-- Statements up to the end of their block. -/
def statements : Nat → Place → Parse (List Statement)
  | 0, _ => failure
  | fuel + 1, place => do
    match ← next? with
    | none => return []
    | some (.mark "\x7d") => return []
    | some (.mark ";") => skip; statements fuel place
    | _ =>
      let (first, ended) ← statement fuel place
      match ← next? with
      | none => return [first]
      | some (.mark "\x7d") => return [first]
      | some (.mark ";") =>
        skip
        return first :: (← statements fuel place)
      | _ => if ended then return first :: (← statements fuel place) else failure

/-- Statements between braces. -/
def block : Nat → Place → Parse (List Statement)
  | 0, _ => failure
  | fuel + 1, place => do
    needMark "\x7b"
    let body ← statements fuel place
    needMark "\x7d"
    return body

/-- A statement, and whether it needs no semicolon. -/
def statement : Nat → Place → Parse (Statement × Bool)
  | 0, _ => failure
  | fuel + 1, place => do
    let place ← place.deeper
    match ← next? with
    | some (.mark "\x7b") => return (.block (← block fuel place), true)
    | some (.word "let") => skip; return (← declaration fuel place false, false)
    | some (.word "const") => skip; return (← declaration fuel place true, false)
    | some (.word "if") => return (← blockStatement fuel place, true)
    | some (.word "switch") => return (← blockStatement fuel place, true)
    | some (.word "while") => return (← blockStatement fuel place, true)
    | some (.word "loop") => return (← blockStatement fuel place, true)
    | some (.word "for") => return (← blockStatement fuel place, true)
    | some (.word "do") => return (← blockStatement fuel place, false)
    | some (.word "try") =>
      skip
      let body ← block fuel place
      needWord "catch"
      let error ← if ← passMark "(" then
        let error ← name
        needMark ")"
        pure (some error)
      else pure none
      return (.attempt body error (← block fuel place), true)
    | some (.word "break") =>
      skip
      if !place.inLoop then failure
      return (.breakLoop (← optional fuel place), false)
    | some (.word "continue") =>
      skip
      if !place.inLoop then failure
      return (.continueLoop, false)
    | some (.word "return") => skip; return (.giveBack (← optional fuel place), false)
    | some (.word "throw") => skip; return (.throw (← optional fuel place), false)
    | _ =>
      let target ← expression fuel place true
      match ← next? with
      | some (.mark m) =>
        match assignments.find? fun a => a.1 == m with
        | some (_, op) =>
          skip
          if !isTarget target then failure
          return (.assign target op (← expression fuel place true), false)
        | none => return (.expression target, false)
      | _ => return (.expression target, false)

/-- The value behind a word, if the statement does not end there. -/
def optional : Nat → Place → Parse Expr
  | 0, _ => failure
  | fuel + 1, place => do
    match ← next? with
    | none => return .unit
    | some (.mark ";") => return .unit
    | some (.mark "\x7d") => return .unit
    | some (.mark ",") => return .unit
    | _ => expression fuel place true

def declaration : Nat → Place → Bool → Parse Statement
  | 0, _, _ => failure
  | fuel + 1, place, constant => do
    let variable_ ← name
    let value ← if ← passMark "=" then expression fuel place true else pure .unit
    return .declare variable_ value constant

/-- A statement that starts with a word and holds blocks. -/
def blockStatement : Nat → Place → Parse Statement
  | 0, _ => failure
  | fuel + 1, place => do
    let looped := { place with inLoop := true }
    if ← passWord "if" then
      let condition ← expression fuel place true
      let yes ← block fuel place
      if ← passWord "else" then
        if ← atWord "if" then return .branch condition yes [← blockStatement fuel place]
        else return .branch condition yes (← block fuel place)
      else return .branch condition yes []
    else if ← passWord "while" then
      let condition ← expression fuel place true
      return .whileLoop condition (← block fuel looped)
    else if ← passWord "loop" then
      return .whileLoop (.bool true) (← block fuel looped)
    else if ← passWord "do" then
      let body ← block fuel looped
      if ← passWord "while" then return .doLoop body (← expression fuel place true) true
      else
        needWord "until"
        return .doLoop body (← expression fuel place true) false
    else if ← passWord "for" then
      let (item, counter) ← if ← passMark "(" then
        let item ← name
        needMark ","
        let counter ← name
        needMark ")"
        pure (item, some counter)
      else
        let item ← name
        pure (item, none)
      needWord "in"
      let source ← expression fuel place true
      return .forLoop item counter source (← block fuel looped)
    else
      needWord "switch"
      let subject ← expression fuel place true
      needMark "\x7b"
      return .switch subject (← cases fuel place)

/-- The cases of a switch, with the brace that closes it. -/
def cases : Nat → Place → Parse (List Case)
  | 0, _ => failure
  | fuel + 1, place => do
    if ← passMark "\x7d" then return []
    let other ← passWord "_"
    let patterns ← if other then pure [] else patterns fuel place
    let condition ← if ← passWord "if" then
      if other then failure
      pure (some (← expression fuel place true))
    else pure none
    needMark "=>"
    let (body, ended) ← statement fuel place
    let first := Case.mk patterns condition body
    if other then
      let _ ← passMark ","
      needMark "\x7d"
      return [first]
    if ← passMark "," then return first :: (← cases fuel place)
    else if ended then return first :: (← cases fuel place)
    else
      needMark "\x7d"
      return [first]

/-- Patterns with bars between them. -/
def patterns : Nat → Place → Parse (List Expr)
  | 0, _ => failure
  | fuel + 1, place => do
    let first ← expression fuel place false
    if !isLiteral first then failure
    if ← passMark "|" then return first :: (← patterns fuel place) else return [first]

/-- An expression; `bars` tells whether a bar is an operator in it. -/
def expression : Nat → Place → Bool → Parse Expr
  | 0, _, _ => failure
  | fuel + 1, place, bars => do
    let place ← place.deeper
    let left ← unary fuel place
    joined fuel place bars 1 left

/-- The operators behind an operand that bind tighter than `least`. -/
def joined : Nat → Place → Bool → Nat → Expr → Parse Expr
  | 0, _, _, _, _ => failure
  | fuel + 1, place, bars, least, left => do
    match ← joint? bars with
    | none => return left
    | some op =>
      if op.precedence < least || (op.precedence == least && !op.toRight) then return left
      else
        modify (List.drop op.tokens)
        let right ← unary fuel place
        let tighter := match ← joint? bars with
          | some after =>
            op.precedence < after.precedence ||
              (op.precedence == after.precedence && after.toRight)
          | none => false
        let right ← if tighter then joined fuel place bars op.precedence right else pure right
        joined fuel place bars least (op.make left right)

/-- An operand with its signs, or a closure. -/
def unary : Nat → Place → Parse Expr
  | 0, _ => failure
  | fuel + 1, place => do
    let place ← place.deeper
    match ← next? with
    | some (.mark "-") => skip; return negated (← unary fuel place)
    | some (.mark "+") => skip; unary fuel place
    | some (.mark "!") => skip; return .not (← unary fuel place)
    | some (.mark "||") => skip; closure fuel place []
    | some (.mark "|") =>
      skip
      let parameters ← names "|" fuel
      closure fuel place parameters
    | _ => primary fuel place

/-- A closure behind its parameters. -/
def closure : Nat → Place → List String → Parse Expr
  | 0, _, _ => failure
  | fuel + 1, place, parameters => do
    let before ← get
    let (body, _) ← statement fuel { place with inLoop := false }
    let after ← get
    let mentions := Token.tokenWords (before.take (before.length - after.length))
    return .closure parameters mentions body

/-- An operand with what is selected from it. -/
def primary : Nat → Place → Parse Expr
  | 0, _ => failure
  | fuel + 1, place => do
    let place ← place.deeper
    let first ← match ← next? with
      | none => failure
      | some (.int n) => skip; pure (.int n)
      | some (.float x) => skip; pure (.float x)
      | some (.char c) => skip; pure (.char c)
      | some (.text s) => skip; pure (.text s)
      | some (.template parts last) =>
        skip
        let inside ← templateParts fuel place parts
        pure (.joined (inside ++ [.text last]))
      | some (.mark "(") =>
        skip
        if ← passMark ")" then pure .unit
        else
          let place ← place.deeper
          let inside ← expression fuel place true
          needMark ")"
          pure inside
      | some (.mark "[") => skip; pure (.list (← items fuel place "]"))
      | some (.mark "#\x7b") => skip; pure (.map (← members fuel place []))
      | some (.mark "\x7b") => pure (.statement (.block (← block fuel place)))
      | some (.mark _) => failure
      | some (.word w) =>
        if w == "true" then skip; pure (.bool true)
        else if w == "false" then skip; pure (.bool false)
        else if w == "this" then skip; pure (.variable "this")
        else if ["if", "switch", "while", "loop", "do", "for"].contains w then
          pure (.statement (← blockStatement fuel place))
        else if isName w || functionWords.contains w then
          skip
          if ← passMark "(" then pure (.call w (← items fuel place ")"))
          else if isName w then pure (.variable w)
          else failure
        else failure
    selected fuel place first

/-- What is selected from an object: members, items and calls. -/
def selected : Nat → Place → Expr → Parse Expr
  | 0, _, _ => failure
  | fuel + 1, place, object => do
    match ← next? with
    | some (.mark "[") => skip; position fuel place object false
    | some (.mark "?[") => skip; position fuel place object true
    | some (.mark ".") => skip; member fuel place object false
    | some (.mark "?.") => skip; member fuel place object true
    | _ => return object

def position : Nat → Place → Expr → Bool → Parse Expr
  | 0, _, _, _ => failure
  | fuel + 1, place, object, safe => do
    let inside ← expression fuel place true
    needMark "]"
    selected fuel place (.index object inside safe)

def member : Nat → Place → Expr → Bool → Parse Expr
  | 0, _, _, _ => failure
  | fuel + 1, place, object, safe => do
    match ← next? with
    | some (.word w) =>
      if !isName w && !methodWords.contains w then failure
      skip
      if ← passMark "(" then
        selected fuel place (.method object w (← items fuel place ")") safe)
      else if isName w then selected fuel place (.property object w safe)
      else failure
    | _ => failure

/-- Expressions with commas between them, up to the mark that closes them. -/
def items : Nat → Place → String → Parse (List Expr)
  | 0, _, _ => failure
  | fuel + 1, place, close => do
    if ← passMark close then return []
    let first ← expression fuel place true
    if ← passMark "," then return first :: (← items fuel place close)
    else
      needMark close
      return [first]

/-- The members of a map; no name stands twice. -/
def members : Nat → Place → List String → Parse (List (String × Expr))
  | 0, _, _ => failure
  | fuel + 1, place, seen => do
    if ← passMark "\x7d" then return []
    let key ← match ← next? with
      | some (.word w) => if isName w then pure w else failure
      | some (.text s) => pure s
      | some (.template [] s) => pure s
      | _ => failure
    skip
    if seen.contains key then failure
    needMark ":"
    let value ← expression fuel place true
    if ← passMark "," then return (key, value) :: (← members fuel place (key :: seen))
    else
      needMark "\x7d"
      return [(key, value)]

/-- The texts and blocks of a template. -/
def templateParts : Nat → Place → List (String × List Token) → Parse (List Expr)
  | 0, _, _ => failure
  | _ + 1, _, [] => return []
  | fuel + 1, place, (before, tokens) :: rest => do
    let saved ← get
    set tokens
    let body ← statements fuel place
    if (← next?).isSome then failure
    set saved
    return .text before :: .statement (.block body) :: (← templateParts fuel place rest)

end

/-- A function behind its word. -/
def function (fuel : Nat) (place : Place) : Parse Function := do
  let name ← name
  needMark "("
  let parameters ← names ")" fuel
  let body ← block fuel { place with inLoop := false }
  return { name, parameters, body }

/-- The statements and functions of a script. -/
def program (place : Place) : Nat → Parse Program
  | 0 => failure
  | fuel + 1 => do
    let _ ← passWord "private"
    match ← next? with
    | none => return { functions := [], body := [] }
    | some (.mark ";") =>
      skip
      program place fuel
    | some (.word "fn") =>
      skip
      let first ← function fuel place
      let rest ← program place fuel
      return { rest with functions := first :: rest.functions }
    | _ =>
      let (first, ended) ← statement fuel place
      match ← next? with
      | none => return { functions := [], body := [first] }
      | some (.mark ";") =>
        skip
        let rest ← program place fuel
        return { rest with body := first :: rest.body }
      | _ =>
        if ended then
          let rest ← program place fuel
          return { rest with body := first :: rest.body }
        else failure

end Parse

/-- Read a script. -/
def Program.parse? (source : String) : Option Program := do
  let tokens ← tokenize? source
  let fuel := 16 * (source.toList.length + 8)
  let place : Parse.Place := { depth := Limits.scriptDepth, inLoop := false }
  let (program, rest) ← (Parse.program place fuel).run tokens
  if rest.isEmpty then some program else none

end BookRules.Script
