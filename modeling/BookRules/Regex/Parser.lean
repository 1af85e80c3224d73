import BookRules.Word
import BookRules.Regex.Bracket

/-!
# Reading regular expressions

The grammar has no look-around and no back-references.  Flags hold from where
they stand to the end of their group, across alternatives.  What cannot be read
is refused as a whole.
-/

namespace BookRules.Regex

/-- Any character that the dot stands for. -/
def dot? (flags : Flags) : Option CharSet :=
  if !flags.unicode then none
  else if flags.dotAll then some .all
  else if flags.carriageReturn then some (CharSet.ofChars ['\r', '\n']).complement
  else some (CharSet.ofChars ['\n']).complement

/-- The place a caret stands for. -/
def caret (flags : Flags) : Place :=
  if !flags.multiLine then .textStart
  else if flags.carriageReturn then .anyLineStart
  else .lineStart

/-- The place a dollar sign stands for. -/
def dollar (flags : Flags) : Place :=
  if !flags.multiLine then .textEnd
  else if flags.carriageReturn then .anyLineEnd
  else .lineEnd

/-- What was read, and how deep it is nested.  Flags that are set in between are
an item that matches nothing. -/
structure Item where
  syntax? : Option Syntax
  depth : Nat := 0

/-- Read a single character, class or place. -/
def primitive? (r : Reader) : Option (Item × Reader) :=
  match r.rest with
  | [] => none
  | '\\' :: rest => do
    let (atom, r) ← escape? (r.withRest rest)
    match atom with
    | .literal c => return (⟨some (.char (← literalSet? r.flags c)), 0⟩, r)
    | .set s => return (⟨some (.char s), 0⟩, r)
    | .place p => return (⟨some (.place p), 0⟩, r)
  | '.' :: rest => (dot? r.flags).map fun set => (⟨some (.char set), 0⟩, r.withRest rest)
  | '^' :: rest => some (⟨some (.place (caret r.flags)), 0⟩, r.withRest rest)
  | '$' :: rest => some (⟨some (.place (dollar r.flags)), 0⟩, r.withRest rest)
  | '[' :: _ => (class? r).map fun ({ set, depth }, r) => (⟨some (.char set), depth⟩, r)
  | c :: rest => some (⟨some (.char (caseClosed r.flags (.ofChars [c]))), 0⟩, r.withRest rest)

/-- Read the digits of a count, with blanks around them. -/
def count? (r : Reader) : Option Nat × Reader :=
  let start := r.withRest (r.rest.dropWhile Text.isBlank)
  let digits := start.rest.takeWhile Decimal.isDigit
  let after := (start.withRest (start.rest.dropWhile Decimal.isDigit)).skipSpace
  let after := after.withRest (after.rest.dropWhile Text.isBlank)
  if digits.isEmpty then (none, after) else (some (Decimal.valueOf digits), after)

/-- The largest count. -/
def countMax : Nat :=
  Word.range32 - 1

/-- Whether a question mark makes the repetition prefer fewer. -/
def lazyMark (r : Reader) : Bool × Reader :=
  match r.rest with
  | '?' :: rest => (true, r.withRest rest)
  | _ => (false, r)

/-- Read the braces of a counted repetition. -/
def counts? (r : Reader) : Option (Nat × Option Nat × Reader) :=
  let inRange (n : Nat) : Option Nat := if n ≤ countMax then some n else none
  let (first?, r) := count? r.bump
  match r.rest with
  | ',' :: _ =>
    let r := r.bump
    match r.rest with
    | '\x7d' :: _ => do return (← inRange (← first?), none, r.bump)
    | _ => do
      let first ← inRange (← first?)
      let (second?, r) := count? r
      let second ← inRange (← second?)
      match r.rest with
      | '\x7d' :: _ => if second < first then none else return (first, some second, r.bump)
      | _ => none
  | '\x7d' :: _ => do
    let n ← inRange (← first?)
    return (n, some n, r.bump)
  | _ => none

/-- Read the flags of a group up to the colon or parenthesis. -/
def flagItems? : Nat → List Char → Bool → Flags → List Char → Option (Flags × List Char)
  | 0, _, _, _, _ => none
  | fuel + 1, seen, off, flags, cs =>
    match cs with
    | [] => none
    | c :: rest =>
      if c == ':' || c == ')' then
        if seen.head? == some '-' then none else some (flags, cs)
      else if seen.contains c then none
      else
        let again (off : Bool) (flags : Flags) := flagItems? fuel (c :: seen) off flags rest
        match c with
        | '-' => again true flags
        | 'i' => again off { flags with ignoreCase := !off }
        | 'm' => again off { flags with multiLine := !off }
        | 's' => again off { flags with dotAll := !off }
        | 'U' => again off { flags with swapGreed := !off }
        | 'u' => again off { flags with unicode := !off }
        | 'R' => again off { flags with carriageReturn := !off }
        | 'x' => again off { flags with ignoreSpace := !off }
        | _ => none

def isGroupNameChar (first : Bool) (c : Char) : Bool :=
  c == '_' || Unicode.isAlphabetic c.toNat ||
    (!first && (c == '.' || c == '[' || c == ']' ||
      (Unicode.category c.toNat).belongsTo "n"))

/-- Read the name of a group up to the closing bracket. -/
def groupName? (r : Reader) : Option Reader :=
  let name := r.rest.takeWhile (· != '>')
  match name, r.rest.dropWhile (· != '>') with
  | c :: more, _ :: rest =>
    if isGroupNameChar true c && more.all (isGroupNameChar false) && !r.names.contains name then
      some { r with rest, names := name :: r.names }
    else none
  | _, _ => none

/-- An expression, and how deep its groups, repetitions, sequences, alternatives
and classes are nested. -/
structure Branch where
  expression : Syntax
  depth : Nat

/-- The sequence of the items read, which are in reverse. -/
def sequence (items : List Item) : Branch where
  expression :=
    match items.filterMap Item.syntax? with
    | [] => .empty
    | last :: before => before.foldl (fun done item => .seq item done) last
  depth := joinedDepth (items.map Item.depth)

/-- The choice between the branches read. -/
def choice (first : Branch) (others : List Branch) : Branch where
  expression := alternatives first.expression (others.map Branch.expression)
  depth := joinedDepth ((first :: others).map Branch.depth)
where
  alternatives (first : Syntax) : List Syntax → Syntax
    | [] => first
    | second :: others => .alt first (alternatives second others)

/-- The deepest nesting. -/
def maxDepth : Nat :=
  250

mutual

/-- Read alternatives up to the end or a closing parenthesis. -/
def alternatives? : Nat → Reader → Option (Branch × List Branch × Reader)
  | 0, _ => none
  | fuel + 1, r => do
    let (first, r) ← branch? fuel [] r
    match r.rest with
    | '|' :: rest =>
      let (second, others, r) ← alternatives? fuel (r.withRest rest)
      return (first, second :: others, r)
    | _ => return (first, [], r)

/-- Read the items of one alternative; `done` holds the ones read, in
reverse. -/
def branch? : Nat → List Item → Reader → Option (Branch × Reader)
  | 0, _, _ => none
  | fuel + 1, done, r =>
    let r := r.skipSpace
    let repeated (least : Nat) (most : Option Nat) (r : Reader) : Option (Branch × Reader) :=
      match done with
      | { syntax? := some inner, depth } :: before =>
        let (few, r) := lazyMark r
        let again := inner.repeat_ least most (few == r.flags.swapGreed)
        branch? fuel ({ syntax? := some again, depth := depth + 1 } :: before) r
      | _ => none
    match r.rest with
    | [] => some (sequence done, r)
    | '|' :: _ => some (sequence done, r)
    | ')' :: _ => some (sequence done, r)
    | '?' :: rest => repeated 0 (some 1) (r.withRest rest)
    | '*' :: rest => repeated 0 none (r.withRest rest)
    | '+' :: rest => repeated 1 none (r.withRest rest)
    | '\x7b' :: _ =>
      match counts? r with
      | some (least, most, r) => repeated least most r
      | none => none
    | '(' :: rest =>
      match group? fuel (r.withRest rest) with
      | some (item, r) => branch? fuel (item :: done) r
      | none => none
    | _ =>
      match primitive? r with
      | some (item, r) => branch? fuel (item :: done) r
      | none => none

/-- Read a group after its opening parenthesis.  A group that only sets flags has
nothing inside. -/
def group? : Nat → Reader → Option (Item × Reader)
  | 0, _ => none
  | fuel + 1, r =>
    let outer := r.flags
    let r := r.skipSpace
    let finish (capture : Option Nat) (r : Reader) : Option (Item × Reader) := do
      let (first, others, r) ← alternatives? fuel r
      let { expression, depth } := choice first others
      match r.rest with
      | ')' :: rest =>
        let r := { r with rest, flags := outer }
        match capture with
        | some index => return ({ syntax? := some (.group index expression), depth := depth + 1 }, r)
        | none => return ({ syntax? := some expression, depth := depth + 1 }, r)
      | _ => none
    let numbered (r : Reader) : Reader := { r with groups := r.groups + 1 }
    match r.rest with
    | '?' :: '=' :: _ | '?' :: '!' :: _ | '?' :: '<' :: '=' :: _ | '?' :: '<' :: '!' :: _ => none
    | '?' :: 'P' :: '<' :: rest | '?' :: '<' :: rest =>
      match groupName? ((numbered r).withRest rest) with
      | some r => finish (some r.groups) r
      | none => none
    | '?' :: rest =>
      match flagItems? (rest.length + 1) [] false r.flags rest with
      | some (flags, ')' :: after) =>
        if rest.head? == some ')' then none
        else some ({ syntax? := none }, { r with rest := after, flags })
      | some (flags, _ :: after) => finish none { r with rest := after, flags }
      | _ => none
    | _ => finish (some (r.groups + 1)) (numbered r)

end

/-- Read a regular expression.  Every call passes over a character or leads to a
call that does, at most three deep. -/
def Syntax.parse? (text : String) : Option Syntax :=
  let cs := text.toList
  match alternatives? (4 * cs.length + 4) { rest := cs } with
  | some (first, others, r) =>
    let { expression, depth } := choice first others
    if r.rest.isEmpty && depth ≤ maxDepth then some expression else none
  | none => none

end BookRules.Regex
