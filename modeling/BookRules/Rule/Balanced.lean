import BookRules.Rule.Dialect
import BookRules.Text.Occurrence

/-!
# Balanced spans and placeholders

A span starts at an opening bracket and ends at the bracket that closes it,
where quotes and backslashes protect the characters inside them.  In script
text a pair of square brackets also protects: braces inside an index or a
filter do not count.

A placeholder is such a span in braces that starts with a given marker.
Substitution replaces the placeholders of a text by the values of their inner
texts; text that was put in is not looked at again.  A placeholder without a
value stays, and the marker is looked for again behind its own marker.
-/

namespace BookRules.Rule

/-- What follows the bracket that closes a span. -/
def afterBalanced? (dialect : Dialect) (opening closing : Char) (depth square : Nat)
    (cs : List Char) : Option (List Char) :=
  match cs with
  | [] => none
  | ['\\'] => none
  | '\\' :: _ :: rest => afterBalanced? dialect opening closing depth square rest
  | c :: rest =>
    match h : span? dialect c rest with
    | some (_, after) =>
      have := length_of_span? h
      afterBalanced? dialect opening closing depth square after
    | none =>
      let squares := dialect == .script && opening != '['
      if squares && c == '[' then
        afterBalanced? dialect opening closing depth (square + 1) rest
      else if squares && c == ']' then
        afterBalanced? dialect opening closing depth (square - 1) rest
      else if square == 0 && c == opening then
        afterBalanced? dialect opening closing (depth + 1) square rest
      else if square == 0 && c == closing then
        if depth - 1 == 0 then some rest
        else afterBalanced? dialect opening closing (depth - 1) square rest
      else
        afterBalanced? dialect opening closing depth square rest
  termination_by cs.length
  decreasing_by all_goals (simp only [List.length_cons]; omega)

/-- Byte offset just past the bracket that closes the span at `start`. -/
def findBalanced (text : String) (start : Nat) (opening closing : Char) (dialect : Dialect) :
    Option Nat :=
  let cs := text.toList
  (afterBalanced? dialect opening closing 0 0 (Text.dropBytes start cs)).map fun rest =>
    Text.byteCount cs - Text.byteCount rest

/-- The span in braces at the front of a text, and what follows it.  A span holds at
least its own braces on either side. -/
def braced? (braces : Nat) (cs : List Char) : Option (List Char × List Char) :=
  match afterBalanced? .script '{' '}' 0 0 cs with
  | none => none
  | some after =>
    let span := cs.take (cs.length - after.length)
    if 2 * braces ≤ Text.byteCount span then some (span, after) else none

/-- What a span holds: as many bytes as it starts with braces are cut off at either
end.  Where the cut at the end falls inside a character, there is no such text. -/
def innerText? (braces : Nat) (span : List Char) : Option String :=
  (Text.dropBytes? braces (span.drop braces).reverse).map fun inner => String.ofList inner.reverse

/-- A lookup with a state of its own. -/
abbrev Resolver (σ : Type) :=
  String → σ → Option String × σ

/-- The text put together, whether it holds a value, and the state of the lookup. -/
structure Substitution (σ : Type) where
  out : List Char
  substituted : Bool
  state : σ

namespace Substitution

variable {σ : Type}

/-- A text in front that stays as it is. -/
def keep (front : List Char) (done : Substitution σ) : Substitution σ :=
  { done with out := front ++ done.out }

/-- A value in front. -/
def put (value : String) (done : Substitution σ) : Substitution σ :=
  { done with out := value.toList ++ done.out, substituted := true }

end Substitution

section Substitute

variable {σ : Type}

/-- Walk over a text: `skip` characters are to be passed over and `keep` characters to
be copied before the marker is looked for again.  The walk breaks off at a span whose
cut falls inside a character. -/
def substituteFrom (marker : List Char) (braces : Nat) (resolve : Resolver σ) :
    Nat → Nat → List Char → σ → Option (Substitution σ)
  | _, _, [], state => some { out := [], substituted := false, state }
  | skip + 1, keep, _ :: rest, state => substituteFrom marker braces resolve skip keep rest state
  | 0, keep + 1, c :: rest, state =>
    (substituteFrom marker braces resolve 0 keep rest state).map (·.keep [c])
  | 0, 0, c :: rest, state =>
    if marker.isPrefixOf (c :: rest) then
      match braced? braces (c :: rest) with
      | none =>
        (substituteFrom marker braces resolve 0 (marker.length - 1) rest state).map (·.keep [c])
      | some (span, after) =>
        match innerText? braces span with
        | none => none
        | some inner =>
          match resolve inner state with
          | (some value, state) =>
            let skip := rest.length - after.length
            (substituteFrom marker braces resolve skip 0 rest state).map (·.put value)
          | (none, state) =>
            (substituteFrom marker braces resolve 0 (marker.length - 1) rest state).map
              (·.keep [c])
    else
      (substituteFrom marker braces resolve 0 0 rest state).map (·.keep [c])

/-- The braces that a marker starts with. -/
def bracesOf (marker : String) : Nat :=
  (marker.toList.takeWhile (· == '{')).length

/-- Replace every span in braces that starts with `marker` by the value of the
text between the braces; as many braces belong to the span on either side as
the marker starts with.  The answer is `none` when nothing was replaced; there
is no answer when a cut falls inside a character. -/
def substituteWith? (text marker : String) (resolve : Resolver σ) (state : σ) :
    Option (Option String × σ) :=
  if bracesOf marker == 0 then
    some (none, state)
  else
    (substituteFrom marker.toList (bracesOf marker) resolve 0 0 text.toList state).map fun done =>
      (if done.substituted then some (String.ofList done.out) else none, done.state)

end Substitute

/-- The substitution with a lookup that has no state.  The second component lists
the inner texts that were looked up, in order. -/
def substitute? (text marker : String) (resolve : String → Option String) :
    Option (Option String × List String) :=
  (substituteWith? text marker (fun inner asked => (resolve inner, inner :: asked)) []).map
    fun (answer, asked) => (answer, asked.reverse)

/-- The substitution where no cut falls inside a character. -/
def substitute (text marker : String) (resolve : String → Option String) :
    Option String × List String :=
  (substitute? text marker resolve).getD (none, [])

end BookRules.Rule
