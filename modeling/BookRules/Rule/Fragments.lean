import BookRules.Text.Blank
import BookRules.Text.Occurrence
import BookRules.Rule.Dialect
import BookRules.Rule.Combinator

/-!
# Splitting a rule into fragments

A rule is cut at the top-level occurrences of one token.  The first token that
occurs outside quotes, escapes, `[...]` and `(...)` is the one that counts; the
other tokens stay inside their fragments.  A bracket that never closes keeps
the whole rest in the last fragment, and a closing bracket too many is an
ordinary character.
-/

namespace BookRules.Rule

/-- The open brackets around a position. -/
structure Depths where
  square : Nat := 0
  paren : Nat := 0
  deriving DecidableEq, Repr

namespace Depths

/-- The open brackets after one more character. -/
def after (d : Depths) (c : Char) : Depths :=
  if c == '[' then { d with square := d.square + 1 }
  else if c == ']' then { d with square := d.square - 1 }
  else if c == '(' then { d with paren := d.paren + 1 }
  else if c == ')' then { d with paren := d.paren - 1 }
  else d

/-- No bracket is open. -/
def isTop (d : Depths) : Bool :=
  d.square == 0 && d.paren == 0

end Depths

/-- What a rule falls into: the pieces between the tokens, as they are written,
and the token that separated them. -/
structure Pieces where
  pieces : List (List Char)
  token : Option (List Char)
  deriving DecidableEq, Repr

/-- The token at the front of the text, with what follows it. -/
def tokenAt? (tokens : List (List Char)) (cs : List Char) : Option (List Char × List Char) :=
  tokens.findSome? fun t =>
    if t.isEmpty then none else (Text.stripFront? t cs).map fun rest => (t, rest)

theorem length_lt_of_tokenAt? {tokens : List (List Char)} {cs t rest : List Char}
    (h : tokenAt? tokens cs = some (t, rest)) : rest.length < cs.length := by
  obtain ⟨u, _, hu⟩ := List.exists_of_findSome?_eq_some h
  by_cases he : u.isEmpty
  · simp [he] at hu
  · simp only [he, Bool.false_eq_true, if_false] at hu
    obtain ⟨r, hr, hp⟩ := Option.map_eq_some_iff.1 hu
    simp only [Prod.mk.injEq] at hp
    obtain ⟨rfl, rfl⟩ := hp
    have hcs := Text.append_of_stripFront? hr
    have hne : u ≠ [] := by simpa using he
    have := List.length_pos_iff.2 hne
    rw [← hcs]
    simp
    omega

/-- The token at the front of the text, when no bracket is open. -/
def topTokenAt? (depths : Depths) (tokens : List (List Char)) (cs : List Char) :
    Option (List Char × List Char) :=
  if depths.isTop then tokenAt? tokens cs else none

theorem length_lt_of_topTokenAt? {depths : Depths} {tokens : List (List Char)}
    {cs t rest : List Char} (h : topTokenAt? depths tokens cs = some (t, rest)) :
    rest.length < cs.length := by
  unfold topTokenAt? at h
  split at h
  · exact length_lt_of_tokenAt? h
  · simp at h

/-- Cut `cs` at the top-level occurrences of the tokens.  `piece` holds the
current piece in reverse. -/
def cutPieces (dialect : Dialect) (tokens : List (List Char)) (depths : Depths)
    (piece : List Char) (cs : List Char) : Pieces :=
  match cs with
  | [] => ⟨[piece.reverse], none⟩
  | ['\\'] => ⟨[('\\' :: piece).reverse], none⟩
  | '\\' :: c :: rest => cutPieces dialect tokens depths (c :: '\\' :: piece) rest
  | c :: rest =>
    match h : span? dialect c rest with
    | some (inside, after) =>
      have := length_of_span? h
      cutPieces dialect tokens depths (inside.reverse ++ c :: piece) after
    | none =>
      let depths := depths.after c
      match ht : topTokenAt? depths tokens (c :: rest) with
      | some (token, after) =>
        have := length_lt_of_topTokenAt? ht
        let more := cutPieces dialect [token] depths [] after
        ⟨piece.reverse :: more.pieces, some token⟩
      | none => cutPieces dialect tokens depths (c :: piece) rest
  termination_by cs.length
  decreasing_by all_goals (simp only [List.length_cons] at *; omega)

/-- The fragments of a rule and the combinator between them. -/
structure Fragments where
  kind : Combinator
  fragments : List String
  deriving DecidableEq, Repr

namespace Fragments

/-- Exactly one fragment. -/
def isSingle (f : Fragments) : Bool :=
  f.fragments.length == 1

end Fragments

/-- Cut a rule at its top-level tokens.  Fragments are trimmed and blank ones
are dropped; a rule without a top-level token is one fragment, and so is one
that holds nothing else. -/
def split (dialect : Dialect) (tokens : List String) (rule : String) : Fragments :=
  let body := Text.trim rule.toList
  let cut := cutPieces dialect (tokens.map String.toList) {} [] body
  match cut.token with
  | none => ⟨.none, [String.ofList body]⟩
  | some token =>
    match (cut.pieces.map Text.trim).filter (fun p => !p.isEmpty) with
    | [] => ⟨.none, [""]⟩
    | fragments => ⟨.ofToken (String.ofList token), fragments.map String.ofList⟩

end BookRules.Rule
