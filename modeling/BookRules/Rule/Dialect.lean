/-!
# Quotes in rule text

Rules and the expressions inside them protect text with single or double
quotes.  A quote protects only when its partner follows; a lone quote, as in
`Tom's`, is an ordinary character.  The two dialects differ in one point: in
script text a backslash inside quotes takes the next character out of play.
-/

namespace BookRules.Rule

/-- How quotes are read. -/
inductive Dialect
  /-- The next quote of the same kind closes. -/
  | rule
  /-- The next quote of the same kind that no backslash precedes closes. -/
  | script
  deriving DecidableEq, Repr

/-- The two quote characters. -/
def isQuote (c : Char) : Bool :=
  c == '\'' || c == '"'

/-- The text up to and including the closing quote, and what follows it. -/
def quoted? (dialect : Dialect) (quote : Char) : List Char → Option (List Char × List Char)
  | [] => none
  | [c] => if c == '\\' && dialect == .script then none else if c == quote then some ([c], []) else none
  | c :: d :: rest =>
    if c == '\\' && dialect == .script then
      (quoted? dialect quote rest).map fun (inside, after) => (c :: d :: inside, after)
    else if c == quote then
      some ([c], d :: rest)
    else
      (quoted? dialect quote (d :: rest)).map fun (inside, after) => (c :: inside, after)

/-- A quoted span and what follows it make up the text. -/
theorem append_of_quoted? {dialect : Dialect} {quote : Char} {cs inside after : List Char}
    (h : quoted? dialect quote cs = some (inside, after)) : inside ++ after = cs := by
  fun_induction quoted? dialect quote cs generalizing inside after with
  | case1 => simp at h
  | case2 => simp at h
  | case3 c _ _ => simp_all
  | case4 => simp at h
  | case5 c d rest _ ih =>
    obtain ⟨⟨i, a⟩, hq, he⟩ := Option.map_eq_some_iff.1 h
    simp only [Prod.mk.injEq] at he
    obtain ⟨rfl, rfl⟩ := he
    simp [ih hq]
  | case6 =>
    simp only [*, Option.some.injEq, Prod.mk.injEq] at h
    obtain ⟨rfl, rfl⟩ := h
    rfl
  | case7 c d rest _ _ ih =>
    obtain ⟨⟨i, a⟩, hq, he⟩ := Option.map_eq_some_iff.1 h
    simp only [Prod.mk.injEq] at he
    obtain ⟨rfl, rfl⟩ := he
    simp [ih hq]

/-- What follows a quoted span is no longer than the text. -/
theorem length_of_quoted? {dialect : Dialect} {quote : Char} {cs inside after : List Char}
    (h : quoted? dialect quote cs = some (inside, after)) : after.length ≤ cs.length := by
  rw [← append_of_quoted? h]
  simp

/-- The quoted span that the character `c` opens before `rest`. -/
def span? (dialect : Dialect) (c : Char) (rest : List Char) : Option (List Char × List Char) :=
  if isQuote c then quoted? dialect c rest else none

/-- What follows the span that a character opens is no longer than the text. -/
theorem length_of_span? {dialect : Dialect} {c : Char} {cs inside after : List Char}
    (h : span? dialect c cs = some (inside, after)) : after.length ≤ cs.length := by
  unfold span? at h
  split at h
  · exact length_of_quoted? h
  · simp at h

end BookRules.Rule
