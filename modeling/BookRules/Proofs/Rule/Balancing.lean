import BookRules.Proofs.Rule.Places
import BookRules.Rule.Balanced

/-!
# Balanced spans and substitution

What a character does to the open brackets is one function of the brackets; a balanced
span is read off by it, character by character.  A span ends in its closing bracket, it is
the same span in every front of the text that reaches so far, and it holds a character for
each bracket that was open.  So the text between the braces of a placeholder is shorter
than the text it stands in, and a substitution asks for such shorter texts only.
-/

namespace BookRules.Rule

section Balanced

variable {dialect : Dialect} {opening closing c : Char} {depth square : Nat}
  {cs rest inside after : List Char}

/-! ## One character -/

/-- The open brackets after a character that nothing protects; `none` where it closes the
span. -/
def turn (dialect : Dialect) (opening closing : Char) (depth square : Nat) (c : Char) :
    Option (Nat × Nat) :=
  let squares := dialect == .script && opening != '['
  if squares && c == '[' then some (depth, square + 1)
  else if squares && c == ']' then some (depth, square - 1)
  else if square == 0 && c == opening then some (depth + 1, square)
  else if square == 0 && c == closing then
    if depth - 1 == 0 then none else some (depth - 1, square)
  else some (depth, square)

theorem afterBalanced?_escape (c : Char) (rest : List Char) :
    afterBalanced? dialect opening closing depth square ('\\' :: c :: rest) =
      afterBalanced? dialect opening closing depth square rest := by
  rw [afterBalanced?]

/-- What a character in front does: a quoted text is passed over, any other character turns
the brackets. -/
theorem afterBalanced?_cons (hescape : c ≠ '\\') :
    afterBalanced? dialect opening closing depth square (c :: rest) =
      (span? dialect c rest).elim
        ((turn dialect opening closing depth square c).elim (some rest) fun next =>
          afterBalanced? dialect opening closing next.1 next.2 rest)
        fun found => afterBalanced? dialect opening closing depth square found.2 := by
  rw [afterBalanced?.eq_def]
  split
  next => contradiction
  next => simp_all
  next => simp_all
  next heq =>
    obtain ⟨rfl, rfl⟩ := List.cons.inj heq
    split
    next hspan => simp only [hspan, Option.elim_some]
    next hspan =>
      simp only [hspan, Option.elim_none, turn]
      split_ifs <;> rfl

theorem afterBalanced?_span (h : span? dialect c rest = some (inside, after)) :
    afterBalanced? dialect opening closing depth square (c :: rest) =
      afterBalanced? dialect opening closing depth square after := by
  have hescape : c ≠ '\\' := by
    rintro rfl
    simp [span?, isQuote] at h
  rw [afterBalanced?_cons hescape, h, Option.elim_some]

theorem afterBalanced?_turn {depth' square' : Nat} (hescape : c ≠ '\\')
    (h : span? dialect c rest = none)
    (hturn : turn dialect opening closing depth square c = some (depth', square')) :
    afterBalanced? dialect opening closing depth square (c :: rest) =
      afterBalanced? dialect opening closing depth' square' rest := by
  rw [afterBalanced?_cons hescape, h, Option.elim_none, hturn, Option.elim_some]

theorem afterBalanced?_close (hescape : c ≠ '\\') (h : span? dialect c rest = none)
    (hturn : turn dialect opening closing depth square c = none) :
    afterBalanced? dialect opening closing depth square (c :: rest) = some rest := by
  rw [afterBalanced?_cons hescape, h, Option.elim_none, hturn, Option.elim_none]

theorem le_of_turn {depth' square' : Nat}
    (h : turn dialect opening closing depth square c = some (depth', square')) :
    depth ≤ depth' + 1 := by
  simp only [turn] at h
  split_ifs at h <;> simp only [Option.some.injEq, Prod.mk.injEq] at h <;> omega

theorem eq_closing_of_turn (h : turn dialect opening closing depth square c = none) :
    c = closing ∧ depth ≤ 1 := by
  simp only [turn] at h
  split_ifs at h
  simp_all
  omega

/-! ## A whole span -/

/-- A step of the search: it passes over a piece and goes on behind it, or it is at the bracket
that closes the span.  Either way it does the same in every front of the text. -/
theorem step_of_afterBalanced?
    (h : afterBalanced? dialect opening closing depth square cs = some after) :
    (∃ piece rest depth' square', piece ++ rest = cs ∧ piece ≠ [] ∧
        depth ≤ depth' + piece.length ∧
        ∀ front, front <+: rest →
          afterBalanced? dialect opening closing depth square (piece ++ front) =
            afterBalanced? dialect opening closing depth' square' front) ∨
      closing :: after = cs ∧ depth ≤ 1 ∧ ∀ front, front <+: after →
        afterBalanced? dialect opening closing depth square (closing :: front) = some front := by
  cases cs with
  | nil => simp [afterBalanced?] at h
  | cons c rest =>
      by_cases hescape : c = '\\'
      · subst hescape
        cases rest with
        | nil => simp [afterBalanced?] at h
        | cons c rest =>
            exact .inl ⟨['\\', c], rest, depth, square, rfl, by simp, by simp,
              fun front _ => afterBalanced?_escape c front⟩
      · cases hspan : span? dialect c rest with
        | some found =>
            obtain ⟨inside, behind⟩ := found
            refine .inl ⟨c :: inside, behind, depth, square, ?_, by simp, by simp, fun front _ => ?_⟩
            · rw [List.cons_append, append_of_span? hspan]
            · exact afterBalanced?_span (span?_append hspan front)
        | none =>
            -- a lone quote stays lone in a front of the text
            have hlone : ∀ front, front <+: rest → span? dialect c front = none := by
              rintro front ⟨back, rfl⟩
              exact span?_eq_none_of_append hspan
            cases hturn : turn dialect opening closing depth square c with
            | none =>
                obtain ⟨rfl, hdepth⟩ := eq_closing_of_turn hturn
                rw [afterBalanced?_close hescape hspan hturn] at h
                obtain rfl := Option.some.inj h
                exact .inr ⟨rfl, hdepth,
                  fun front hfront => afterBalanced?_close hescape (hlone front hfront) hturn⟩
            | some turned =>
                obtain ⟨depth', square'⟩ := turned
                exact .inl ⟨[c], rest, depth', square', rfl, by simp, le_of_turn hturn,
                  fun front hfront => afterBalanced?_turn hescape (hlone front hfront) hturn⟩

/-- A span ends in its closing bracket and is the same in every front of the text that holds
it; it holds a character for each bracket that was open. -/
theorem exists_of_afterBalanced?
    (h : afterBalanced? dialect opening closing depth square cs = some after) :
    ∃ body, body ++ closing :: after = cs ∧ depth ≤ body.length + 1 ∧
      ∀ front, front <+: after →
        afterBalanced? dialect opening closing depth square (body ++ closing :: front) =
          some front := by
  induction hlength : cs.length using Nat.strongRecOn generalizing depth square cs with
  | ind length ih =>
      rcases step_of_afterBalanced? h with
        ⟨piece, rest, depth', square', rfl, hpiece, hdepth, hstep⟩ | ⟨rfl, hdepth, hclose⟩
      · have hshort : rest.length < length := by
          have := List.length_pos_iff.2 hpiece
          rw [← hlength, List.length_append]
          omega
        rw [hstep rest List.prefix_rfl] at h
        obtain ⟨body, rfl, hdepth', hbody⟩ := ih rest.length hshort h rfl
        refine ⟨piece ++ body, List.append_assoc .., ?_, fun front hfront => ?_⟩
        · rw [List.length_append]
          omega
        · have hprefix : body ++ closing :: front <+: body ++ closing :: after := by
            simpa using hfront
          rw [List.append_assoc, hstep _ hprefix, hbody front hfront]
      · exact ⟨[], rfl, hdepth, hclose⟩

theorem isSuffix_of_afterBalanced?
    (h : afterBalanced? dialect opening closing depth square cs = some after) : after <:+ cs := by
  obtain ⟨body, rfl, -, -⟩ := exists_of_afterBalanced? h
  exact ⟨body ++ [closing], by simp⟩

theorem isSuffix_tail_of_afterBalanced?
    (h : afterBalanced? dialect opening closing depth square (c :: rest) = some after) :
    after <:+ rest := by
  rcases List.suffix_cons_iff.1 (isSuffix_of_afterBalanced? h) with rfl | hbehind
  · obtain ⟨body, hbody, -, -⟩ := exists_of_afterBalanced? h
    have hlength := congrArg List.length hbody
    simp only [List.length_append, List.length_cons] at hlength
    omega
  · exact hbehind

end Balanced

/-! ## Placeholders -/

section Placeholders

variable {braces : Nat} {span cs rest after : List Char} {inner : String}

theorem length_lt_of_innerText? {c : Char} (hbraces : 0 < braces) (hspan : span <+: c :: rest)
    (h : innerText? braces span = some inner) : inner.length < (c :: rest).length := by
  obtain ⟨left, hleft, rfl⟩ := Option.map_eq_some_iff.1 h
  have hcut := Text.length_le_of_dropBytes? hleft
  have hlength := hspan.length_le
  simp only [List.length_reverse, List.length_drop, String.length_ofList,
    List.length_cons] at hcut hlength ⊢
  omega

theorem afterBalanced?_of_braced? (h : braced? braces cs = some (span, after)) :
    afterBalanced? .script '\x7b' '\x7d' 0 0 cs = some after ∧ span ++ after = cs := by
  unfold braced? at h
  split at h
  next => simp at h
  next behind hbehind =>
    simp only at h
    split_ifs at h
    obtain ⟨rfl, rfl⟩ := Prod.mk.inj (Option.some.inj h)
    exact ⟨hbehind, List.suffix_iff_eq_append.1 (isSuffix_of_afterBalanced? hbehind)⟩

variable {σ : Type} {resolve other : Resolver σ}

/-- Two lookups that agree on shorter texts give the same substitution. -/
theorem substituteFrom_congr {marker : List Char} {bound : Nat} (hbraces : 0 < braces)
    (hagree : ∀ inner : String, inner.length < bound → ∀ state, resolve inner state =
      other inner state)
    (skip keep : Nat) (hcs : cs.length ≤ bound) (state : σ) :
    substituteFrom marker braces resolve skip keep cs state =
      substituteFrom marker braces other skip keep cs state := by
  induction cs generalizing skip keep state with
  | nil => rfl
  | cons c rest ih =>
      have hrest : rest.length ≤ bound := Nat.le_of_succ_le hcs
      cases skip with
      | succ skip => exact ih skip keep hrest state
      | zero =>
          cases keep with
          | succ keep => simp only [substituteFrom, ih 0 keep hrest]
          | zero =>
              simp only [substituteFrom, ih _ _ hrest]
              split
              next hmark =>
                split
                next => rfl
                next span after hbraced =>
                  split
                  next => rfl
                  next inner hinner =>
                    have hspan : span <+: c :: rest := ⟨after, (afterBalanced?_of_braced? hbraced).2⟩
                    have hshort := length_lt_of_innerText? hbraces hspan hinner
                    rw [hagree inner (Nat.lt_of_lt_of_le hshort hcs)]
              next => rfl

end Placeholders

theorem substitute_congr {text marker : String} {resolve other : String → Option String}
    (hagree : ∀ inner : String, inner.length < text.length → resolve inner = other inner) :
    substitute text marker resolve = substitute text marker other := by
  unfold substitute substitute? substituteWith?
  split
  next => rfl
  next hbraces =>
    have hpositive : 0 < bracesOf marker := by
      simp only [beq_iff_eq] at hbraces
      omega
    have hlength : text.toList.length ≤ text.length := Nat.le_of_eq String.length_toList
    rw [substituteFrom_congr hpositive _ 0 0 hlength]
    intro inner hinner state
    rw [hagree inner hinner]

end BookRules.Rule
