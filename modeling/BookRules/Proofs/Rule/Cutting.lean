import BookRules.Proofs.Rule.Places

/-!
# Cutting a rule

Cutting a rule loses nothing: put together with the token that was found, the
pieces are the rule again.  The first piece holds none of the tokens and the
others do not hold the one that was found, since every piece is read the way it
was read inside the rule: what is open where a token counts is nothing at all.

Joining fragments goes the other way.  A fragment that closes what it opens is
read to its end whatever follows it, so the token behind it is found there, unless
the fragment ends with the character the token starts with and the two run into
one another.
-/

namespace BookRules.Rule

/-- The texts at which rules are split: the combinators, and the sign between the
steps of a navigation. -/
def separators : List String :=
  Combinator.tokens ++ ["@"]

/-- Tokens that are runs of one ordinary character, each of a character of its own. -/
structure AreRuns (tokens : List (List Char)) : Prop where
  run : ∀ token ∈ tokens, ∃ c n, isOrdinary c = true ∧ token = List.replicate (n + 1) c
  distinct : ∀ token ∈ tokens, ∀ other ∈ tokens, token.head? = other.head? → token = other

theorem areRuns_separators : AreRuns (separators.map String.toList) where
  run := by
    intro token htoken
    simp only [separators, Combinator.tokens, List.cons_append, List.nil_append, List.map_cons,
      List.map_nil, List.mem_cons, List.not_mem_nil, or_false] at htoken
    rcases htoken with rfl | rfl | rfl | rfl
    · exact ⟨'&', 1, by decide, by decide⟩
    · exact ⟨'|', 1, by decide, by decide⟩
    · exact ⟨'%', 1, by decide, by decide⟩
    · exact ⟨'@', 0, by decide, by decide⟩
  distinct := by decide

variable {dialect : Dialect} {tokens : List (List Char)} {token : List Char} {depths : Depths}
  {c : Char} {piece cs rest inside after : List Char}

theorem AreRuns.mono {more : List (List Char)} (h : AreRuns more) (hsub : tokens ⊆ more) :
    AreRuns tokens where
  run token htoken := h.run token (hsub htoken)
  distinct token htoken other hother := h.distinct token (hsub htoken) other (hsub hother)

theorem AreRuns.singleton (h : AreRuns tokens) (htoken : token ∈ tokens) : AreRuns [token] :=
  h.mono (by simpa using htoken)

/-! ## The token at a place -/

theorem AreRuns.ne_nil (h : AreRuns tokens) (htoken : token ∈ tokens) : token ≠ [] := by
  obtain ⟨c, n, -, rfl⟩ := h.run token htoken
  simp

/-- Where a token stands, an ordinary character is read. -/
theorem AreRuns.isOrdinary_of_isPrefix (h : AreRuns tokens) (htoken : token ∈ tokens)
    (hstart : token <+: c :: rest) : isOrdinary c = true := by
  obtain ⟨d, n, hd, rfl⟩ := h.run token htoken
  obtain ⟨more, hmore⟩ := hstart
  rw [List.replicate_succ, List.cons_append, List.cons.injEq] at hmore
  rw [← hmore.1]
  exact hd

theorem tokenAt?_eq_none_iff (h : AreRuns tokens) :
    tokenAt? tokens cs = none ↔ ∀ token ∈ tokens, ¬ token <+: cs := by
  unfold tokenAt?
  rw [List.findSome?_eq_none_iff]
  constructor
  · intro hnone token htoken hstart
    obtain ⟨after, hafter⟩ := hstart
    have hsearch := hnone token htoken
    rw [if_neg (by simpa using h.ne_nil htoken), Text.stripFront?_eq_some_iff.2 hafter] at hsearch
    simp at hsearch
  · intro hnone token htoken
    rw [if_neg (by simpa using h.ne_nil htoken),
      Text.stripFront?_eq_none_iff.2 (hnone token htoken)]
    rfl

/-- The token that is found is one of the tokens and stands in front. -/
theorem of_tokenAt?_eq_some (h : tokenAt? tokens cs = some (token, after)) :
    token ∈ tokens ∧ token ++ after = cs := by
  obtain ⟨other, hother, hsome⟩ := List.exists_of_findSome?_eq_some h
  split at hsome
  next => simp at hsome
  next =>
    obtain ⟨more, hmore, heq⟩ := Option.map_eq_some_iff.1 hsome
    simp only [Prod.mk.injEq] at heq
    obtain ⟨rfl, rfl⟩ := heq
    exact ⟨hother, Text.append_of_stripFront? hmore⟩

/-- No two tokens compete for a place. -/
theorem tokenAt?_append (h : AreRuns tokens) (htoken : token ∈ tokens) (after : List Char) :
    tokenAt? tokens (token ++ after) = some (token, after) := by
  cases hfound : tokenAt? tokens (token ++ after) with
  | none =>
      exact absurd (List.prefix_append token after)
        ((tokenAt?_eq_none_iff h).1 hfound token htoken)
  | some found =>
      obtain ⟨other, rest⟩ := found
      obtain ⟨hother, happ⟩ := of_tokenAt?_eq_some hfound
      have hhead : other.head? = token.head? := by
        have hheads := congrArg List.head? happ
        rwa [List.head?_append_of_ne_nil other (h.ne_nil hother),
          List.head?_append_of_ne_nil token (h.ne_nil htoken)] at hheads
      obtain rfl : other = token := h.distinct other hother token htoken hhead
      rw [List.append_cancel_left happ]

theorem Depths.eq_of_isTop (h : depths.isTop = true) : depths = {} := by
  obtain ⟨square, paren⟩ := depths
  simp only [isTop, Bool.and_eq_true, beq_iff_eq] at h
  rw [h.1, h.2]

theorem of_topTokenAt?_eq_some (h : topTokenAt? depths tokens cs = some (token, after)) :
    token ∈ tokens ∧ depths = {} ∧ token ++ after = cs := by
  unfold topTokenAt? at h
  split at h
  next htop =>
    obtain ⟨htoken, happ⟩ := of_tokenAt?_eq_some h
    exact ⟨htoken, Depths.eq_of_isTop htop, happ⟩
  next => simp at h

/-- Whether the brackets are looked at before or after the character makes no
difference to the tokens. -/
theorem topTokenAt?_after (h : AreRuns tokens) (depths : Depths) (c : Char) (rest : List Char) :
    topTokenAt? (depths.after c) tokens (c :: rest) = topTokenAt? depths tokens (c :: rest) := by
  by_cases hc : isOrdinary c = true
  · rw [Depths.after_of_isOrdinary hc]
  · have hnone : tokenAt? tokens (c :: rest) = none := by
      rw [tokenAt?_eq_none_iff h]
      intro token htoken hstart
      exact hc (h.isOrdinary_of_isPrefix htoken hstart)
    simp [topTokenAt?, hnone]

theorem topTokenAt?_eq_none_iff (h : AreRuns tokens) :
    topTokenAt? depths tokens cs = none ↔ ¬ Place.HasToken tokens ⟨depths, cs⟩ := by
  unfold topTokenAt? Place.HasToken
  by_cases htop : depths.isTop = true
  · simp [htop, tokenAt?_eq_none_iff h]
  · simp [htop]

theorem AreRuns.not_hasToken (h : AreRuns tokens) (hc : isOrdinary c = false)
    (depths : Depths) (rest : List Char) : ¬ Place.HasToken tokens ⟨depths, c :: rest⟩ := by
  rintro ⟨-, token, htoken, hstart⟩
  rw [h.isOrdinary_of_isPrefix htoken hstart] at hc
  simp at hc

theorem AreRuns.not_hasToken_nil (h : AreRuns tokens) (depths : Depths) :
    ¬ Place.HasToken tokens ⟨depths, []⟩ := by
  rintro ⟨-, token, htoken, hstart⟩
  exact h.ne_nil htoken (List.prefix_nil.1 hstart)

theorem not_holdsToken_nil (h : AreRuns tokens) (dialect : Dialect) (depths : Depths) :
    ¬ HoldsToken dialect tokens depths [] := by
  simpa [HoldsToken, places] using h.not_hasToken_nil depths

theorem not_holdsToken_backslash (h : AreRuns tokens) (dialect : Dialect) (depths : Depths) :
    ¬ HoldsToken dialect tokens depths ['\\'] := by
  simpa [HoldsToken, places] using h.not_hasToken (by decide) depths []

theorem holdsToken_escape_iff (h : AreRuns tokens) :
    HoldsToken dialect tokens depths ('\\' :: c :: rest) ↔
      HoldsToken dialect tokens depths rest := by
  have hno := h.not_hasToken (c := '\\') (by decide) depths (c :: rest)
  simp [HoldsToken, places_escape, hno]

theorem holdsToken_span_iff (h : AreRuns tokens)
    (hspan : span? dialect c rest = some (inside, after)) :
    HoldsToken dialect tokens depths (c :: rest) ↔ HoldsToken dialect tokens depths after := by
  have hquote : isQuote c = true := isQuote_of_span? hspan
  have hno := h.not_hasToken (isOrdinary_eq_false_of_isQuote hquote) depths rest
  simp [HoldsToken, places_span (ne_backslash_of_isQuote hquote) hspan, hno]

theorem holdsToken_step_iff (hc : c ≠ '\\') (hspan : span? dialect c rest = none) :
    HoldsToken dialect tokens depths (c :: rest) ↔
      Place.HasToken tokens ⟨depths, c :: rest⟩ ∨
        HoldsToken dialect tokens (depths.after c) rest := by
  simp [HoldsToken, places_step hc hspan]

/-! ## Steps of a cut -/

theorem cutPieces_escape (tokens : List (List Char)) (depths : Depths) (piece : List Char)
    (c : Char) (rest : List Char) :
    cutPieces dialect tokens depths piece ('\\' :: c :: rest) =
      cutPieces dialect tokens depths (c :: '\\' :: piece) rest := by
  rw [cutPieces]

theorem cutPieces_span (hc : c ≠ '\\') (hspan : span? dialect c rest = some (inside, after)) :
    cutPieces dialect tokens depths piece (c :: rest) =
      cutPieces dialect tokens depths (inside.reverse ++ c :: piece) after := by
  rw [cutPieces]
  · split <;> simp_all
  · simp [hc]
  · simp [hc]

theorem cutPieces_step (htokens : AreRuns tokens) (hc : c ≠ '\\')
    (hspan : span? dialect c rest = none) (hno : ¬ Place.HasToken tokens ⟨depths, c :: rest⟩) :
    cutPieces dialect tokens depths piece (c :: rest) =
      cutPieces dialect tokens (depths.after c) (c :: piece) rest := by
  have hnone : topTokenAt? (depths.after c) tokens (c :: rest) = none := by
    rw [topTokenAt?_after htokens]
    exact (topTokenAt?_eq_none_iff htokens).2 hno
  rw [cutPieces]
  · split
    · simp_all
    · dsimp only
      split <;> simp_all
  · simp [hc]
  · simp [hc]

theorem cutPieces_token (htokens : AreRuns tokens) (htoken : token ∈ tokens)
    (piece after : List Char) :
    cutPieces dialect tokens {} piece (token ++ after) =
      ⟨piece.reverse :: (cutPieces dialect [token] {} [] after).pieces, some token⟩ := by
  cases hcs : token ++ after with
  | nil => exact absurd (List.append_eq_nil_iff.1 hcs).1 (htokens.ne_nil htoken)
  | cons c rest =>
      have hordinary : isOrdinary c = true :=
        htokens.isOrdinary_of_isPrefix htoken ⟨after, hcs⟩
      have hc : c ≠ '\\' := ne_backslash_of_isOrdinary hordinary
      have hspan : span? dialect c rest = none :=
        span?_of_not_isQuote (not_isQuote_of_isOrdinary hordinary)
      have hafter : Depths.after {} c = {} := Depths.after_of_isOrdinary hordinary {}
      have hfound : topTokenAt? {} tokens (c :: rest) = some (token, after) := by
        rw [← hcs]
        exact tokenAt?_append htokens htoken after
      rw [cutPieces]
      · split
        · simp_all
        · simp only [hafter]
          split <;> simp_all
      · simp [hc]
      · simp [hc]

/-! ## Cutting loses nothing -/

/-- Put together with the token that was found, the pieces are the text. -/
theorem intercalate_cutPieces (dialect : Dialect) (tokens : List (List Char)) (depths : Depths)
    (piece cs : List Char) :
    match (cutPieces dialect tokens depths piece cs).token with
    | none => (cutPieces dialect tokens depths piece cs).pieces = [piece.reverse ++ cs]
    | some token =>
      token ∈ tokens ∧ 2 ≤ (cutPieces dialect tokens depths piece cs).pieces.length ∧
        token.intercalate (cutPieces dialect tokens depths piece cs).pieces =
          piece.reverse ++ cs := by
  fun_induction cutPieces dialect tokens depths piece cs with
  | case1 => simp
  | case2 => simp
  | case3 tokens depths piece c rest ih => simpa using ih
  | case4 tokens depths piece c rest hlone hescape inside after hspan hlength ih =>
      have hrest : inside ++ after = rest := append_of_span? hspan
      simpa [← hrest] using ih
  | case5 tokens depths piece c rest hlone hescape hspan depths' token after hfound hlength more
      ih =>
      obtain ⟨htoken, -, happ⟩ := of_topTokenAt?_eq_some hfound
      have hmore : more.pieces ≠ [] ∧ token.intercalate more.pieces = after := by
        cases hnext : more.token with
        | none =>
            rw [hnext] at ih
            have hsingle : more.pieces = [[].reverse ++ after] := ih
            simp [hsingle]
        | some next =>
            rw [hnext] at ih
            obtain ⟨hsame, hlong, hjoin⟩ := ih
            rw [List.mem_singleton] at hsame
            rw [hsame] at hjoin
            have hne : more.pieces ≠ [] := by
              intro hnil
              rw [show (cutPieces dialect [token] depths' [] after).pieces = [] from hnil] at hlong
              simp at hlong
            exact ⟨hne, by simpa using hjoin⟩
      have hlong : 1 ≤ more.pieces.length := List.length_pos_of_ne_nil hmore.1
      refine ⟨htoken, by simpa using hlong, ?_⟩
      rw [List.intercalate_cons_of_ne_nil hmore.1, hmore.2, List.append_assoc, happ]
  | case6 tokens depths piece c rest hlone hescape hspan depths' hnone ih => simpa using ih

theorem mem_of_token_cutPieces
    (h : (cutPieces dialect tokens depths piece cs).token = some token) : token ∈ tokens := by
  have hjoin := intercalate_cutPieces dialect tokens depths piece cs
  rw [h] at hjoin
  exact hjoin.1

/-- No token is found exactly when the text holds none. -/
theorem token_cutPieces_eq_none_iff (htokens : AreRuns tokens) :
    (cutPieces dialect tokens depths piece cs).token = none ↔
      ¬ HoldsToken dialect tokens depths cs := by
  fun_induction cutPieces dialect tokens depths piece cs with
  | case1 tokens depths piece => simpa using not_holdsToken_nil htokens dialect depths
  | case2 tokens depths piece => simpa using not_holdsToken_backslash htokens dialect depths
  | case3 tokens depths piece c rest ih =>
      rw [holdsToken_escape_iff htokens]
      exact ih htokens
  | case4 tokens depths piece c rest hlone hescape inside after hspan hlength ih =>
      rw [holdsToken_span_iff htokens hspan]
      exact ih htokens
  | case5 tokens depths piece c rest hlone hescape hspan depths' token after hfound hlength more
      ih =>
      rw [topTokenAt?_after htokens] at hfound
      have hno : ¬ topTokenAt? depths tokens (c :: rest) = none := by simp [hfound]
      rw [topTokenAt?_eq_none_iff htokens, not_not] at hno
      simp [holdsToken_step_iff (ne_backslash_of_forall hlone hescape) hspan, hno]
  | case6 tokens depths piece c rest hlone hescape hspan depths' hnone ih =>
      rw [topTokenAt?_after htokens, topTokenAt?_eq_none_iff htokens] at hnone
      rw [holdsToken_step_iff (ne_backslash_of_forall hlone hescape) hspan, not_or]
      exact ⟨fun h => ⟨hnone, (ih htokens).1 h⟩, fun h => (ih htokens).2 h.2⟩

/-- The first piece holds none of the tokens, the others do not hold the one that
was found. -/
theorem exists_pieces_cutPieces (htokens : AreRuns tokens) (dialect : Dialect)
    (depths : Depths) (piece cs : List Char) :
    ∃ first more, (cutPieces dialect tokens depths piece cs).pieces =
        (piece.reverse ++ first) :: more ∧ first <+: cs ∧
      ¬ HoldsToken dialect tokens depths first ∧
      ∀ later ∈ more, ∃ token, (cutPieces dialect tokens depths piece cs).token = some token ∧
        ¬ HoldsToken dialect [token] {} later := by
  fun_induction cutPieces dialect tokens depths piece cs with
  | case1 tokens depths piece =>
      exact ⟨[], [], by simp, by simp, not_holdsToken_nil htokens dialect depths, by simp⟩
  | case2 tokens depths piece =>
      exact ⟨['\\'], [], by simp, by simp, not_holdsToken_backslash htokens dialect depths, by simp⟩
  | case3 tokens depths piece c rest ih =>
      obtain ⟨first, more, hpieces, hfirst, hno, hmore⟩ := ih htokens
      refine ⟨'\\' :: c :: first, more, by simp [hpieces], by simpa using hfirst, ?_, hmore⟩
      rwa [holdsToken_escape_iff htokens]
  | case4 tokens depths piece c rest hlone hescape inside after hspan hlength ih =>
      obtain ⟨first, more, hpieces, hfirst, hno, hmore⟩ := ih htokens
      refine ⟨c :: (inside ++ first), more, by simp [hpieces], ?_, ?_, hmore⟩
      · rw [← append_of_span? hspan]
        simpa using hfirst
      · rwa [holdsToken_span_iff htokens (span?_append hspan first)]
  | case5 tokens depths piece c rest hlone hescape hspan depths' token after hfound hlength more
      ih =>
      obtain ⟨htoken, htop, -⟩ := of_topTokenAt?_eq_some hfound
      obtain ⟨first, later, hpieces, -, hno, hmore⟩ := ih (htokens.singleton htoken)
      refine ⟨[], more.pieces, by simp, by simp, not_holdsToken_nil htokens dialect depths, ?_⟩
      intro piece hpiece
      rw [show more.pieces = first :: later by simpa using hpieces] at hpiece
      rcases List.mem_cons.1 hpiece with rfl | hlater
      · rw [htop] at hno
        exact ⟨token, rfl, hno⟩
      · obtain ⟨next, hnext, hpiece⟩ := hmore piece hlater
        have hsame : next = token := List.mem_singleton.1 (mem_of_token_cutPieces hnext)
        rw [hsame] at hpiece
        exact ⟨token, rfl, hpiece⟩
  | case6 tokens depths piece c rest hlone hescape hspan depths' hnone ih =>
      obtain ⟨first, more, hpieces, ⟨back, rfl⟩, hno, hmore⟩ := ih htokens
      refine ⟨c :: first, more, by simp [hpieces], by simp, ?_, hmore⟩
      have hc : c ≠ '\\' := ne_backslash_of_forall hlone hescape
      rw [holdsToken_step_iff hc (span?_eq_none_of_append hspan), not_or]
      refine ⟨fun htoken => ?_, hno⟩
      rw [topTokenAt?_after htokens, topTokenAt?_eq_none_iff htokens] at hnone
      exact hnone (htoken.append back)

/-! ## Joining fragments -/

/-- A token that stands at the seam of two texts stands in the first of them, unless
that text ends with the character it consists of. -/
theorem isPrefix_of_isPrefix_append {c d : Char} {n : Nat} {front back : List Char}
    (hfront : front ≠ []) (hlast : ∀ e ∈ front.getLast?, e ≠ d)
    (hstart : List.replicate (n + 1) c <+: front ++ d :: back) :
    List.replicate (n + 1) c <+: front := by
  rcases List.prefix_or_prefix_of_prefix hstart (List.prefix_append front (d :: back)) with
    hinside | ⟨more, hmore⟩
  · exact hinside
  · cases more with
    | nil =>
        rw [List.append_nil] at hmore
        rw [hmore]
    | cons e more =>
        exfalso
        have hall : ∀ x ∈ front ++ e :: more, x = c := by
          intro x hx
          rw [hmore] at hx
          exact List.eq_of_mem_replicate hx
        have hlastOfFront : front.getLast hfront = c :=
          hall _ (List.mem_append_left _ (List.getLast_mem hfront))
        have hed : e = d := by
          rw [← hmore, List.prefix_append_right_inj, List.cons_prefix_cons] at hstart
          exact hstart.1
        have hec : e = c := hall e (by simp)
        apply hlast (front.getLast hfront) (List.getLast?_eq_some_getLast hfront)
        rw [hlastOfFront, ← hec, hed]

/-- What follows a text does not add a token at a place inside the text. -/
theorem AreRuns.hasToken_of_append (h : AreRuns tokens) (htoken : token ∈ tokens)
    {front : List Char} (hfront : front ≠ []) (hlast : ∀ c ∈ front.getLast?, token.head? ≠ some c)
    (hstands : Place.HasToken tokens ⟨depths, front ++ (token ++ after)⟩) :
    Place.HasToken tokens ⟨depths, front⟩ := by
  obtain ⟨htop, other, hother, hstart⟩ := hstands
  obtain ⟨c, n, -, rfl⟩ := h.run other hother
  obtain ⟨d, m, -, rfl⟩ := h.run token htoken
  have hseam : ∀ e ∈ front.getLast?, e ≠ d := by
    rintro e he rfl
    exact hlast e he rfl
  rw [List.replicate_succ (n := m), List.cons_append] at hstart
  exact ⟨htop, _, hother, isPrefix_of_isPrefix_append hfront hseam hstart⟩

/-- A fragment that closes what it opens ends where the token behind it stands. -/
theorem cutPieces_append (htokens : AreRuns tokens) (htoken : token ∈ tokens)
    (hcloses : ClosesItself dialect depths cs) (hno : ¬ HoldsToken dialect tokens depths cs)
    (hlast : ∀ c ∈ cs.getLast?, token.head? ≠ some c) (piece after : List Char) :
    cutPieces dialect tokens depths piece (cs ++ (token ++ after)) =
      ⟨(piece.reverse ++ cs) :: (cutPieces dialect [token] {} [] after).pieces, some token⟩ := by
  fun_induction places dialect depths cs generalizing piece with
  | case1 depths =>
      have hdepths : depths = {} := by
        have hend := hcloses.2
        simp only [places, List.mem_singleton, Place.mk.injEq, and_true] at hend
        exact hend.symm
      rw [hdepths, List.nil_append, cutPieces_token htokens htoken, List.append_nil]
  | case2 depths =>
      have hend := hcloses.2
      simp [places] at hend
  | case3 depths c rest ih =>
      have hrest := (hcloses.of_places (places_escape dialect depths c rest) (by simp)).2
      rw [holdsToken_escape_iff htokens] at hno
      have hlastRest : ∀ d ∈ rest.getLast?, token.head? ≠ some d :=
        fun d hd => hlast d (List.mem_getLast?_cons (List.mem_getLast?_cons hd))
      rw [List.cons_append, List.cons_append, cutPieces_escape, ih hrest hno hlastRest]
      simp
  | case4 depths c rest hlone hescape inside after' hspan hlength ih =>
      have hc : c ≠ '\\' := ne_backslash_of_forall hlone hescape
      have hinside : inside ++ after' = rest := append_of_span? hspan
      have hrest := (hcloses.of_places (places_span hc hspan) (by simp)).2
      rw [holdsToken_span_iff htokens hspan] at hno
      have hlastRest : ∀ d ∈ after'.getLast?, token.head? ≠ some d := by
        intro d hd
        apply hlast d
        rw [← hinside, ← List.cons_append]
        exact List.mem_getLast?_append_of_mem_getLast? hd
      rw [← hinside, List.cons_append, List.append_assoc, cutPieces_span hc (span?_append hspan _),
        ih hrest hno hlastRest]
      simp
  | case5 depths c rest hlone hescape hspan ih =>
      have hc : c ≠ '\\' := ne_backslash_of_forall hlone hescape
      obtain ⟨hpaired, hrest⟩ := hcloses.of_places (places_step hc hspan) (by simp)
      have hstill : span? dialect c (rest ++ (token ++ after)) = none :=
        hpaired.staysLone (token ++ after) c (by simp) hspan
      rw [holdsToken_step_iff hc hspan, not_or] at hno
      have hseam : ¬ Place.HasToken tokens ⟨depths, c :: (rest ++ (token ++ after))⟩ :=
        fun hstands => hno.1 (htokens.hasToken_of_append htoken (by simp) hlast hstands)
      have hlastRest : ∀ d ∈ rest.getLast?, token.head? ≠ some d :=
        fun d hd => hlast d (List.mem_getLast?_cons hd)
      rw [List.cons_append, cutPieces_step htokens hc hstill hseam, ih hrest hno.2 hlastRest]
      simp

/-- A text without a token is one piece. -/
theorem cutPieces_of_not_holdsToken (htokens : AreRuns tokens)
    (hno : ¬ HoldsToken dialect tokens depths cs) (piece : List Char) :
    cutPieces dialect tokens depths piece cs = ⟨[piece.reverse ++ cs], none⟩ := by
  have hnone : (cutPieces dialect tokens depths piece cs).token = none :=
    (token_cutPieces_eq_none_iff htokens).2 hno
  have hjoin := intercalate_cutPieces dialect tokens depths piece cs
  cases hcut : cutPieces dialect tokens depths piece cs with
  | mk pieces token =>
      rw [hcut] at hnone hjoin
      obtain rfl : token = none := hnone
      exact congrArg (Pieces.mk · none) hjoin

/-- A fragment that can be joined with the token: it closes what it opens and does not
end with the character the token starts with. -/
def IsJoinable (dialect : Dialect) (token fragment : List Char) : Prop :=
  ClosesItself dialect {} fragment ∧ ∀ c ∈ fragment.getLast?, token.head? ≠ some c

instance (dialect : Dialect) (token fragment : List Char) :
    Decidable (IsJoinable dialect token fragment) :=
  @instDecidableAnd _ _ inferInstance (Option.decidableForallMem fragment.getLast?)

/-- Joined with a token, fragments that do not hold it are the pieces of the cut. -/
theorem pieces_cutPieces_intercalate (htoken : AreRuns [token]) {fragments : List (List Char)}
    (hne : fragments ≠ []) (hjoin : ∀ f ∈ fragments, IsJoinable dialect token f)
    (hno : ∀ f ∈ fragments, ¬ HoldsToken dialect [token] {} f) :
    (cutPieces dialect [token] {} [] (token.intercalate fragments)).pieces = fragments := by
  induction fragments with
  | nil => exact absurd rfl hne
  | cons first rest ih =>
      have hfirst : ¬ HoldsToken dialect [token] {} first := hno first List.mem_cons_self
      cases rest with
      | nil => simp [cutPieces_of_not_holdsToken htoken hfirst]
      | cons next rest =>
          obtain ⟨hcloses, hlast⟩ := hjoin first List.mem_cons_self
          have hrest := ih (by simp) (fun f hf => hjoin f (List.mem_cons_of_mem first hf))
            (fun f hf => hno f (List.mem_cons_of_mem first hf))
          rw [List.intercalate_cons_cons, List.append_assoc,
            cutPieces_append htoken List.mem_cons_self hcloses hfirst hlast, hrest]
          rfl

/-- Only the first fragment has to be free of the other tokens. -/
theorem cutPieces_intercalate (htokens : AreRuns tokens) (htoken : token ∈ tokens)
    {first : List Char} {rest : List (List Char)} (hne : rest ≠ [])
    (hjoin : ∀ f ∈ first :: rest, IsJoinable dialect token f)
    (hfirst : ¬ HoldsToken dialect tokens {} first)
    (hrest : ∀ f ∈ rest, ¬ HoldsToken dialect [token] {} f) :
    cutPieces dialect tokens {} [] (token.intercalate (first :: rest)) =
      ⟨first :: rest, some token⟩ := by
  obtain ⟨hcloses, hlast⟩ := hjoin first List.mem_cons_self
  rw [List.intercalate_cons_of_ne_nil hne, List.append_assoc,
    cutPieces_append htokens htoken hcloses hfirst hlast,
    pieces_cutPieces_intercalate (htokens.singleton htoken) hne
      (fun f hf => hjoin f (List.mem_cons_of_mem first hf)) hrest]
  rfl

end BookRules.Rule
