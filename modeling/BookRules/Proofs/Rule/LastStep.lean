import BookRules.Proofs.Css.Names
import BookRules.Proofs.Rule.Splitting

/-!
# The last step of a chain

A step that is written behind a chain, with its `@` in front, is one more fragment.  What is
written behind a text is read as it is read alone, as long as the text closes what it opens.  So
the text is cut where it is cut alone and the sign ends its last piece.  Blanks between the text
and the sign only make that piece longer, and pieces are trimmed.

This holds for a text that is cut at the sign already and also when the sign stands at its end,
since tokens of one character do not run into one another.
-/

namespace BookRules.Rule

variable {dialect : Dialect} {tokens : List (List Char)} {depths : Depths}
  {cs back : List Char}

/-! ## Tokens in a continued text -/

/-- What is still to be read is an end of the text. -/
theorem rest_isSuffix_of_mem_places {place : Place} (h : place ∈ places dialect depths cs) :
    place.rest <:+ cs := by
  fun_induction places dialect depths cs with
  | case1 => simp_all
  | case2 => simp_all
  | case3 depths c rest ih =>
      rcases List.mem_cons.1 h with rfl | hrest
      · exact List.suffix_rfl
      · exact (ih hrest).trans (List.suffix_append ['\\', c] rest)
  | case4 depths c rest hc hlong inside after hspan hlength ih =>
      rcases List.mem_cons.1 h with rfl | hafter
      · exact List.suffix_rfl
      · rw [← append_of_span? hspan]
        exact (ih hafter).trans (List.suffix_append (c :: inside) after)
  | case5 depths c rest hc hlong hspan ih =>
      rcases List.mem_cons.1 h with rfl | hrest
      · exact List.suffix_rfl
      · exact (ih hrest).trans (List.suffix_cons c rest)

/-- A text without a character of a token holds no token. -/
theorem AreRuns.not_holdsToken (h : AreRuns tokens)
    (hcs : ∀ c ∈ cs, ∀ token ∈ tokens, c ∉ token) : ¬ HoldsToken dialect tokens depths cs := by
  rintro ⟨place, hplace, -, token, htoken, hstart⟩
  obtain ⟨c, n, -, rfl⟩ := h.run token htoken
  have hmem : c ∈ cs := (rest_isSuffix_of_mem_places hplace).subset (hstart.subset (by simp))
  exact hcs c hmem _ htoken (by simp)

/-- No token reaches into a text that begins with a character of its own. -/
theorem hasToken_append_iff (hback : ∀ c ∈ back.head?, ∀ token ∈ tokens, c ∉ token) :
    Place.HasToken tokens ⟨depths, cs ++ back⟩ ↔ Place.HasToken tokens ⟨depths, cs⟩ := by
  cases back with
  | nil => rw [List.append_nil]
  | cons c more =>
      refine and_congr_right fun _ => exists_congr fun token => and_congr_right fun htoken => ?_
      exact Text.isPrefix_append_cons_iff (hback c (by simp) token htoken) more

/-- What holds no quote and no character of a token adds no token. -/
theorem AreRuns.not_holdsToken_append (h : AreRuns tokens)
    (hquotes : ∀ c ∈ back, isQuote c = false) (hsigns : ∀ c ∈ back, ∀ token ∈ tokens, c ∉ token)
    (hno : ¬ HoldsToken dialect tokens depths cs) :
    ¬ HoldsToken dialect tokens depths (cs ++ back) := by
  have hhead : ∀ c ∈ back.head?, ∀ token ∈ tokens, c ∉ token :=
    fun c hc => hsigns c (List.mem_of_mem_head? hc)
  fun_induction places dialect depths cs with
  | case1 => exact h.not_holdsToken hsigns
  | case2 =>
      apply h.not_holdsToken
      intro c hc token htoken hmem
      rcases List.mem_cons.1 hc with rfl | hlater
      · obtain ⟨d, n, hordinary, rfl⟩ := h.run token htoken
        exact ne_backslash_of_isOrdinary hordinary (List.eq_of_mem_replicate hmem).symm
      · exact hsigns c hlater token htoken hmem
  | case3 depths c rest ih =>
      rw [holdsToken_escape_iff h] at hno
      rw [List.cons_append, List.cons_append, holdsToken_escape_iff h]
      exact ih hno
  | case4 depths c rest hc hlong inside after hspan hlength ih =>
      rw [holdsToken_span_iff h hspan] at hno
      rw [← append_of_span? hspan, List.cons_append, List.append_assoc,
        holdsToken_span_iff h (span?_append hspan _)]
      exact ih hno
  | case5 depths c rest hc hlong hspan ih =>
      have hne : c ≠ '\\' := ne_backslash_of_forall hc hlong
      rw [holdsToken_step_iff hne hspan, not_or] at hno
      rw [List.cons_append, holdsToken_step_iff hne (span?_append_eq_none hspan hquotes), not_or,
        ← List.cons_append, hasToken_append_iff hhead]
      exact ⟨hno.1, ih hno.2⟩

/-! ## The pieces of a continued text -/

theorem AreRuns.not_mem_of_isBlank (h : AreRuns tokens) {c : Char} (hc : Text.isBlank c = true)
    {token : List Char} (htoken : token ∈ tokens) : c ∉ token := by
  intro hmem
  obtain ⟨d, n, hordinary, rfl⟩ := h.run token htoken
  rw [← List.eq_of_mem_replicate hmem] at hordinary
  simp [isOrdinary, hc] at hordinary

theorem pieces_append_blank_of_not_holdsToken (h : AreRuns tokens) {blank : List Char}
    (hblank : ∀ c ∈ blank, Text.isBlank c = true) (hno : ¬ HoldsToken dialect tokens depths cs)
    (piece : List Char) :
    (cutPieces dialect tokens depths piece (cs ++ blank)).pieces =
      [piece.reverse ++ cs ++ blank] := by
  have hlonger := h.not_holdsToken_append
    (fun c hc => not_isQuote_of_isBlank (hblank c hc))
    (fun c hc token htoken => h.not_mem_of_isBlank (hblank c hc) htoken) hno
  rw [cutPieces_of_not_holdsToken h hlonger, List.append_assoc]

/-- Blanks at the end of a text only make its last piece longer. -/
theorem map_trim_pieces_append_blank (h : AreRuns tokens) {blank : List Char}
    (hblank : ∀ c ∈ blank, Text.isBlank c = true) (piece : List Char) :
    (cutPieces dialect tokens depths piece (cs ++ blank)).pieces.map Text.trim =
      (cutPieces dialect tokens depths piece cs).pieces.map Text.trim := by
  have hquotes : ∀ c ∈ blank, isQuote c = false := fun c hc => not_isQuote_of_isBlank (hblank c hc)
  fun_induction cutPieces dialect tokens depths piece cs with
  | case1 tokens depths piece =>
      rw [pieces_append_blank_of_not_holdsToken h hblank (not_holdsToken_nil h dialect depths)]
      simp [Text.trim_append_blank hblank]
  | case2 tokens depths piece =>
      rw [pieces_append_blank_of_not_holdsToken h hblank
        (not_holdsToken_backslash h dialect depths)]
      simpa using Text.trim_append_blank hblank (piece.reverse ++ ['\\'])
  | case3 tokens depths piece c rest ih =>
      rw [List.cons_append, List.cons_append, cutPieces_escape]
      exact ih h
  | case4 tokens depths piece c rest hlone hescape inside after hspan hlength ih =>
      have hc : c ≠ '\\' := ne_backslash_of_forall hlone hescape
      rw [← append_of_span? hspan, List.cons_append, List.append_assoc,
        cutPieces_span hc (span?_append hspan _)]
      exact ih h
  | case5 tokens depths piece c rest hlone hescape hspan depths' token after hfound hlength more
      ih =>
      obtain ⟨htoken, hdepths, hstart⟩ := of_topTokenAt?_eq_some hfound
      rw [topTokenAt?_after h] at hfound
      obtain ⟨-, rfl, -⟩ := of_topTokenAt?_eq_some hfound
      have hrest := ih (h.singleton htoken)
      rw [hdepths] at hrest
      rw [← hstart, List.append_assoc, cutPieces_token h htoken, List.map_cons, List.map_cons, hrest,
        ← hdepths]
  | case6 tokens depths piece c rest hlone hescape hspan depths' hnone ih =>
      have hc : c ≠ '\\' := ne_backslash_of_forall hlone hescape
      rw [topTokenAt?_after h, topTokenAt?_eq_none_iff h] at hnone
      have hseam : ¬ Place.HasToken tokens ⟨depths, c :: (rest ++ blank)⟩ := by
        rw [← List.cons_append, hasToken_append_iff]
        · exact hnone
        · exact fun c hc token htoken =>
            h.not_mem_of_isBlank (hblank c (List.mem_of_mem_head? hc)) htoken
      rw [List.cons_append, cutPieces_step h hc (span?_append_eq_none hspan hquotes) hseam]
      exact ih h

theorem hasToken_sign_iff {sign c : Char} {rest : List Char} :
    Place.HasToken [[sign]] ⟨depths, c :: rest⟩ ↔ depths.isTop = true ∧ c = sign := by
  simp only [Place.HasToken, List.mem_singleton, exists_eq_left, List.cons_prefix_cons,
    List.nil_prefix, and_true]
  exact and_congr_right fun _ => eq_comm

theorem cutPieces_sign {sign : Char} (h : AreRuns [[sign]]) (piece after : List Char) :
    cutPieces dialect [[sign]] {} piece (sign :: after) =
      ⟨piece.reverse :: (cutPieces dialect [[sign]] {} [] after).pieces, some [sign]⟩ := by
  rw [← List.singleton_append]
  exact cutPieces_token h List.mem_cons_self piece after

/-- A text that closes what it opens is cut as it is cut alone, and a sign behind it ends its last
piece. -/
theorem cutPieces_append_sign {sign : Char} (h : AreRuns [[sign]])
    (hcloses : ClosesItself dialect depths cs) (piece after : List Char) :
    cutPieces dialect [[sign]] depths piece (cs ++ sign :: after) =
      ⟨(cutPieces dialect [[sign]] depths piece cs).pieces ++
        (cutPieces dialect [[sign]] {} [] after).pieces, some [sign]⟩ := by
  have hordinary : isOrdinary sign = true :=
    h.isOrdinary_of_isPrefix List.mem_cons_self List.prefix_rfl
  have hquote : isQuote sign = false := not_isQuote_of_isOrdinary hordinary
  fun_induction places dialect depths cs generalizing piece with
  | case1 depths =>
      have hdepths : depths = {} := by
        have hend := hcloses.2
        simp only [places, List.mem_singleton, Place.mk.injEq, and_true] at hend
        exact hend.symm
      rw [hdepths, List.nil_append, cutPieces_sign h]
      simp [cutPieces]
  | case2 depths =>
      have hend := hcloses.2
      simp [places] at hend
  | case3 depths c rest ih =>
      have hrest := (hcloses.of_places (places_escape dialect depths c rest) (by simp)).2
      rw [List.cons_append, List.cons_append, cutPieces_escape, cutPieces_escape, ih hrest]
  | case4 depths c rest hlone hescape inside after' hspan hlength ih =>
      have hc : c ≠ '\\' := ne_backslash_of_forall hlone hescape
      have hinside : inside ++ after' = rest := append_of_span? hspan
      have hrest := (hcloses.of_places (places_span hc hspan) (by simp)).2
      rw [cutPieces_span hc hspan, ← ih hrest, ← hinside, List.cons_append, List.append_assoc,
        cutPieces_span hc (span?_append hspan _)]
  | case5 depths c rest hlone hescape hspan ih =>
      have hc : c ≠ '\\' := ne_backslash_of_forall hlone hescape
      obtain ⟨hpaired, hrest⟩ := hcloses.of_places (places_step hc hspan) (by simp)
      have hstill : span? dialect c (rest ++ sign :: after) = none :=
        hpaired.staysLone (sign :: after) c (by simp) hspan
      by_cases hstands : Place.HasToken [[sign]] ⟨depths, c :: rest⟩
      · obtain ⟨htop, rfl⟩ := hasToken_sign_iff.1 hstands
        obtain rfl : depths = {} := Depths.eq_of_isTop htop
        have hnext := ih hrest []
        rw [Depths.after_of_isOrdinary hordinary] at hnext
        rw [List.cons_append, cutPieces_sign h, cutPieces_sign h, hnext, List.cons_append]
      · have hseam : ¬ Place.HasToken [[sign]] ⟨depths, c :: (rest ++ sign :: after)⟩ :=
          fun hseam => hstands (hasToken_sign_iff.2 (hasToken_sign_iff.1 hseam))
        rw [List.cons_append, cutPieces_step h hc hstill hseam, cutPieces_step h hc hspan hstands,
          ih hrest]

/-! ## Steps and words -/

/-- A character that means nothing in a rule: it is no blank, no backslash, quote or bracket, and
no part of a separator. -/
def IsWordSign (c : Char) : Prop :=
  isOrdinary c = true ∧ ∀ name ∈ separators, c ∉ name.toList

instance (c : Char) : Decidable (IsWordSign c) :=
  inferInstanceAs (Decidable (_ ∧ _))

/-- Letters, digits, the hyphen and the underscore mean nothing in a rule. -/
theorem isWordSign_of_isAlphanum {c : Char} (h : c.isAlphanum = true ∨ c = '-' ∨ c = '_') :
    IsWordSign c := by
  rcases h with halphanum | rfl | rfl
  · have hcode : 48 ≤ c.toNat ∧ c.toNat ≤ 122 := by
      rcases Bool.or_eq_true_iff.1 halphanum with hletter | hdigit
      · have hletter := Css.isAlpha_iff.1 hletter
        omega
      · have hdigit : 48 ≤ c.toNat ∧ c.toNat ≤ 57 := Char.isDigit_iff_toNat.1 hdigit
        omega
    have hblank : Text.isBlank c = false := by
      simp only [Text.isBlank, Bool.or_eq_false_iff, Bool.and_eq_false_iff, decide_eq_false_iff_not,
        beq_eq_false_iff_ne]
      omega
    have hne : ∀ sign : Char, sign.isAlphanum = false → c ≠ sign := by
      rintro _ hsign rfl
      exact absurd halphanum (by simp [hsign])
    constructor
    · simp [isOrdinary, hblank, hne]
    · simp [separators, Combinator.tokens, hne]
  · decide
  · decide

/-- A word for what to extract. -/
def IsWord (word : String) : Prop :=
  word ≠ "" ∧ ∀ c ∈ word.toList, IsWordSign c

instance (word : String) : Decidable (IsWord word) :=
  inferInstanceAs (Decidable (_ ∧ _))

variable {rule word : String}

theorem IsWord.trim_eq (h : IsWord word) : Text.trim word.toList = word.toList := by
  apply Text.trim_eq_self_of_forall
  intro c hc
  have hordinary := (h.2 c hc).1
  simp only [isOrdinary, Bool.and_eq_true, Bool.not_eq_true'] at hordinary
  exact hordinary.1

theorem IsWord.trimmed_eq (h : IsWord word) : Text.trimmed word = word := by
  rw [Text.trimmed, h.trim_eq, String.ofList_toList]

/-- A rule with a word behind it is trimmed in front only. -/
theorem IsWord.trim_append_word (h : IsWord word) (rule : String) :
    Text.trim (rule ++ "@" ++ word).toList =
      Text.trimStart rule.toList ++ '@' :: word.toList := by
  have hback : Text.trim ('@' :: word.toList) = '@' :: word.toList := by
    rw [Text.trim_cons (by decide), Text.trimEnd_eq_self_of_trim h.trim_eq]
  rw [String.toList_append, String.toList_append, List.append_assoc]
  exact Text.trim_append hback (by simp) rule.toList

theorem IsWord.not_isQuote (h : IsWord word) : ∀ c ∈ word.toList, isQuote c = false :=
  fun c hc => not_isQuote_of_isOrdinary (h.2 c hc).1

theorem IsWord.at_not_mem (h : IsWord word) : '@' ∉ word.toList :=
  fun hmem => (h.2 '@' hmem).2 "@" (by simp [separators]) (by simp)

/-- With a word behind it an operand is still one. -/
theorem IsLastOperand.append_word (h : IsLastOperand dialect rule) (hword : IsWord word) :
    IsLastOperand dialect (rule ++ "@" ++ word) where
  nonblank := by
    have hmem : '@' ∈ Text.trim (rule ++ "@" ++ word).toList :=
      Text.mem_trim (by simp) (by decide)
    exact List.ne_nil_of_mem hmem
  free := by
    have hruns : AreRuns (Combinator.tokens.map String.toList) :=
      areRuns_separators.mono (List.map_subset String.toList combinatorTokens_subset_separators)
    have hquotes : ∀ c ∈ '@' :: word.toList, isQuote c = false := by
      simpa using ⟨rfl, hword.not_isQuote⟩
    have hsigns : ∀ c ∈ '@' :: word.toList,
        ∀ token ∈ Combinator.tokens.map String.toList, c ∉ token := by
      intro c hc token htoken
      obtain ⟨name, hname, rfl⟩ := List.mem_map.1 htoken
      rcases List.mem_cons.1 hc with rfl | hlater
      · revert name
        decide
      · exact (hword.2 c hlater).2 name (combinatorTokens_subset_separators hname)
    rw [String.toList_append, String.toList_append, List.append_assoc]
    exact hruns.not_holdsToken_append hquotes hsigns h.free

/-- The fragments are what the pieces come down to, whether or not a token was found. -/
theorem fragments_split (dialect : Dialect) (names : List String) (rule : String) :
    (split dialect names rule).fragments =
      fragmentsOf ((cutPieces dialect (names.map String.toList) {} []
        (Text.trim rule.toList)).pieces.map String.ofList) := by
  have hjoin := intercalate_cutPieces dialect (names.map String.toList) {} []
    (Text.trim rule.toList)
  cases hcut : cutPieces dialect (names.map String.toList) {} [] (Text.trim rule.toList) with
  | mk pieces token =>
      cases token with
      | none =>
          rw [hcut] at hjoin
          obtain rfl : pieces = [Text.trim rule.toList] := hjoin
          have hsplit : (split dialect names rule).fragments = [Text.trimmed rule] := by
            simp [split, hcut, Text.trimmed]
          have hpieces : [Text.trim rule.toList].map String.ofList = [Text.trimmed rule] := rfl
          rw [hsplit, hpieces]
          by_cases hblank : Text.trimmed rule = ""
          · rw [hblank]
            rfl
          · refine (fragmentsOf_eq_self (by simp) ?_).symm
            simpa using ⟨Text.trimmed_trimmed rule, hblank⟩
      | some token => rw [split_of_cutPieces hcut]

theorem fragmentsOf_congr {pieces more : List String}
    (h : pieces.map Text.trimmed = more.map Text.trimmed) : fragmentsOf pieces = fragmentsOf more := by
  unfold fragmentsOf
  rw [h]

/-- Behind a fragment that is not empty another one is one more. -/
theorem fragmentsOf_concat {pieces : List String} {last : String}
    (hlast : Text.trimmed last = last) (hne : last ≠ "")
    (hsome : ∃ fragment ∈ fragmentsOf pieces, fragment ≠ "") :
    fragmentsOf (pieces ++ [last]) = fragmentsOf pieces ++ [last] := by
  unfold fragmentsOf at hsome ⊢
  cases hfilter : (pieces.map Text.trimmed).filter (· ≠ "") with
  | nil =>
      rw [hfilter] at hsome
      simp at hsome
  | cons first rest =>
      have hlonger : ((pieces ++ [last]).map Text.trimmed).filter (· ≠ "") =
          first :: rest ++ [last] := by
        rw [List.map_append, List.filter_append, hfilter]
        simp [hlast, hne]
      rw [hlonger]
      rfl

/-- A word behind a rule with a step is one more step. -/
theorem fragments_split_append_word (hword : IsWord word)
    (hcloses : ClosesItself dialect {} rule.toList)
    (hstep : ∃ step ∈ (split dialect ["@"] rule).fragments, step ≠ "") :
    (split dialect ["@"] (rule ++ "@" ++ word)).fragments =
      (split dialect ["@"] rule).fragments ++ [word] := by
  have hsign : ['@'] ∈ separators.map String.toList := by decide
  have hruns : AreRuns [['@']] := areRuns_separators.singleton hsign
  have hsigns : ∀ c ∈ word.toList, ∀ token ∈ [['@']], c ∉ token := by
    rintro c hc token htoken hmem
    obtain rfl : token = ['@'] := List.mem_singleton.1 htoken
    obtain rfl : c = '@' := List.mem_singleton.1 hmem
    exact hword.at_not_mem hc
  have hcut : (cutPieces dialect [['@']] {} [] (Text.trim (rule ++ "@" ++ word).toList)).pieces =
      (cutPieces dialect [['@']] {} [] (Text.trimStart rule.toList)).pieces ++ [word.toList] := by
    rw [hword.trim_append_word, cutPieces_append_sign hruns hcloses.trimStart,
      cutPieces_of_not_holdsToken hruns (hruns.not_holdsToken hsigns)]
    rfl
  have hblank : (cutPieces dialect [['@']] {} [] (Text.trimStart rule.toList)).pieces.map Text.trim =
      (cutPieces dialect [['@']] {} [] (Text.trim rule.toList)).pieces.map Text.trim := by
    obtain ⟨blank, hblank, hstart⟩ := Text.exists_trimEnd_append_blank (Text.trimStart rule.toList)
    conv_lhs => rw [← hstart]
    exact map_trim_pieces_append_blank hruns hblank []
  have hsame : fragmentsOf ((cutPieces dialect [['@']] {} []
      (Text.trimStart rule.toList)).pieces.map String.ofList) =
        (split dialect ["@"] rule).fragments := by
    rw [fragments_split]
    apply fragmentsOf_congr
    simpa [Text.trimmed, Function.comp_def] using congrArg (List.map String.ofList) hblank
  rw [fragments_split]
  change fragmentsOf ((cutPieces dialect [['@']] {} []
    (Text.trim (rule ++ "@" ++ word).toList)).pieces.map String.ofList) = _
  rw [← hsame] at hstep ⊢
  rw [hcut, List.map_append, List.map_singleton, String.ofList_toList,
    fragmentsOf_concat hword.trimmed_eq hword.1 hstep]

end BookRules.Rule
