import BookRules.Proofs.Text.Occurrences
import BookRules.Proofs.Text.Trimming
import BookRules.Rule.Fragments

/-!
# The places of a rule

Someone who reads a rule from its front comes from place to place: an escape and
a quoted span are passed in one step, any other character on its own, and at every
place some brackets are open.  A token at a place without open brackets is a token
at top level, and a text closes what it opens when its quotes are all paired and
its last place has no open bracket and nothing to read.

A text that is continued keeps its places, with more to be read at each of them,
provided that none of its lone quotes finds a partner in what is added.
-/

namespace BookRules.Rule

/-! ## Quoted spans

Whether a quote opens a span is decided by what follows it, so a text that is
continued can turn a lone quote into an opening one.  It cannot do more: a span
that closes inside the text is the same span whatever comes behind it, and only
another quote of the same kind closes a lone one.
-/

section Quotes

variable {dialect : Dialect} {quote c : Char} {cs inside after : List Char}

/-- A quoted span is the same whatever follows it. -/
theorem quoted?_append (h : quoted? dialect quote cs = some (inside, after)) (back : List Char) :
    quoted? dialect quote (inside ++ back) = some (inside, back) := by
  fun_induction quoted? dialect quote cs generalizing inside after with
  | case1 => simp at h
  | case2 => simp at h
  | case3 c hescape hquote =>
      simp only [Option.some.injEq, Prod.mk.injEq] at h
      obtain ⟨rfl, rfl⟩ := h
      cases back <;> simp_all [quoted?]
  | case4 => simp at h
  | case5 c d rest hescape ih =>
      obtain ⟨⟨i, a⟩, hrest, heq⟩ := Option.map_eq_some_iff.1 h
      simp only [Prod.mk.injEq] at heq
      obtain ⟨rfl, rfl⟩ := heq
      simp [quoted?, hescape, ih hrest]
  | case6 c d rest hescape hquote =>
      simp only [Option.some.injEq, Prod.mk.injEq] at h
      obtain ⟨rfl, rfl⟩ := h
      cases back <;> simp_all [quoted?]
  | case7 c d rest hescape hquote ih =>
      obtain ⟨⟨i, a⟩, hrest, heq⟩ := Option.map_eq_some_iff.1 h
      simp only [Prod.mk.injEq] at heq
      obtain ⟨rfl, rfl⟩ := heq
      have hback := ih hrest
      cases hi : i ++ back with
      | nil =>
          rw [hi] at hback
          simp [quoted?] at hback
      | cons e more =>
          rw [hi] at hback
          simp [quoted?, hescape, hquote, hi, hback]

/-- A quoted span ends in its closing quote. -/
theorem getLast?_of_quoted? (h : quoted? dialect quote cs = some (inside, after)) :
    inside.getLast? = some quote := by
  fun_induction quoted? dialect quote cs generalizing inside after with
  | case1 => simp at h
  | case2 => simp at h
  | case3 c hescape hquote =>
      simp only [Option.some.injEq, Prod.mk.injEq] at h
      obtain ⟨rfl, rfl⟩ := h
      simpa using hquote
  | case4 => simp at h
  | case5 c d rest hescape ih =>
      obtain ⟨⟨i, a⟩, hrest, heq⟩ := Option.map_eq_some_iff.1 h
      simp only [Prod.mk.injEq] at heq
      obtain ⟨rfl, rfl⟩ := heq
      have hlast := ih hrest
      simp [List.getLast?_cons, hlast]
  | case6 c d rest hescape hquote =>
      simp only [Option.some.injEq, Prod.mk.injEq] at h
      obtain ⟨rfl, rfl⟩ := h
      simpa using hquote
  | case7 c d rest hescape hquote ih =>
      obtain ⟨⟨i, a⟩, hrest, heq⟩ := Option.map_eq_some_iff.1 h
      simp only [Prod.mk.injEq] at heq
      obtain ⟨rfl, rfl⟩ := heq
      have hlast := ih hrest
      simp [List.getLast?_cons, hlast]

/-- A span that a character opens, and what follows it, make up the rest. -/
theorem append_of_span? (h : span? dialect c cs = some (inside, after)) : inside ++ after = cs := by
  unfold span? at h
  split at h
  · exact append_of_quoted? h
  · simp at h

/-- Only quotes open spans. -/
theorem isQuote_of_span? (h : span? dialect c cs = some (inside, after)) : isQuote c = true := by
  by_contra hquote
  simp [span?, hquote] at h

theorem span?_of_not_isQuote (h : isQuote c = false) : span? dialect c cs = none := by
  simp [span?, h]

/-- A span is the same whatever follows it. -/
theorem span?_append (h : span? dialect c cs = some (inside, after)) (back : List Char) :
    span? dialect c (inside ++ back) = some (inside, back) := by
  have hquote : isQuote c = true := isQuote_of_span? h
  simp only [span?, hquote, if_true] at h ⊢
  exact quoted?_append h back

/-- A lone quote of a text is lone in every front of that text. -/
theorem span?_eq_none_of_append {back : List Char} (h : span? dialect c (cs ++ back) = none) :
    span? dialect c cs = none := by
  cases hspan : span? dialect c cs with
  | none => rfl
  | some found =>
      obtain ⟨inside, after⟩ := found
      have happ : span? dialect c (inside ++ (after ++ back)) = some (inside, after ++ back) :=
        span?_append hspan (after ++ back)
      rw [← List.append_assoc, append_of_span? hspan, h] at happ
      simp at happ

/-- A quote that opens a span in a longer text does so in the text itself, or
its partner lies in what was added. -/
theorem span?_ne_none_or_mem_of_append {back : List Char}
    (h : span? dialect c (cs ++ back) = some (inside, after)) :
    span? dialect c cs ≠ none ∨ c ∈ back := by
  have hquote : isQuote c = true := isQuote_of_span? h
  have hlast : inside.getLast? = some c := by
    simp only [span?, hquote, if_true] at h
    exact getLast?_of_quoted? h
  have happ : inside ++ after = cs ++ back := append_of_span? h
  rcases List.append_eq_append_iff.1 happ with ⟨more, hcs, -⟩ | ⟨more, hinside, hback⟩
  · left
    rw [hcs, span?_append h more]
    simp
  · by_cases hmore : more = []
    · left
      rw [hmore, List.append_nil] at hinside
      rw [← hinside, ← List.append_nil inside, span?_append h []]
      simp
    · right
      rw [hinside, List.getLast?_append_of_ne_nil cs hmore] at hlast
      rw [hback]
      exact List.mem_append_left after (List.mem_of_getLast? hlast)

/-- A lone quote stays lone when no quote follows. -/
theorem span?_append_eq_none {back : List Char} (h : span? dialect c cs = none)
    (hback : ∀ d ∈ back, isQuote d = false) : span? dialect c (cs ++ back) = none := by
  cases hspan : span? dialect c (cs ++ back) with
  | none => rfl
  | some found =>
      exfalso
      rcases span?_ne_none_or_mem_of_append hspan with hcs | hmem
      · exact hcs h
      · have hquote : isQuote c = true := isQuote_of_span? hspan
        rw [hback c hmem] at hquote
        simp at hquote

end Quotes

/-! ## Places -/

/-- A place that a reader of a rule comes to. -/
structure Place where
  /-- The brackets that are open. -/
  depths : Depths
  /-- What is still to be read. -/
  rest : List Char
  deriving DecidableEq, Repr

/-- The places of a text, read from `depths` on. -/
def places (dialect : Dialect) (depths : Depths) (cs : List Char) : List Place :=
  match cs with
  | [] => [⟨depths, []⟩]
  | ['\\'] => [⟨depths, ['\\']⟩]
  | '\\' :: c :: rest => ⟨depths, '\\' :: c :: rest⟩ :: places dialect depths rest
  | c :: rest =>
    match h : span? dialect c rest with
    | some (_, after) =>
      have := length_of_span? h
      ⟨depths, c :: rest⟩ :: places dialect depths after
    | none => ⟨depths, c :: rest⟩ :: places dialect (depths.after c) rest
  termination_by cs.length
  decreasing_by all_goals (simp only [List.length_cons] at *; omega)

namespace Place

/-- One of the tokens stands here, outside of all brackets. -/
def HasToken (tokens : List (List Char)) (place : Place) : Prop :=
  place.depths.isTop = true ∧ ∃ token ∈ tokens, token <+: place.rest

/-- A quote that stands here has its partner. -/
def PairsQuote (dialect : Dialect) (place : Place) : Prop :=
  ∀ c ∈ place.rest.head?, isQuote c = true → (span? dialect c place.rest.tail).isSome = true

instance (tokens : List (List Char)) (place : Place) : Decidable (place.HasToken tokens) :=
  inferInstanceAs (Decidable (_ ∧ _))

instance (dialect : Dialect) (place : Place) : Decidable (place.PairsQuote dialect) :=
  Option.decidableForallMem place.rest.head?

end Place

/-- One of the tokens stands at top level: outside of escapes, quotes and
brackets. -/
def HoldsToken (dialect : Dialect) (tokens : List (List Char)) (depths : Depths)
    (cs : List Char) : Prop :=
  ∃ place ∈ places dialect depths cs, place.HasToken tokens

/-- The text closes what it opens: its quotes, its brackets and its last escape. -/
def ClosesItself (dialect : Dialect) (depths : Depths) (cs : List Char) : Prop :=
  (∀ place ∈ places dialect depths cs, place.PairsQuote dialect) ∧
    ⟨{}, []⟩ ∈ places dialect depths cs

instance (dialect : Dialect) (tokens : List (List Char)) (depths : Depths) (cs : List Char) :
    Decidable (HoldsToken dialect tokens depths cs) :=
  inferInstanceAs (Decidable (∃ place ∈ places dialect depths cs, place.HasToken tokens))

instance (dialect : Dialect) (depths : Depths) (cs : List Char) :
    Decidable (ClosesItself dialect depths cs) :=
  inferInstanceAs (Decidable (_ ∧ _))

/-! ## Steps of a reader -/

variable {dialect : Dialect} {tokens : List (List Char)} {depths : Depths} {c : Char}
  {rest inside after : List Char}

theorem places_escape (dialect : Dialect) (depths : Depths) (c : Char) (rest : List Char) :
    places dialect depths ('\\' :: c :: rest) =
      ⟨depths, '\\' :: c :: rest⟩ :: places dialect depths rest := by
  rw [places]

theorem places_span (hc : c ≠ '\\') (hspan : span? dialect c rest = some (inside, after)) :
    places dialect depths (c :: rest) = ⟨depths, c :: rest⟩ :: places dialect depths after := by
  rw [places]
  · split
    · simp_all
    · simp_all
  · simp [hc]
  · simp [hc]

theorem places_step (hc : c ≠ '\\') (hspan : span? dialect c rest = none) :
    places dialect depths (c :: rest) =
      ⟨depths, c :: rest⟩ :: places dialect (depths.after c) rest := by
  rw [places]
  · split
    · simp_all
    · simp_all
  · simp [hc]
  · simp [hc]

theorem mem_places_self (dialect : Dialect) (depths : Depths) (cs : List Char) :
    ⟨depths, cs⟩ ∈ places dialect depths cs := by
  fun_cases places dialect depths cs <;> simp

theorem ne_backslash_of_forall (hlone : c = '\\' → rest = [] → False)
    (hescape : ∀ d more, c = '\\' → rest = d :: more → False) : c ≠ '\\' := by
  intro hc
  cases rest with
  | nil => exact hlone hc rfl
  | cons d more => exact hescape d more hc rfl

theorem ne_backslash_of_isQuote (h : isQuote c = true) : c ≠ '\\' := by
  rintro rfl
  simp [isQuote] at h

/-- A character that is neither a blank, nor a backslash, a quote or a bracket. -/
def isOrdinary (c : Char) : Bool :=
  !Text.isBlank c && !(['\\', '\'', '"', '[', ']', '(', ')'].contains c)

theorem ne_backslash_of_isOrdinary (h : isOrdinary c = true) : c ≠ '\\' := by
  rintro rfl
  simp [isOrdinary] at h

theorem not_isQuote_of_isOrdinary (h : isOrdinary c = true) : isQuote c = false := by
  simp only [isOrdinary, List.contains_cons, Bool.and_eq_true, Bool.not_eq_true',
    Bool.or_eq_false_iff, beq_eq_false_iff_ne] at h
  simp [isQuote, h]

theorem isOrdinary_eq_false_of_isQuote (h : isQuote c = true) : isOrdinary c = false := by
  by_contra hc
  rw [Bool.not_eq_false] at hc
  rw [not_isQuote_of_isOrdinary hc] at h
  simp at h

theorem Depths.after_of_isOrdinary (h : isOrdinary c = true) (depths : Depths) :
    depths.after c = depths := by
  simp only [isOrdinary, List.contains_cons, Bool.and_eq_true, Bool.not_eq_true',
    Bool.or_eq_false_iff, beq_eq_false_iff_ne] at h
  simp [Depths.after, h]

theorem not_isQuote_of_isBlank (h : Text.isBlank c = true) : isQuote c = false := by
  by_contra hquote
  simp only [isQuote, Bool.not_eq_false, Bool.or_eq_true, beq_iff_eq] at hquote
  rcases hquote with rfl | rfl <;> simp [Text.isBlank] at h

/-- A blank is passed without a change of the brackets. -/
theorem places_blank (hblank : Text.isBlank c = true) (depths : Depths) (cs : List Char) :
    places dialect depths (c :: cs) = ⟨depths, c :: cs⟩ :: places dialect depths cs := by
  have hslash : c ≠ '\\' := by
    rintro rfl
    simp [Text.isBlank] at hblank
  have hbracket : ¬(c = '[' ∨ c = ']' ∨ c = '(' ∨ c = ')') := by
    rintro (rfl | rfl | rfl | rfl) <;> simp [Text.isBlank] at hblank
  have hafter : depths.after c = depths := by
    simp only [not_or] at hbracket
    simp [Depths.after, hbracket]
  rw [places_step hslash (span?_of_not_isQuote (not_isQuote_of_isBlank hblank)), hafter]

/-- Blanks in front of a text are passed without a change of the brackets. -/
theorem mem_places_blank_append {blank cs : List Char}
    (hblank : ∀ c ∈ blank, Text.isBlank c = true) {place : Place}
    (hplace : place ∈ places dialect depths cs) :
    place ∈ places dialect depths (blank ++ cs) := by
  induction blank with
  | nil => exact hplace
  | cons c blank ih =>
      rw [List.cons_append, places_blank (hblank c (by simp))]
      exact List.mem_cons_of_mem _ (ih fun d hd => hblank d (List.mem_cons_of_mem c hd))

/-- A text closes what it opens from its second place on. -/
theorem ClosesItself.of_places {cs : List Char} {place : Place} {depths' : Depths}
    (h : ClosesItself dialect depths cs)
    (hplaces : places dialect depths cs = place :: places dialect depths' rest)
    (hrest : place.rest ≠ []) : place.PairsQuote dialect ∧ ClosesItself dialect depths' rest := by
  obtain ⟨hpaired, hend⟩ := h
  rw [hplaces] at hpaired hend
  refine ⟨hpaired place List.mem_cons_self,
    fun p hp => hpaired p (List.mem_cons_of_mem place hp), ?_⟩
  rcases List.mem_cons.1 hend with rfl | hmem
  · exact absurd rfl hrest
  · exact hmem

/-! ## Texts that are continued -/

/-- A quote that is lone here does not find its partner in what is added. -/
def Place.StaysLone (dialect : Dialect) (back : List Char) (place : Place) : Prop :=
  ∀ c ∈ place.rest.head?, span? dialect c place.rest.tail = none →
    span? dialect c (place.rest.tail ++ back) = none

theorem Place.PairsQuote.staysLone {place : Place} (h : place.PairsQuote dialect)
    (back : List Char) : place.StaysLone dialect back := by
  intro c hc hlone
  cases hquote : isQuote c with
  | true =>
      have hpaired := h c hc hquote
      rw [hlone] at hpaired
      simp at hpaired
  | false => exact span?_of_not_isQuote hquote

theorem Place.staysLone_of_forall_not_isQuote {back : List Char}
    (h : ∀ c ∈ back, isQuote c = false) (place : Place) : place.StaysLone dialect back :=
  fun _ _ hlone => span?_append_eq_none hlone h

/-- The places of a text are places of the continued text. -/
theorem mem_places_append {cs back : List Char}
    (hlone : ∀ place ∈ places dialect depths cs, place.StaysLone dialect back) {place : Place}
    (hplace : place ∈ places dialect depths cs) :
    ⟨place.depths, place.rest ++ back⟩ ∈ places dialect depths (cs ++ back) := by
  fun_induction places dialect depths cs with
  | case1 =>
      rw [List.mem_singleton] at hplace
      rw [hplace]
      exact mem_places_self dialect _ _
  | case2 =>
      rw [List.mem_singleton] at hplace
      rw [hplace]
      exact mem_places_self dialect _ _
  | case3 depths c rest ih =>
      rw [List.cons_append, List.cons_append, places_escape]
      rcases List.mem_cons.1 hplace with rfl | hrest
      · exact List.mem_cons_self
      · exact List.mem_cons_of_mem _
          (ih (fun p hp => hlone p (List.mem_cons_of_mem _ hp)) hrest)
  | case4 depths c rest hc hlong inside after hspan hlength ih =>
      have hne : c ≠ '\\' := ne_backslash_of_isQuote (isQuote_of_span? hspan)
      have hrest : inside ++ after = rest := append_of_span? hspan
      rw [List.cons_append, ← hrest, List.append_assoc, places_span hne (span?_append hspan _)]
      rcases List.mem_cons.1 hplace with rfl | hafter
      · rw [← hrest]
        simp
      · exact List.mem_cons_of_mem _
          (ih (fun p hp => hlone p (List.mem_cons_of_mem _ hp)) hafter)
  | case5 depths c rest hc hlong hspan ih =>
      have hne : c ≠ '\\' := ne_backslash_of_forall hc hlong
      have hstill : span? dialect c (rest ++ back) = none :=
        hlone _ List.mem_cons_self c (by simp) hspan
      rw [List.cons_append, places_step hne hstill]
      rcases List.mem_cons.1 hplace with rfl | hrest
      · exact List.mem_cons_self
      · exact List.mem_cons_of_mem _
          (ih (fun p hp => hlone p (List.mem_cons_of_mem _ hp)) hrest)

/-- What is added does not take a token away. -/
theorem Place.HasToken.append {place : Place} (h : place.HasToken tokens) (back : List Char) :
    Place.HasToken tokens ⟨place.depths, place.rest ++ back⟩ := by
  obtain ⟨htop, token, htoken, hstart⟩ := h
  exact ⟨htop, token, htoken, hstart.trans (List.prefix_append place.rest back)⟩

theorem HoldsToken.mono {cs : List Char} {more : List (List Char)}
    (h : HoldsToken dialect tokens depths cs) (hsub : tokens ⊆ more) :
    HoldsToken dialect more depths cs := by
  obtain ⟨place, hplace, htop, token, htoken, hstart⟩ := h
  exact ⟨place, hplace, htop, token, hsub htoken, hstart⟩

/-- A token stays where it is when blanks come in front. -/
theorem HoldsToken.of_trimStart {cs : List Char}
    (h : HoldsToken dialect tokens depths (Text.trimStart cs)) :
    HoldsToken dialect tokens depths cs := by
  obtain ⟨place, hplace, htoken⟩ := h
  obtain ⟨blank, hblank, hcs⟩ := Text.exists_blank_append_trimStart cs
  refine ⟨place, ?_, htoken⟩
  rw [← hcs]
  exact mem_places_blank_append hblank hplace

/-- A token stays where it is when blanks follow. -/
theorem HoldsToken.of_trimEnd {cs : List Char}
    (h : HoldsToken dialect tokens depths (Text.trimEnd cs)) :
    HoldsToken dialect tokens depths cs := by
  obtain ⟨place, hplace, htoken⟩ := h
  obtain ⟨blank, hblank, hcs⟩ := Text.exists_trimEnd_append_blank cs
  have hquotes : ∀ c ∈ blank, isQuote c = false :=
    fun c hc => not_isQuote_of_isBlank (hblank c hc)
  refine ⟨⟨place.depths, place.rest ++ blank⟩, ?_, htoken.append blank⟩
  rw [← hcs]
  exact mem_places_append (fun p _ => p.staysLone_of_forall_not_isQuote hquotes) hplace

theorem HoldsToken.of_trim {cs : List Char} (h : HoldsToken dialect tokens depths (Text.trim cs)) :
    HoldsToken dialect tokens depths cs :=
  h.of_trimEnd.of_trimStart

/-- Blanks in front have nothing to close. -/
theorem ClosesItself.of_blank_append {blank cs : List Char}
    (hblank : ∀ c ∈ blank, Text.isBlank c = true)
    (h : ClosesItself dialect depths (blank ++ cs)) : ClosesItself dialect depths cs := by
  induction blank with
  | nil => exact h
  | cons c blank ih =>
      have hc : Text.isBlank c = true := hblank c List.mem_cons_self
      have hrest := (h.of_places (places_blank hc depths (blank ++ cs)) (by simp)).2
      exact ih (fun d hd => hblank d (List.mem_cons_of_mem c hd)) hrest

theorem ClosesItself.trimStart {cs : List Char} (h : ClosesItself dialect depths cs) :
    ClosesItself dialect depths (Text.trimStart cs) := by
  obtain ⟨blank, hblank, hcs⟩ := Text.exists_blank_append_trimStart cs
  rw [← hcs] at h
  exact h.of_blank_append hblank

end BookRules.Rule
