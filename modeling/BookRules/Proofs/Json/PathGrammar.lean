import BookRules.Proofs.Json.PathReading
import BookRules.Proofs.Select.WrittenFilters
import BookRules.Proofs.Rule.Places

/-!
# Written paths

A path is written step by step.  A name stands behind a dot, or in quotes between brackets,
where several names may stand between commas; a star stands behind a dot or between brackets,
and positions stand between brackets.  Two dots in place of the one, or in front of the
brackets, make a descent of a step.

A path that is written so is read back.  Between brackets nothing is hidden from the search for
the closing one but what quotes hide, and the brackets hold nothing else that it could stop at.
A name behind a dot ends where the next step begins, since every step begins with a dot or a
bracket.  So each step can be taken off the front of the text, whatever stands behind it.
-/

namespace BookRules.Json

open BookRules.Rule (isQuote)
open BookRules.Select (SpellsFilter)

variable {fuel : Nat} {body cs front back inside rest : List Char} {step : Step} {path : Path}

/-! ## Closing brackets -/

/-- The search for a closing bracket passes over the text and is as it was. -/
def StaysInside (cs : List Char) : Prop :=
  ∀ depth done rest, closeBracket? none depth done (cs ++ rest) =
    closeBracket? none depth (cs.reverse ++ done) rest

/-- A character that opens and closes nothing. -/
def isNeutral (c : Char) : Bool :=
  !isQuote c && c != '[' && c != ']'

theorem StaysInside.append (hfront : StaysInside front) (hback : StaysInside back) :
    StaysInside (front ++ back) := by
  intro depth done rest
  rw [List.append_assoc, hfront, hback, List.reverse_append, List.append_assoc]

theorem staysInside_of_isNeutral (h : ∀ c ∈ cs, isNeutral c = true) : StaysInside cs := by
  intro depth done rest
  induction cs generalizing done with
  | nil => rfl
  | cons c cs ih =>
      rw [List.forall_mem_cons] at h
      have hc : isQuote c = false ∧ c ≠ '[' ∧ c ≠ ']' := by
        simpa [isNeutral, and_assoc] using h.1
      have hquote : (c == '\'' || c == '"') = false := hc.1
      rw [List.cons_append, closeBracket?]
      simp only [hquote, hc.2, beq_iff_eq, if_false, Bool.false_eq_true]
      rw [ih h.2, List.reverse_cons, List.append_assoc, List.singleton_append]

theorem closeBracket?_some_cons {q c : Char} (hc : c ≠ '\\') (depth : Nat)
    (done rest : List Char) : closeBracket? (some q) depth done (c :: rest) =
      closeBracket? (if c = q then none else some q) depth (c :: done) rest := by
  cases rest <;> simp [closeBracket?, hc]

theorem closeBracket?_quoted {q : Char} (hq : q ≠ '\\') (h : ∀ c ∈ cs, c ≠ q ∧ c ≠ '\\')
    (depth : Nat) (done rest : List Char) :
    closeBracket? (some q) depth done (cs ++ q :: rest) =
      closeBracket? none depth (q :: (cs.reverse ++ done)) rest := by
  induction cs generalizing done with
  | nil => rw [List.nil_append, closeBracket?_some_cons hq, if_pos rfl, List.reverse_nil,
      List.nil_append]
  | cons c cs ih =>
      rw [List.forall_mem_cons] at h
      rw [List.cons_append, closeBracket?_some_cons h.1.2, if_neg h.1.1, ih h.2,
        List.reverse_cons, List.append_assoc, List.singleton_append]

/-- Quotes hide what stands between them. -/
theorem staysInside_quoted {q : Char} (hq : isQuote q = true) (h : ∀ c ∈ cs, c ≠ q ∧ c ≠ '\\') :
    StaysInside (q :: cs ++ [q]) := by
  intro depth done rest
  have hquote : (q == '\'' || q == '"') = true := hq
  rw [List.append_assoc, List.cons_append, closeBracket?, if_pos hquote, List.singleton_append,
    closeBracket?_quoted (Rule.ne_backslash_of_isQuote hq) h]
  simp

theorem closeBracket?_of_staysInside (h : StaysInside inside) (rest : List Char) :
    closeBracket? none 1 [] (inside ++ ']' :: rest) = some (inside, rest) := by
  rw [h, closeBracket?]
  simp

/-! ## The grammar -/

/-- A name that can stand behind dots as it is. -/
structure IsDotName (name : List Char) : Prop where
  trimmed : Text.trim name = name
  nonempty : name ≠ []
  noStar : name.head? ≠ some '*'
  noDot : '.' ∉ name
  noBracket : '[' ∉ name

/-- A name that can stand in quotes as it is. -/
structure IsQuotable (name : List Char) : Prop where
  noSingle : '\'' ∉ name
  noDouble : '"' ∉ name
  noBackslash : '\\' ∉ name

/-- A name in a pair of quotes, without a comma, at which names are taken apart. -/
def SpellsName (cs : List Char) (name : String) : Prop :=
  IsQuotable name.toList ∧ ',' ∉ name.toList ∧ ∃ q, isQuote q = true ∧ cs = q :: name.toList ++ [q]

/-- A step as it is written between brackets. -/
inductive SpellsInside : List Char → Step → Prop
  | names {parts : List (List Char)} {names : List String} (hne : names ≠ [])
      (hparts : List.Forall₂ SpellsName parts names) :
      SpellsInside ([','].intercalate parts) (.child names)
  | star : SpellsInside ['*'] .wildcard
  | indices {cs : List Char} {filter : Select.IndexFilter}
      (hfilter : SpellsFilter (Text.trim cs) filter) : SpellsInside cs (.indices filter)

/-- A step as it is written behind dots. -/
inductive SpellsDotted : List Char → Step → Prop
  | name {name : String} (hname : IsDotName name.toList) : SpellsDotted name.toList (.child [name])
  | star : SpellsDotted ['*'] .wildcard

inductive SpellsStep : List Char → Step → Prop
  | dotted {cs : List Char} {step : Step} (h : SpellsDotted cs step) : SpellsStep ('.' :: cs) step
  | bracket {cs : List Char} {step : Step} (h : SpellsInside cs step) :
      SpellsStep ('[' :: (cs ++ [']'])) step
  | descent {cs : List Char} {step : Step} (h : SpellsDotted cs step) :
      SpellsStep ('.' :: '.' :: cs) (.descend step)
  | descentBracket {cs : List Char} {step : Step} (h : SpellsInside cs step) :
      SpellsStep ('.' :: '.' :: '[' :: (cs ++ [']'])) (.descend step)

inductive SpellsPath : List Char → Path → Prop
  | nil : SpellsPath [] []
  | cons {cs more : List Char} {step : Step} {path : Path} (hstep : SpellsStep cs step)
      (hmore : SpellsPath more path) : SpellsPath (cs ++ more) (step :: path)

/-! ## Names between brackets -/

/-- A text without the quotes at its ends. -/
def withoutQuotes (cs : List Char) : List Char :=
  ((cs.dropWhile isQuote).reverse.dropWhile isQuote).reverse

theorem quotedNames_eq (cs : List Char) : quotedNames cs =
    (cs.splitOn ',').map fun part => String.ofList (withoutQuotes (Text.trim part)) := by
  rw [List.splitOn_eq_splitOnP]
  rfl

theorem isQuote_iff {c : Char} : isQuote c = true ↔ c = '\'' ∨ c = '"' := by
  simp [isQuote]

theorem not_isBlank_of_isQuote {q : Char} (h : isQuote q = true) : Text.isBlank q = false := by
  rcases isQuote_iff.1 h with rfl | rfl <;> decide

theorem IsQuotable.not_isQuote (h : IsQuotable cs) : ∀ c ∈ cs, isQuote c = false := by
  intro c hc
  by_contra hquote
  rcases isQuote_iff.1 (Bool.eq_true_of_not_eq_false hquote) with rfl | rfl
  · exact h.noSingle hc
  · exact h.noDouble hc

theorem withoutQuotes_append (opening closing : List Char)
    (hopening : ∀ c ∈ opening, isQuote c = true) (hclosing : ∀ c ∈ closing, isQuote c = true)
    (h : ∀ c ∈ inside, isQuote c = false) :
    withoutQuotes (opening ++ inside ++ closing) = inside := by
  have hback : ∀ c ∈ closing.reverse, isQuote c = true := by simpa using hclosing
  have hinside : inside.reverse.dropWhile isQuote = inside.reverse := by
    refine List.dropWhile_eq_self_iff.2 fun hlen => ?_
    rw [h _ (List.mem_reverse.1 (List.getElem_mem hlen))]
    exact Bool.false_ne_true
  rw [withoutQuotes, List.append_assoc, List.dropWhile_append_of_pos hopening]
  cases inside with
  | nil => simp [List.dropWhile_eq_nil_iff.2 hclosing]
  | cons c inside =>
      rw [List.cons_append, List.dropWhile_cons_of_neg (by simp [h c List.mem_cons_self]),
        ← List.cons_append, List.reverse_append, List.dropWhile_append_of_pos hback, hinside,
        List.reverse_reverse]

theorem StaysInside.intercalate {sep : List Char} {parts : List (List Char)}
    (hsep : StaysInside sep) (h : ∀ part ∈ parts, StaysInside part) :
    StaysInside (sep.intercalate parts) := by
  induction parts with
  | nil => exact staysInside_of_isNeutral (by simp)
  | cons part rest ih =>
      rw [List.forall_mem_cons] at h
      cases rest with
      | nil => simpa using h.1
      | cons next rest =>
          rw [List.intercalate_cons_cons]
          exact (h.1.append hsep).append (ih h.2)

section Names

variable {name : String} {names : List String} {parts : List (List Char)}

theorem IsQuotable.staysInside {q : Char} (hq : isQuote q = true) (h : IsQuotable cs) :
    StaysInside (q :: cs ++ [q]) := by
  refine staysInside_quoted hq fun c hc => ⟨?_, ?_⟩
  · rintro rfl
    simp [h.not_isQuote c hc] at hq
  · rintro rfl
    exact h.noBackslash hc

theorem SpellsName.trim_eq (h : SpellsName cs name) : Text.trim cs = cs := by
  obtain ⟨-, -, q, hq, rfl⟩ := h
  exact Text.trim_cons_concat (not_isBlank_of_isQuote hq) (not_isBlank_of_isQuote hq) _

theorem SpellsName.comma_not_mem (h : SpellsName cs name) : ',' ∉ cs := by
  obtain ⟨-, hcomma, q, hq, rfl⟩ := h
  have hother : ',' ≠ q := by
    rintro rfl
    exact absurd hq (by decide)
  simp [hcomma, hother]

theorem SpellsName.withoutQuotes_eq (h : SpellsName cs name) :
    withoutQuotes (Text.trim cs) = name.toList := by
  rw [h.trim_eq]
  obtain ⟨hname, -, q, hq, rfl⟩ := h
  exact withoutQuotes_append [q] [q] (by simpa using hq) (by simpa using hq) hname.not_isQuote

theorem quotedNames_intercalate (hne : names ≠ []) (hparts : List.Forall₂ SpellsName parts names) :
    quotedNames ([','].intercalate parts) = names := by
  have hcomma : ∀ part ∈ parts, ',' ∉ part :=
    Select.forall_left_of_forall₂ hparts fun _ _ h => h.comma_not_mem
  have hsome : parts ≠ [] := by
    rintro rfl
    exact hne (List.forall₂_nil_left_iff.1 hparts)
  rw [quotedNames_eq, List.splitOn_intercalate ',' hcomma hsome]
  clear hne hsome hcomma
  induction hparts with
  | nil => rfl
  | cons hname _ ih =>
      rw [List.map_cons, ih, hname.withoutQuotes_eq, String.ofList_toList]

/-- Names in quotes make up a text that begins with a quote and has no blanks at its ends. -/
theorem exists_quote_intercalate (hne : names ≠ [])
    (hparts : List.Forall₂ SpellsName parts names) :
    Text.trim ([','].intercalate parts) = [','].intercalate parts ∧
      ∃ q more, isQuote q = true ∧ [','].intercalate parts = q :: more := by
  constructor
  · refine Text.trim_intercalate [','] fun part hpart => ?_
    refine Select.forall_left_of_forall₂ hparts (p := fun part => Text.trim part = part ∧ part ≠ [])
      (fun part name h => ⟨h.trim_eq, ?_⟩) part hpart
    obtain ⟨-, -, q, -, rfl⟩ := h
    simp
  · cases hparts with
    | nil => exact absurd rfl hne
    | @cons part name rest others hname hrest =>
        obtain ⟨-, -, q, hq, rfl⟩ := hname
        cases rest with
        | nil => exact ⟨q, _, hq, by rw [List.intercalate_singleton, List.cons_append]⟩
        | cons next rest =>
            exact ⟨q, _, hq, by rw [List.intercalate_cons_cons, List.cons_append, List.cons_append,
              List.cons_append]⟩

theorem stepInside_quote {q : Char} (hq : isQuote q = true) (more : List Char) :
    stepInside fuel body (q :: more) = .ok (.child (quotedNames (q :: more))) := by
  rcases isQuote_iff.1 hq with rfl | rfl <;> rfl

end Names

/-! ## Positions between brackets -/

/-- A character of a kind that holds neither quotes nor brackets. -/
theorem isNeutral_of_kind {p : Char → Bool} {c : Char} (h : ['\'', '"', '[', ']'].any p = false)
    (hc : p c = true) : isNeutral c = true := by
  have hother : ∀ d ∈ ['\'', '"', '[', ']'], c ≠ d := by
    rintro d hd rfl
    exact List.any_eq_false.1 h c hd hc
  simp only [List.forall_mem_cons] at hother
  simp [isNeutral, isQuote, hother]

theorem staysInside_of_spellsFilter {filter : Select.IndexFilter}
    (h : SpellsFilter (Text.trim cs) filter) : StaysInside cs := by
  refine staysInside_of_isNeutral fun c hc => ?_
  cases hblank : Text.isBlank c with
  | true => exact isNeutral_of_kind (by decide) hblank
  | false =>
      have hsign := h.isFilterChar c (Text.mem_trim hc hblank)
      exact isNeutral_of_kind (by decide) hsign

theorem stepInside_of_spellsFilter {filter : Select.IndexFilter}
    (h : SpellsFilter (Text.trim cs) filter) :
    stepInside fuel body (Text.trim cs) = .ok (.indices filter) := by
  have hread : Select.IndexFilter.parse? (Text.trim cs) = some filter := by
    rw [Select.IndexFilter.parse?_eq_some_iff, Text.trim_trim]
    exact h
  have hsigns := h.isFilterChar
  have hne := h.ne_nil
  generalize Text.trim cs = inner at hread hsigns hne
  cases inner with
  | nil => exact absurd rfl hne
  | cons c more =>
      have hsign := hsigns c List.mem_cons_self
      have hstar : c ≠ '*' := by
        rintro rfl
        exact absurd hsign (by decide)
      have hcondition : c ≠ '?' := by
        rintro rfl
        exact absurd hsign (by decide)
      have hquote : c ≠ '\'' ∧ c ≠ '"' := by
        constructor <;> rintro rfl <;> exact absurd hsign (by decide)
      simp [stepInside, hread, hstar, hcondition, hquote]

theorem SpellsInside.staysInside (h : SpellsInside cs step) : StaysInside cs := by
  cases h with
  | names _ hparts =>
      refine .intercalate (staysInside_of_isNeutral (List.forall_mem_singleton.2 rfl)) ?_
      refine Select.forall_left_of_forall₂ hparts fun part name h => ?_
      obtain ⟨hname, -, q, hq, rfl⟩ := h
      exact hname.staysInside hq
  | star => exact staysInside_of_isNeutral (List.forall_mem_singleton.2 rfl)
  | indices hfilter => exact staysInside_of_spellsFilter hfilter

theorem SpellsInside.stepInside_eq (h : SpellsInside cs step) :
    stepInside fuel body (Text.trim cs) = .ok step := by
  cases h with
  | names hne hparts =>
      obtain ⟨htrim, q, more, hq, hcs⟩ := exists_quote_intercalate hne hparts
      rw [htrim, hcs, stepInside_quote hq, ← hcs, quotedNames_intercalate hne hparts]
  | star => rfl
  | indices hfilter => exact stepInside_of_spellsFilter hfilter

theorem SpellsInside.bracket_append (h : SpellsInside cs step) (rest : List Char) :
    bracket (fuel + 1) body (cs ++ ']' :: rest) = .ok (step, rest) := by
  rw [bracket_of_closeBracket? (closeBracket?_of_staysInside h.staysInside rest), h.stepInside_eq]
  rfl

/-! ## Steps -/

/-- A name ends in front of the text. -/
def EndsName (cs : List Char) : Prop :=
  ∀ c ∈ cs.head?, isNameChar c = false

theorem IsDotName.isNameChar {name : List Char} (h : IsDotName name) :
    ∀ c ∈ name, isNameChar c = true := by
  intro c hc
  have hdot : c ≠ '.' := fun heq => h.noDot (heq ▸ hc)
  have hbracket : c ≠ '[' := fun heq => h.noBracket (heq ▸ hc)
  simp [Json.isNameChar, hdot, hbracket]

theorem dottedName_append {name : List Char} (hname : IsDotName name) (hrest : EndsName rest) :
    dottedName body (name ++ rest) = .ok (.child [String.ofList name], rest) := by
  have hfront : (name ++ rest).takeWhile isNameChar = name := by
    rw [List.takeWhile_append_of_pos hname.isNameChar]
    cases rest with
    | nil => simp
    | cons c rest => simp [hrest c rfl]
  have hback : (name ++ rest).dropWhile isNameChar = rest := by
    rw [List.dropWhile_append_of_pos hname.isNameChar]
    cases rest with
    | nil => rfl
    | cons c rest => simp [hrest c rfl]
  rw [dottedName, hfront, hback, hname.trimmed, if_neg (by simpa using hname.nonempty)]

theorem SpellsDotted.stepAfterDot_append (h : SpellsDotted cs step) (hrest : EndsName rest)
    (descend : Bool) : stepAfterDot (fuel + 1) body descend (cs ++ rest) = .ok (step, rest) := by
  cases h with
  | @name name hname =>
      obtain ⟨c, more, hcs⟩ := List.exists_cons_of_ne_nil hname.nonempty
      have hstar : (name.toList ++ rest).head? ≠ some '*' := by
        have := hname.noStar
        rw [hcs] at this ⊢
        exact this
      have hopen : descend = true → (name.toList ++ rest).head? ≠ some '[' := by
        rintro - hhead
        rw [hcs, List.cons_append, List.head?_cons, Option.some.injEq] at hhead
        exact hname.noBracket (hhead ▸ hcs ▸ List.mem_cons_self)
      rw [stepAfterDot_name hstar hopen, dottedName_append hname hrest, String.ofList_toList]
  | star => rfl

theorem firstStep_dot (h : cs.head? ≠ some '.') :
    firstStep fuel body ('.' :: cs) = stepAfterDot fuel body false cs := by
  unfold firstStep
  split
  · simp_all
  · simp_all
  · simp_all
  · simp_all

theorem SpellsDotted.exists_cons (h : SpellsDotted cs step) :
    ∃ c more, cs = c :: more ∧ c ≠ '.' := by
  cases h with
  | @name name hname =>
      obtain ⟨c, more, hcs⟩ := List.exists_cons_of_ne_nil hname.nonempty
      exact ⟨c, more, hcs, fun hdot => hname.noDot (hdot ▸ hcs ▸ List.mem_cons_self)⟩
  | star => exact ⟨'*', [], rfl, by decide⟩

theorem SpellsStep.firstStep_append (h : SpellsStep cs step) (hrest : EndsName rest) :
    firstStep (fuel + 2) body (cs ++ rest) = .ok (step, rest) := by
  cases h with
  | @dotted cs step h =>
      obtain ⟨c, more, hcs, hdot⟩ := h.exists_cons
      have hhead : (cs ++ rest).head? ≠ some '.' := by simpa [hcs] using hdot
      rw [List.cons_append, firstStep_dot hhead, h.stepAfterDot_append hrest]
  | @bracket cs step h =>
      have hbracket : Json.bracket (fuel + 2) body (cs ++ ']' :: rest) = .ok (step, rest) :=
        h.bracket_append rest
      simpa [firstStep] using hbracket
  | @descent cs step h =>
      rw [List.cons_append, List.cons_append, firstStep, h.stepAfterDot_append hrest]
      rfl
  | @descentBracket cs step h =>
      have hbracket : Json.bracket (fuel + 1) body (cs ++ ']' :: rest) = .ok (step, rest) :=
        h.bracket_append rest
      rw [List.cons_append, List.cons_append, List.cons_append, firstStep, stepAfterDot_bracket,
        List.append_assoc, List.singleton_append, hbracket]
      rfl

theorem SpellsStep.exists_cons (h : SpellsStep cs step) :
    ∃ c more, cs = c :: more ∧ (c = '.' ∨ c = '[') := by
  cases h with
  | dotted => exact ⟨_, _, rfl, .inl rfl⟩
  | bracket => exact ⟨_, _, rfl, .inr rfl⟩
  | descent => exact ⟨_, _, rfl, .inl rfl⟩
  | descentBracket => exact ⟨_, _, rfl, .inl rfl⟩

theorem SpellsDotted.trimEnd_eq (h : SpellsDotted cs step) : Text.trimEnd cs = cs := by
  cases h with
  | name hname => exact Text.trimEnd_eq_self_of_trim hname.trimmed
  | star => rfl

theorem SpellsStep.trimEnd_eq (h : SpellsStep cs step) : Text.trimEnd cs = cs := by
  cases h with
  | dotted h => rw [Text.trimEnd_cons (by decide), h.trimEnd_eq]
  | bracket => rw [← List.cons_append, Text.trimEnd_concat (by decide)]
  | descent h => rw [Text.trimEnd_cons (by decide), Text.trimEnd_cons (by decide), h.trimEnd_eq]
  | descentBracket =>
      rw [← List.cons_append, ← List.cons_append, ← List.cons_append,
        Text.trimEnd_concat (by decide)]

/-! ## Paths -/

theorem SpellsPath.endsName (h : SpellsPath cs path) : EndsName cs := by
  cases h with
  | nil => simp [EndsName]
  | cons hstep hmore =>
      obtain ⟨c, more, rfl, hc⟩ := hstep.exists_cons
      intro d hd
      obtain rfl : c = d := by simpa using hd
      rcases hc with rfl | rfl <;> rfl

theorem SpellsPath.trimEnd_eq (h : SpellsPath cs path) : Text.trimEnd cs = cs := by
  induction h with
  | nil => rfl
  | @cons cs more step path hstep hmore ih =>
      cases more with
      | nil => rw [List.append_nil, hstep.trimEnd_eq]
      | cons c more => rw [Text.trimEnd_append (by simp [ih]), ih]

theorem SpellsPath.steps_eq (h : SpellsPath cs path) (hfuel : cs.length + 3 ≤ fuel) :
    steps fuel body cs = .ok path := by
  induction h generalizing fuel with
  | nil => cases fuel <;> rfl
  | @cons cs more step path hstep hmore ih =>
      -- a bracket behind two dots is three calls deep
      obtain ⟨fuel, rfl⟩ : ∃ n, fuel = n + 3 := ⟨fuel - 3, by omega⟩
      have hread : firstStep (fuel + 2) body (cs ++ more) = .ok (step, more) :=
        hstep.firstStep_append hmore.endsName
      obtain ⟨c, front, rfl, hc⟩ := hstep.exists_cons
      have hblank : c ≠ ' ' := by
        rcases hc with rfl | rfl <;> decide
      have hrest : steps (fuel + 2) body more = .ok path := by
        apply ih
        simp only [List.length_append, List.length_cons] at hfuel
        omega
      rw [List.cons_append] at hread ⊢
      rw [steps_cons hblank, hread]
      simp only [bind, Except.bind, hrest]
      rfl

theorem SpellsPath.parse_of_root {text : String} {root : Char} (hroot : root = '$' ∨ root = '@')
    (h : SpellsPath cs path) (htext : text.toList = root :: cs) : Path.parse text = .ok path := by
  have hbody : pathBody (root :: cs) = cs := by
    have hblank : Text.isBlank root = false := by
      rcases hroot with rfl | rfl <;> decide
    rw [pathBody, Text.trim_cons hblank, h.trimEnd_eq]
    rcases hroot with rfl | rfl <;> rfl
  rw [Path.parse, htext, hbody]
  exact h.steps_eq (by omega)

theorem SpellsPath.parse_of_step (h : SpellsPath cs path)
    (hstep : cs.head? = some '.' ∨ cs.head? = some '[') :
    Path.parse (String.ofList cs) = .ok path := by
  have hbody : pathBody cs = cs := by
    have hend := h.trimEnd_eq
    rcases hstep with hhead | hhead
    all_goals
      obtain ⟨more, rfl⟩ := List.head?_eq_some_iff.1 hhead
      rw [Text.trimEnd_cons (by decide)] at hend
      rw [pathBody, Text.trim_cons (by decide), hend]
      rfl
  rw [Path.parse, String.toList_ofList, hbody]
  exact h.steps_eq (by omega)

theorem parse_bracket {text : String} (hinside : StaysInside inside)
    (hstep : ∀ fuel body, inside.length ≤ fuel →
      stepInside fuel body (Text.trim inside) = .ok step)
    (htext : text.toList = '$' :: '[' :: (inside ++ [']'])) : Path.parse text = .ok [step] := by
  have hbody : pathBody ('$' :: '[' :: (inside ++ [']'])) = '[' :: (inside ++ [']']) := by
    rw [pathBody, ← List.cons_append, ← List.cons_append,
      Text.trim_cons_concat (by decide) (by decide)]
    rfl
  have hclose := closeBracket?_of_staysInside hinside []
  rw [Path.parse, htext, hbody, steps_cons (by decide), firstStep, bracket_of_closeBracket? hclose,
    hstep _ _ (by simp only [List.length_cons, List.length_append]; omega)]
  rfl

/-- A step that can be written and is no descent. -/
def IsPlainStep : Step → Prop
  | .child names =>
    (∃ name, names = [name] ∧ IsDotName name.toList) ∨
      names ≠ [] ∧ ∀ name ∈ names, IsQuotable name.toList ∧ ',' ∉ name.toList
  | .wildcard => True
  | .indices filter => filter.entries ≠ [] ∧ ∀ entry ∈ filter.entries, entry.Fits
  | _ => False

/-- A step that can be written. -/
def CanBeWritten (step : Step) : Prop :=
  IsPlainStep step ∨ ∃ inner, step = .descend inner ∧ IsPlainStep inner

theorem exists_spells_of_isPlainStep (h : IsPlainStep step) :
    ∃ cs, SpellsDotted cs step ∨ SpellsInside cs step := by
  cases step with
  | child names =>
      rcases h with ⟨name, rfl, hname⟩ | ⟨hne, hnames⟩
      · exact ⟨_, .inl (.name hname)⟩
      · have hparts : List.Forall₂ SpellsName
            (names.map fun name => '\'' :: name.toList ++ ['\'']) names := by
          rw [List.forall₂_map_left_iff, List.forall₂_same]
          exact fun name hname => ⟨(hnames name hname).1, (hnames name hname).2, '\'', rfl, rfl⟩
        exact ⟨_, .inr (.names hne hparts)⟩
  | wildcard => exact ⟨_, .inl .star⟩
  | indices filter =>
      have hread := Select.IndexFilter.parse?_written h.1 h.2
      exact ⟨_, .inr (.indices (Select.IndexFilter.parse?_eq_some_iff.1 hread))⟩
  | descend step => exact absurd h id
  | filter condition => exact absurd h id

theorem exists_spellsStep (h : CanBeWritten step) : ∃ cs, SpellsStep cs step := by
  rcases h with hplain | ⟨inner, rfl, hplain⟩
  · obtain ⟨cs, hdotted | hinside⟩ := exists_spells_of_isPlainStep hplain
    · exact ⟨_, .dotted hdotted⟩
    · exact ⟨_, .bracket hinside⟩
  · obtain ⟨cs, hdotted | hinside⟩ := exists_spells_of_isPlainStep hplain
    · exact ⟨_, .descent hdotted⟩
    · exact ⟨_, .descentBracket hinside⟩

theorem exists_spellsPath (h : ∀ step ∈ path, CanBeWritten step) : ∃ cs, SpellsPath cs path := by
  induction path with
  | nil => exact ⟨[], .nil⟩
  | cons step path ih =>
      rw [List.forall_mem_cons] at h
      obtain ⟨cs, hstep⟩ := exists_spellsStep h.1
      obtain ⟨more, hmore⟩ := ih h.2
      exact ⟨_, .cons hstep hmore⟩

/-- A path that is written step by step is read back, behind either root or without one, and
every path of such steps can be written.  Whatever the text is, the reader comes to an end: more
fuel than it is given makes no difference. -/
theorem written_paths_read_back :
    (∀ cs path, SpellsPath cs path →
      Path.parse ("$" ++ String.ofList cs) = .ok path ∧
      Path.parse ("@" ++ String.ofList cs) = .ok path ∧
      (cs.head? = some '.' ∨ cs.head? = some '[' → Path.parse (String.ofList cs) = .ok path)) ∧
    (∀ path : Path, (∀ step ∈ path, CanBeWritten step) → ∃ cs, SpellsPath cs path) ∧
    ∀ text fuel, 3 * (pathBody text.toList).length + 3 ≤ fuel →
      steps fuel (pathBody text.toList) (pathBody text.toList) = Path.parse text := by
  refine ⟨fun cs path h => ⟨?_, ?_, h.parse_of_step⟩, fun _ => exists_spellsPath, ?_⟩
  · exact h.parse_of_root (.inl rfl) (by simp)
  · exact h.parse_of_root (.inr rfl) (by simp)
  · intro text fuel hfuel
    exact (ends _).steps _ _ fuel (Nat.le_refl _) hfuel

/-- Names that look like steps, a filter that drops an item, and descents. -/
theorem written_paths_read_back_quoted :
    let path : Path := [.descend (.child ["x.y]", "[z"]), .child ["a b"],
      .indices { exclude := true, entries := [.single 0] }, .descend .wildcard]
    SpellsPath "..['x.y]',\"[z\"].a b[!0]..*".toList path ∧
      Path.parse "$..['x.y]',\"[z\"].a b[!0]..*" = .ok path := by
  intro path
  have hfirst : SpellsName "'x.y]'".toList "x.y]" :=
    ⟨⟨by decide, by decide, by decide⟩, by decide, '\'', rfl, rfl⟩
  have hsecond : SpellsName "\"[z\"".toList "[z" :=
    ⟨⟨by decide, by decide, by decide⟩, by decide, '"', rfl, rfl⟩
  have hname : IsDotName "a b".toList := ⟨by decide, by decide, by decide, by decide, by decide⟩
  have hfilter : SpellsFilter (Text.trim "!0".toList) { exclude := true, entries := [.single 0] } :=
    Select.IndexFilter.parse?_eq_some_iff.1 (by decide)
  have hspells : SpellsPath "..['x.y]',\"[z\"].a b[!0]..*".toList path :=
    .cons (.descentBracket (.names (by simp) (.cons hfirst (.cons hsecond .nil))))
      (.cons (.dotted (.name hname)) (.cons (.bracket (.indices hfilter))
        (.cons (.descent .star) .nil)))
  exact ⟨hspells, (written_paths_read_back.1 _ _ hspells).1⟩

end BookRules.Json
