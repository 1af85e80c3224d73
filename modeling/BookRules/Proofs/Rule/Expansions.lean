import BookRules.Proofs.Decimal.Literals
import BookRules.Proofs.Regex.Spans
import BookRules.Proofs.Text.Spans
import BookRules.Rule.Replacement
import Mathlib.Data.List.TakeWhile

/-!
# What a replacement means

A replacement is written as a template and the template is filled for each match.  The two
steps together copy the replacement, except for its references: a dollar sign with digits
behind it, as many as there are.  In particular no dollar sign, brace or name of the
replacement is taken for a reference that templates know and replacements do not.

The text is cut at the matches, which are met from left to right and do not overlap, and the
cutting is filled with what the replacement means for each of them.
-/

namespace BookRules.Rule

open Decimal (isDigit valueOf)

/-- The text does not begin with a digit. -/
def NoDigitFront (cs : List Char) : Prop :=
  ∀ c ∈ cs.head?, isDigit c = false

/-- What a replacement means for a match with these groups. -/
inductive Expands (group : Nat → List Char) : List Char → List Char → Prop
  | nil : Expands group [] []
  /-- The digits of a reference are as many as there are. -/
  | reference {digits rest out : List Char} (hne : digits ≠ [])
      (hdigits : ∀ c ∈ digits, isDigit c = true) (hfront : NoDigitFront rest)
      (hrest : Expands group rest out) :
      Expands group ('$' :: digits ++ rest) (group (valueOf digits) ++ out)
  | dollar {rest out : List Char} (hfront : NoDigitFront rest) (hrest : Expands group rest out) :
      Expands group ('$' :: rest) ('$' :: out)
  | other {c : Char} {rest out : List Char} (hc : c ≠ '$') (hrest : Expands group rest out) :
      Expands group (c :: rest) (c :: out)

variable {group : Nat → List Char} {named : List Char → List Char}
variable {digits rest out replacement : List Char} {c : Char}

theorem takeWhile_digits (hdigits : ∀ c ∈ digits, isDigit c = true) (hfront : NoDigitFront rest) :
    (digits ++ rest).takeWhile isDigit = digits := by
  rw [List.takeWhile_append_of_pos hdigits]
  cases rest with
  | nil => simp
  | cons c rest => simp [hfront c rfl]

theorem dropWhile_digits (hdigits : ∀ c ∈ digits, isDigit c = true) (hfront : NoDigitFront rest) :
    (digits ++ rest).dropWhile isDigit = rest := by
  rw [List.dropWhile_append_of_pos hdigits]
  cases rest with
  | nil => rfl
  | cons c rest => simp [hfront c rfl]

theorem noDigitFront_dropWhile (cs : List Char) : NoDigitFront (cs.dropWhile isDigit) := by
  intro c hc
  have hnot := List.head?_dropWhile_not isDigit cs
  rw [Option.mem_def.1 hc] at hnot
  exact hnot

namespace Replacement

/-! ## Templates -/

theorem template_reference (hne : digits ≠ []) (hdigits : ∀ c ∈ digits, isDigit c = true)
    (hfront : NoDigitFront rest) : template ('$' :: digits ++ rest) =
      '$' :: '\x7b' :: digits ++ '\x7d' :: template rest := by
  have hread : templateSign ('$' :: (digits ++ rest)) =
      some ('$' :: '\x7b' :: digits ++ ['\x7d'], rest) := by
    have hsome : digits.isEmpty = false := by simpa using hne
    simp only [templateSign, takeWhile_digits hdigits hfront, dropWhile_digits hdigits hfront,
      hsome, Bool.false_eq_true, if_false]
  rw [List.cons_append, template, Text.replaceSpans_span hread (List.suffix_append digits rest)]
  simp [template]

theorem template_dollar (hfront : NoDigitFront rest) :
    template ('$' :: rest) = '$' :: '$' :: template rest := by
  have hall : ∀ c ∈ ([] : List Char), isDigit c = true := by simp
  have htake := takeWhile_digits hall hfront
  have hdrop := dropWhile_digits hall hfront
  rw [List.nil_append] at htake hdrop
  have hread : templateSign ('$' :: rest) = some (['$', '$'], rest) := by
    simp only [templateSign, htake, hdrop, List.isEmpty_nil, if_true]
  rw [template, Text.replaceSpans_span hread List.suffix_rfl]
  rfl

theorem template_other (hc : c ≠ '$') (rest : List Char) :
    template (c :: rest) = c :: template rest := by
  have hread : templateSign (c :: rest) = none := by
    unfold templateSign
    split
    next heq => exact absurd (List.cons.inj heq).1 hc
    next => rfl
  rw [template, Text.replaceSpans_pass hread]
  rfl

theorem fillTemplate_reference (hne : digits ≠ []) (hdigits : ∀ c ∈ digits, isDigit c = true)
    (rest : List Char) :
    fillTemplate group named ('$' :: '\x7b' :: digits ++ '\x7d' :: rest) =
      group (valueOf digits) ++ fillTemplate group named rest := by
  have hbrace : '\x7d' ∉ digits := fun hmem => absurd (hdigits _ hmem) (by decide)
  have hcut : Text.cutAt? ['\x7d'] (digits ++ '\x7d' :: rest) = some (digits, rest) := by
    rw [Text.cutAt?_eq_some_iff (by simp)]
    refine ⟨by simp, fun hoccurs => hbrace ?_⟩
    simpa using (List.singleton_infix_iff _ _).1 hoccurs
  have hnumber : Decimal.natural? digits = some (valueOf digits) :=
    Decimal.natural?_eq_some_iff.2 ⟨hne, hdigits, rfl⟩
  have hread : reference group named ('$' :: '\x7b' :: (digits ++ '\x7d' :: rest)) =
      some (group (valueOf digits), rest) := by
    simp [reference, hcut, referred, hnumber]
  have hsuffix : rest <:+ '\x7b' :: (digits ++ '\x7d' :: rest) :=
    ⟨'\x7b' :: digits ++ ['\x7d'], by simp⟩
  rw [List.cons_append, List.cons_append, fillTemplate, Text.replaceSpans_span hread hsuffix]
  rfl

theorem fillTemplate_dollar (rest : List Char) :
    fillTemplate group named ('$' :: '$' :: rest) = '$' :: fillTemplate group named rest := by
  have hread : reference group named ('$' :: '$' :: rest) = some (['$'], rest) := rfl
  rw [fillTemplate, Text.replaceSpans_span hread (List.suffix_cons '$' rest)]
  rfl

theorem fillTemplate_other (hc : c ≠ '$') (rest : List Char) :
    fillTemplate group named (c :: rest) = c :: fillTemplate group named rest := by
  have hread : reference group named (c :: rest) = none := by
    unfold reference
    split
    all_goals first
      | next heq => exact absurd (List.cons.inj heq).1 hc
      | rfl
  rw [fillTemplate, Text.replaceSpans_pass hread]
  rfl

/-! ## Expansions -/

/-- The template of a replacement means what the replacement means, and no group is referred
to by a name. -/
theorem fillTemplate_template (h : Expands group replacement out) (named : List Char → List Char) :
    fillTemplate group named (template replacement) = out := by
  induction h with
  | nil => rfl
  | reference hne hdigits hfront hrest ih =>
      rw [template_reference hne hdigits hfront, fillTemplate_reference hne hdigits, ih]
  | dollar hfront hrest ih => rw [template_dollar hfront, fillTemplate_dollar, ih]
  | other hc hrest ih => rw [template_other hc, fillTemplate_other hc, ih]

theorem exists_expands (group : Nat → List Char) (replacement : List Char) :
    ∃ out, Expands group replacement out := by
  induction hlength : replacement.length using Nat.strongRecOn generalizing replacement with
  | ind length ih =>
      cases replacement with
      | nil => exact ⟨[], .nil⟩
      | cons c rest =>
          obtain ⟨out, hrest⟩ := ih rest.length (by simp [← hlength]) rest rfl
          by_cases hc : c = '$'
          · subst hc
            have hall : ∀ d ∈ rest.takeWhile isDigit, isDigit d = true :=
              fun d hd => List.mem_takeWhile_imp hd
            by_cases hdigits : rest.takeWhile isDigit = []
            · refine ⟨'$' :: out, .dollar ?_ hrest⟩
              have hwhole := List.takeWhile_append_dropWhile (p := isDigit) (l := rest)
              rw [hdigits, List.nil_append] at hwhole
              rw [← hwhole]
              exact noDigitFront_dropWhile rest
            · have hshort : (rest.dropWhile isDigit).length < length := by
                rw [← hlength, List.length_cons]
                exact Nat.lt_succ_of_le (List.dropWhile_suffix isDigit).length_le
              obtain ⟨tail, htail⟩ := ih _ hshort _ rfl
              have hread := Expands.reference hdigits hall (noDigitFront_dropWhile rest) htail
              rw [List.cons_append, List.takeWhile_append_dropWhile] at hread
              exact ⟨_, hread⟩
          · exact ⟨c :: out, .other hc hrest⟩

theorem expands_expand (group : Nat → List Char) (replacement : List Char) :
    Expands group replacement (expand group replacement) := by
  obtain ⟨out, h⟩ := exists_expands group replacement
  have hexpand : expand group replacement = out := fillTemplate_template h fun _ => []
  exact hexpand ▸ h

/-- References of templates that replacements do not know. -/
example (group : Nat → List Char) : expand group "$$1 $\x7b1\x7d $12a $a $".toList =
    '$' :: (group 1 ++ (" $\x7b1\x7d ".toList ++ (group 12 ++ "a $a $".toList))) :=
  rfl

end Replacement

/-! ## Texts cut at matches -/

variable {search : Regex.Search} {text : Array Char} {position : Nat}

/-- Matches from a position on, each with the gap in front of it, which ends where the match
starts. -/
def InOrder (text : Array Char) : Nat → List (List Char × Regex.Match) → Prop
  | _, [] => True
  | position, (gap, m) :: rest =>
      position + gap.length = m.span.1 ∧ m.Within position text.size ∧ InOrder text m.span.2 rest

/-- The text is cut at all its matches. -/
structure CutAtMatches (search : Regex.Search) (text : Array Char)
    (cutting : Text.Cutting Regex.Match) : Prop where
  all_matches : Regex.AllMatches search text (cutting.spans.map Prod.snd)
  in_order : InOrder text 0 cutting.spans
  fill_eq : cutting.fill (fun m => m.group text 0) = text.toList

/-- The text from a position on, cut at matches. -/
def cutAt (text : Array Char) : Nat → List Regex.Match → Text.Cutting Regex.Match
  | position, [] => ⟨[], (text.extract position text.size).toList⟩
  | position, m :: rest =>
      let cutting := cutAt text m.span.2 rest
      ⟨((text.extract position m.span.1).toList, m) :: cutting.spans, cutting.last⟩

theorem spliced_eq_fill (text : Array Char) (expansion : Regex.Match → List Char) (position : Nat)
    (ms : List Regex.Match) :
    spliced text expansion position ms = (cutAt text position ms).fill expansion := by
  induction ms generalizing position with
  | nil => simp [spliced, cutAt, Text.Cutting.fill]
  | cons m rest ih => rw [spliced, cutAt, Text.Cutting.fill_cons, ih]

theorem map_spans_cutAt (text : Array Char) (position : Nat) (ms : List Regex.Match) :
    (cutAt text position ms).spans.map Prod.snd = ms := by
  induction ms generalizing position with
  | nil => rfl
  | cons m rest ih => rw [cutAt, List.map_cons, ih]

/-- Matches that lie behind each other. -/
def Apart (text : Array Char) : Nat → List Regex.Match → Prop
  | _, [] => True
  | position, m :: rest => m.Within position text.size ∧ Apart text m.span.2 rest

theorem apart_of_successive (hsearch : search.Lawful) {ms : List Regex.Match}
    (h : Regex.Successive search text position ms) : Apart text position ms := by
  induction h with
  | last => exact trivial
  | next hmatch hrest ih => exact ⟨(hsearch.matchAfter?_within hmatch).1, ih⟩

theorem apart_of_allMatches (hsearch : search.Lawful) {ms : List Regex.Match}
    (h : Regex.AllMatches search text ms) : Apart text 0 ms := by
  cases ms with
  | nil => exact trivial
  | cons m rest =>
      obtain ⟨hfirst, hrest⟩ := h
      exact ⟨hsearch _ _ _ hfirst, apart_of_successive hsearch hrest⟩

theorem inOrder_cutAt {ms : List Regex.Match} (h : Apart text position ms) :
    InOrder text position (cutAt text position ms).spans := by
  induction ms generalizing position with
  | nil => exact trivial
  | cons m rest ih =>
      obtain ⟨hwithin, hrest⟩ := h
      have hlow := hwithin.low_le
      have hordered := hwithin.ordered
      have hhigh := hwithin.le_high
      refine ⟨?_, hwithin, ih hrest⟩
      rw [Array.length_toList, Array.size_extract]
      omega

theorem fill_cutAt {ms : List Regex.Match} (h : Apart text position ms)
    (hposition : position ≤ text.size) :
    (cutAt text position ms).fill (fun m => m.group text 0) =
      (text.extract position text.size).toList := by
  induction ms generalizing position with
  | nil => simp [cutAt, Text.Cutting.fill]
  | cons m rest ih =>
      obtain ⟨hwithin, hrest⟩ := h
      have hlow := hwithin.low_le
      have hordered := hwithin.ordered
      have hhigh := hwithin.le_high
      have hfront : text.extract position m.span.1 ++ text.extract m.span.1 m.span.2 =
          text.extract position m.span.2 := by
        rw [Array.extract_append_extract, Nat.min_eq_left hlow, Nat.max_eq_right hordered]
      have hwhole : text.extract position m.span.2 ++ text.extract m.span.2 text.size =
          text.extract position text.size := by
        rw [Array.extract_append_extract, Nat.min_eq_left (Nat.le_trans hlow hordered),
          Nat.max_eq_right hhigh]
      rw [cutAt, Text.Cutting.fill_cons, ih hrest hhigh, hwithin.group_zero, ← hwhole, ← hfront,
        Array.toList_append, Array.toList_append]

theorem cutAtMatches_matchesIn (hsearch : search.Lawful) (text : Array Char) :
    CutAtMatches search text (cutAt text 0 (search.matchesIn text)) := by
  have hall := hsearch.allMatches_matchesIn text
  have hapart := apart_of_allMatches hsearch hall
  refine ⟨?_, inOrder_cutAt hapart, ?_⟩
  · rw [map_spans_cutAt]
    exact hall
  · rw [fill_cutAt hapart (Nat.zero_le _), Array.extract_size]

theorem head?_matchesIn (search : Regex.Search) (text : Array Char) :
    (search.matchesIn text).head? = search.first? text := by
  rw [Regex.Search.matchesIn, Regex.Search.first?]
  cases search.matchFrom? text 0 <;> rfl

/-! ## Replacements -/

variable {engine : Regex.Engine}

theorem ne_nil_of_search?_eq_none (hengine : engine.Lawful) {pattern : String}
    (h : engine.search? pattern = none) : pattern.toList ≠ [] := by
  intro hnil
  rw [String.toList_eq_nil_iff.1 hnil] at h
  exact hengine.empty h

/-- A group that took no part in the match, or that the pattern does not have. -/
theorem group_eq_nil {m : Regex.Match} {index : Nat} (hnone : m.groups[index]?.join = none) :
    m.group text index = [] := by
  cases hgroup : m.groups[index]? with
  | none => simp [Regex.Match.group, hgroup]
  | some group =>
      obtain rfl : group = none := by simpa [hgroup] using hnone
      simp [Regex.Match.group, hgroup]

/-- With a pattern, the text is cut at the matches and the cutting is filled with what the
replacement means for each of them, or this is kept for the first one alone.  What the engine
refuses as a pattern is taken as it is written, and the replacement with it. -/
theorem replaceWith_eq_fill (hengine : engine.Lawful) (input pattern replacement : String) :
    (∀ search, engine.search? pattern = some search →
      let text := input.toList.toArray
      ∃ (cutting : Text.Cutting Regex.Match) (expansion : Regex.Match → List Char),
        CutAtMatches search text cutting ∧
        (∀ m, Expands (m.group text) replacement.toList (expansion m)) ∧
        (∀ (m : Regex.Match) (index : Nat), m.groups[index]?.join = none →
          m.group text index = []) ∧
        (replaceWith engine input pattern replacement false).toList = cutting.fill expansion ∧
        (replaceWith engine input pattern replacement true).toList =
          ((cutting.spans.map Prod.snd).head?.map expansion).getD []) ∧
    (engine.search? pattern = none →
      ∃ cutting : Text.Cutting Unit,
        Text.Cuts (Text.Occurs pattern.toList) input.toList cutting ∧
        (replaceWith engine input pattern replacement false).toList =
          cutting.fill (fun _ => replacement.toList) ∧
        replaceWith engine input pattern replacement true =
          if pattern.toList <:+: input.toList then replacement else "") := by
  refine ⟨fun search hpattern => ?_, fun hpattern => ?_⟩
  · intro text
    refine ⟨cutAt text 0 (search.matchesIn text),
      fun m => Replacement.expand (m.group text) replacement.toList,
      cutAtMatches_matchesIn (hengine.search hpattern) text,
      fun m => Replacement.expands_expand _ _, fun m index hnone => group_eq_nil hnone, ?_, ?_⟩
    · rw [← spliced_eq_fill]
      simp [replaceWith, hpattern, text]
    · rw [map_spans_cutAt, head?_matchesIn]
      simp [replaceWith, hpattern, text]
  · have hne := ne_nil_of_search?_eq_none hengine hpattern
    obtain ⟨cutting, hcuts⟩ := Text.exists_cuts (Text.takesOff_occurs hne) input.toList
    refine ⟨cutting, hcuts, ?_, ?_⟩
    · rw [← Text.replaceAll_eq_fill hne _ hcuts]
      simp [replaceWith, hpattern]
    · simp only [replaceWith, hpattern, if_true, Text.occursIn_iff_isInfix]

/-- Two groups change places where they take part, and an open parenthesis is no pattern. -/
theorem replaceWith_eq_fill_programs :
    (∃ search, Regex.programs.search? "(a)-(b)|c" = some search ∧
      ∃ (cutting : Text.Cutting Regex.Match) (expansion : Regex.Match → List Char),
        CutAtMatches search "a-b,c".toList.toArray cutting ∧
          cutting.fill expansion = "ba$x,$x".toList ∧
          ((cutting.spans.map Prod.snd).head?.map expansion).getD [] = "ba$x".toList) ∧
    Regex.programs.search? "(" = none ∧
      ∃ cutting : Text.Cutting Unit, Text.Cuts (Text.Occurs ['(']) "a(b(c".toList cutting ∧
        cutting.fill (fun _ => ['[']) = "a[b[c".toList := by
  constructor
  · have hsome : (Regex.programs.search? "(a)-(b)|c").isSome := by decide +kernel
    obtain ⟨search, hsearch⟩ := Option.isSome_iff_exists.1 hsome
    obtain ⟨cutting, expansion, hcut, -, -, hall, hfirst⟩ :=
      (replaceWith_eq_fill Regex.programs_lawful "a-b,c" "(a)-(b)|c" "$2$1$x").1 search hsearch
    refine ⟨search, hsearch, cutting, expansion, hcut, ?_, ?_⟩
    · rw [← hall]
      decide +kernel
    · rw [← hfirst]
      decide +kernel
  · have hnone : Regex.programs.search? "(" = none := by
      rw [← Option.isNone_iff_eq_none]
      decide +kernel
    obtain ⟨cutting, hcuts, hall, -⟩ :=
      (replaceWith_eq_fill Regex.programs_lawful "a(b(c" "(" "[").2 hnone
    refine ⟨hnone, cutting, hcuts, ?_⟩
    have hbracket : (fun _ : Unit => ['[']) = fun _ => "[".toList := rfl
    rw [hbracket, ← hall]
    decide +kernel

end BookRules.Rule
