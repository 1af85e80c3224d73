import BookRules.Proofs.Rule.Segments

/-!
# Texts without placeholders, bindings and scripts

A placeholder, a binding and a script that stand in a text also stand in a longer one, though a
script that goes on to the end becomes longer.  They all close with a sign of their own, or
open with one, so none of them needs a back that holds no such sign.  A text without them is
therefore made up of such texts, and such a back makes none.

The stage of such a text has no bindings.  It has no segments either, unless a reference to a
group stands in front of its first `##`.
-/

namespace BookRules.Text

variable {σ : Type} {stands : σ → List Char → List Char → Prop} {cs part back : List Char}

/-- What stands in a text stands in a longer one. -/
def Grows (stands : σ → List Char → List Char → Prop) : Prop :=
  ∀ span cs after, stands span cs after →
    ∀ back, ∃ span after, stands span (cs ++ back) after

/-- What stands in a text stands without a back of these characters. -/
def Shrinks (stands : σ → List Char → List Char → Prop) (free : Char → Prop) : Prop :=
  ∀ span cs after back, stands span (cs ++ back) after → (∀ c ∈ back, free c) →
    ∃ span after, stands span cs after

theorem isGap_of_isInfix (hgrows : Grows stands) (h : IsGap stands cs []) (hpart : part <:+: cs) :
    IsGap stands part [] := by
  rintro tail ⟨before, rfl⟩ hne span after hstands
  obtain ⟨front, back, rfl⟩ := hpart
  obtain ⟨longer, behind, hlonger⟩ := hgrows _ _ _ hstands back
  rw [List.append_nil] at hlonger
  refine h (tail ++ back) ⟨front ++ before, by simp⟩ (by simp [hne]) longer behind ?_
  rwa [List.append_nil]

theorem isGap_append {free : Char → Prop} (htakes : TakesOff stands)
    (hshrinks : Shrinks stands free) (hback : ∀ c ∈ back, free c) (h : IsGap stands cs []) :
    IsGap stands (cs ++ back) [] := by
  intro tail htail hne span after hstands
  rw [List.append_nil] at hstands
  obtain ⟨before, hwhole⟩ := htail
  rcases List.append_eq_append_iff.1 hwhole with ⟨front, rfl, rfl⟩ | ⟨more, rfl, rfl⟩
  · obtain ⟨shorter, behind, hshorter⟩ := hshrinks _ _ _ _ hstands hback
    have hfront : front ≠ [] := by
      rintro rfl
      exact htakes.not_stands_nil hshorter
    refine h front (List.suffix_append before front) hfront shorter behind ?_
    rwa [List.append_nil]
  · -- the span would stand in the back alone
    have hmore : ∀ c ∈ tail, free c := fun c hc => hback c (List.mem_append_right more hc)
    obtain ⟨shorter, behind, hshorter⟩ := hshrinks _ [] _ tail hstands hmore
    exact htakes.not_stands_nil hshorter

/-- What ends with a sign that the back does not hold ends in front of the back. -/
theorem exists_of_append_cons {front after : List Char} {c : Char} (hc : c ∉ back)
    (h : front ++ c :: after = cs ++ back) :
    ∃ more, cs = front ++ c :: more ∧ after = more ++ back := by
  rcases List.append_eq_append_iff.1 h with ⟨more, rfl, hmore⟩ | ⟨more, rfl, rfl⟩
  · cases more with
    | nil =>
        obtain rfl : c :: after = back := hmore
        exact absurd List.mem_cons_self hc
    | cons d more =>
        obtain ⟨rfl, rfl⟩ := List.cons.inj hmore
        exact ⟨more, rfl, rfl⟩
  · exact absurd (List.mem_append_right more List.mem_cons_self) hc

end BookRules.Text

namespace BookRules.Rule

open Text (Cutting Cuts IsGap Grows Shrinks)
open Unicode (InAnyCase)

/-- No placeholder, binding or script ends with the character or is opened by it. -/
def ClosesNothing (c : Char) : Prop :=
  c ≠ '\x7d' ∧ c ≠ '>' ∧ c ≠ ':'

instance : DecidablePred ClosesNothing :=
  fun _ => inferInstanceAs (Decidable (_ ∧ _ ∧ _))

variable {cs after back body : List Char}

theorem not_mem_of_closesNothing (h : ∀ c ∈ back, ClosesNothing c) :
    '\x7d' ∉ back ∧ '>' ∉ back ∧ ':' ∉ back :=
  ⟨fun hmem => (h _ hmem).1 rfl, fun hmem => (h _ hmem).2.1 rfl, fun hmem => (h _ hmem).2.2 rfl⟩

/-! ## Placeholders -/

namespace Hole

theorem grows_placed : Grows Placed := by
  rintro hole cs after ⟨hstands, hplaced⟩ back
  cases hstands with
  | @lookup mark name _ hmark hname hclosed =>
      have hlonger : Stands (.lookup mark name) (mark ++ (name ++ '\x7d' :: (after ++ back)))
          (after ++ back) := .lookup hmark hname hclosed
      exact ⟨_, _, by simpa using hlonger, hplaced⟩
  | @braces body _ _ hbody =>
      obtain ⟨rfl, hfirst⟩ := hbody
      exact ⟨_, after ++ back, .braces ⟨by simp, hfirst⟩, hplaced⟩
  | group => exact absurd ⟨_, rfl⟩ hplaced

theorem shrinks_placed : Shrinks Placed ClosesNothing := by
  rintro hole cs after back ⟨hstands, hplaced⟩ hback
  have hbrace := (not_mem_of_closesNothing hback).1
  generalize htext : cs ++ back = text at hstands
  cases hstands with
  | @lookup mark name _ hmark hname hclosed =>
      obtain ⟨more, rfl, rfl⟩ :=
        Text.exists_of_append_cons hbrace (by rw [htext, List.append_assoc])
      rw [List.append_assoc]
      exact ⟨_, more, .lookup hmark hname hclosed, hplaced⟩
  | @braces body _ _ hbody =>
      obtain ⟨rfl, hfirst⟩ := hbody
      have hwhole : '\x7b' :: '\x7b' :: body ++ ['\x7d'] ++ '\x7d' :: after = cs ++ back := by
        simp [htext]
      obtain ⟨more, rfl, rfl⟩ := Text.exists_of_append_cons hbrace hwhole
      exact ⟨_, more, .braces ⟨by simp, hfirst⟩, hplaced⟩
  | group => exact absurd ⟨_, rfl⟩ hplaced

end Hole

/-! ## Bindings -/

/-- Bindings stand in front of a text: an object up to the first closing brace. -/
def Binds (object cs after : List Char) : Prop :=
  ∃ mark body, InAnyCase "@put:\x7b".toList mark ∧ body ≠ [] ∧ '\x7d' ∉ body ∧
    object = '\x7b' :: body ++ ['\x7d'] ∧ mark ++ body ++ '\x7d' :: after = cs

theorem putMark_signs : ∀ w ∈ "@put:\x7b".toList, w ∈ Unicode.markSigns := by
  have hall : ("@put:\x7b".toList.all Unicode.markSigns.contains) = true := by decide
  intro w hw
  simpa using List.all_eq_true.1 hall w hw

theorem Stage.put?_eq_some_iff {object : List Char} :
    put? cs = some (object, after) ↔ Binds object cs after := by
  unfold put?
  constructor
  · intro h
    split at h
    next => simp at h
    next rest hmark =>
      obtain ⟨mark, hform, rfl⟩ := (Unicode.afterFolded?_eq_some_iff putMark_signs).1 hmark
      split at h
      next c body d behind htake hdrop =>
        obtain ⟨rfl, rfl⟩ := Prod.mk.inj (Option.some.inj h)
        obtain rfl := Hole.dropWhile_brace_eq_cons hdrop
        obtain ⟨hclosed, rfl⟩ := Hole.takeWhile_brace_iff.1 ⟨htake, hdrop⟩
        exact ⟨mark, c :: body, hform, by simp, hclosed, by simp, by simp⟩
      next => simp at h
  · rintro ⟨mark, body, hmark, hbody, hclosed, rfl, rfl⟩
    have hfound := hmark.afterFolded?_append putMark_signs (body ++ '\x7d' :: after)
    obtain ⟨htake, hdrop⟩ := Hole.takeWhile_brace_iff.2
      ⟨hclosed, (rfl : body ++ '\x7d' :: after = _)⟩
    obtain ⟨c, body, rfl⟩ := List.exists_cons_of_ne_nil hbody
    rw [List.append_assoc, hfound]
    dsimp only
    rw [htake, hdrop]

theorem takesOff_binds : Text.TakesOff Binds := by
  rintro object cs after ⟨mark, body, hmark, -, -, -, rfl⟩
  have hsigns : InAnyCase ['@', 'p', 'u', 't', ':', '\x7b'] mark := hmark
  cases hsigns with
  | @cons w c _ rest hc hrest =>
      exact ⟨c, rest ++ body ++ '\x7d' :: after, by simp, rest ++ body ++ ['\x7d'], by simp⟩

theorem grows_binds : Grows Binds := by
  rintro object cs after ⟨mark, body, hmark, hbody, hclosed, rfl, rfl⟩ back
  exact ⟨_, after ++ back, mark, body, hmark, hbody, hclosed, rfl, by simp⟩

theorem shrinks_binds : Shrinks Binds ClosesNothing := by
  rintro object cs after back ⟨mark, body, hmark, hbody, hclosed, rfl, htext⟩ hback
  obtain ⟨more, rfl, rfl⟩ :=
    Text.exists_of_append_cons (not_mem_of_closesNothing hback).1 htext
  exact ⟨_, more, mark, body, hmark, hbody, hclosed, rfl, rfl⟩

/-! ## Scripts -/

namespace ScriptSpan

variable {span : ScriptSpan}

theorem exists_concat_of_inAnyCase {mark form : List Char} {last : Char}
    (hlast : mark.getLast? = some last) (hforms : ∀ c ∈ Unicode.letterForms last, c = last)
    (h : InAnyCase mark form) : ∃ front, form = front ++ [last] := by
  induction h with
  | nil => cases hlast
  | @cons w c mark form hc hrest ih =>
      cases mark with
      | nil =>
          obtain rfl : w = last := by simpa using hlast
          cases hrest
          exact ⟨[], by rw [hforms c hc, List.nil_append]⟩
      | cons v mark =>
          obtain ⟨front, rfl⟩ := ih (by simpa using hlast)
          exact ⟨c :: front, rfl⟩

theorem grows_stands : Grows Stands := by
  rintro span cs after (⟨tags, htags, hopening, hclosing, hfirst, rfl⟩ |
    ⟨mark, hmark, hopening, rfl, hclosing, rfl⟩) back
  · exact ⟨span, after ++ back, .inl ⟨tags, htags, hopening, hclosing, hfirst, by simp⟩⟩
  · refine ⟨{ span with source := span.source ++ back }, [],
      .inr ⟨mark, hmark, hopening, by simp, hclosing, rfl⟩⟩

theorem shrinks_stands : Shrinks Stands ClosesNothing := by
  have htagEnds : ∀ tags ∈ scriptTags, tags.2.toList.getLast? = some '>' := by decide
  have hmarkEnds : ∀ mark ∈ tailMarks, mark.toList.getLast? = some ':' := by decide
  rintro span cs after back (⟨tags, htags, hopening, hclosing, hfirst, htext⟩ |
    ⟨mark, hmark, hopening, htext, hclosing, rfl⟩) hback
  · obtain ⟨front, hfront⟩ :=
      exists_concat_of_inAnyCase (htagEnds tags htags) (by decide) hclosing
    have hwhole : span.opening ++ span.source ++ front ++ '>' :: after = cs ++ back := by
      rw [← htext, hfront]
      simp
    obtain ⟨more, rfl, rfl⟩ :=
      Text.exists_of_append_cons (not_mem_of_closesNothing hback).2.1 hwhole
    exact ⟨span, more, .inl ⟨tags, htags, hopening, hclosing, hfirst, by simp [hfront]⟩⟩
  · obtain ⟨front, hfront⟩ :=
      exists_concat_of_inAnyCase (hmarkEnds mark hmark) (by decide) hopening
    have hwhole : front ++ ':' :: span.source = cs ++ back := by
      rw [← htext, hfront]
      simp
    obtain ⟨more, rfl, -⟩ :=
      Text.exists_of_append_cons (not_mem_of_closesNothing hback).2.2 hwhole
    exact ⟨{ span with source := more }, [],
      .inr ⟨mark, hmark, hopening, by simp [hfront], hclosing, rfl⟩⟩

end ScriptSpan

/-! ## Bare texts -/

/-- Nothing stands in the text that is looked for before the rule is read. -/
structure IsBare (cs : List Char) : Prop where
  unplaced : IsGap Hole.Placed cs []
  unbound : IsGap Binds cs []
  unscripted : IsGap ScriptSpan.Stands cs []

theorem IsBare.of_isInfix {part : List Char} (h : IsBare cs) (hpart : part <:+: cs) :
    IsBare part where
  unplaced := Text.isGap_of_isInfix Hole.grows_placed h.unplaced hpart
  unbound := Text.isGap_of_isInfix grows_binds h.unbound hpart
  unscripted := Text.isGap_of_isInfix ScriptSpan.grows_stands h.unscripted hpart

theorem IsBare.append (h : IsBare cs) (hback : ∀ c ∈ back, ClosesNothing c) :
    IsBare (cs ++ back) where
  unplaced := Text.isGap_append Hole.takesOff_placed Hole.shrinks_placed hback h.unplaced
  unbound := Text.isGap_append takesOff_binds shrinks_binds hback h.unbound
  unscripted := Text.isGap_append takesOff_stands ScriptSpan.shrinks_stands hback h.unscripted

theorem IsBare.of_closesNothing (h : ∀ c ∈ cs, ClosesNothing c) : IsBare cs := by
  have hnil : IsBare [] := ⟨Text.isGap_nil _ _, Text.isGap_nil _ _, Text.isGap_nil _ _⟩
  simpa using hnil.append h

theorem IsBare.splitPuts_eq (h : IsBare cs) : Stage.splitPuts cs = ([], cs) := by
  apply Stage.splitPuts_eq_self
  intro tail htail
  rw [Option.eq_none_iff_forall_ne_some]
  rintro ⟨object, after⟩ hsome
  have hbinds := Stage.put?_eq_some_iff.1 hsome
  have hne : tail ≠ [] := by
    rintro rfl
    exact takesOff_binds.not_stands_nil hbinds
  refine h.unbound tail htail hne object after ?_
  rwa [List.append_nil]

/-- The stages of a rule without scripts. -/
theorem IsBare.pipeline_eq {rule : String} (h : IsBare rule.toList) (content : Content) :
    pipeline content rule = gapStages content rule.toList := by
  have hwhole : Cuts ScriptSpan.Stands rule.toList ⟨[], rule.toList⟩ := .last h.unscripted
  simp [pipeline_eq_stagesOf content hwhole, stagesOf]

/-- No reference to a group begins in front of the first `##`. -/
def Unreferenced (cs : List Char) : Prop :=
  ∀ front rest hole after, front ++ rest = cs → ¬ Segment.replacementMark <:+: front →
    ¬ Hole.Refers hole rest after

namespace Segment

variable {segments : List Segment}

theorem eq_ofText_of_literals (hspell : Spell segments cs) (hnonempty : .literal "" ∉ segments)
    (hapart : segments.IsChain fun a b => ¬ (a.isLiteral = true ∧ b.isLiteral = true))
    (hliterals : ∀ segment ∈ segments, segment.isLiteral = true) : segments = ofText cs := by
  match segments with
  | [] =>
      obtain ⟨_, ⟨⟩, rfl⟩ := hspell
      rfl
  | [segment] =>
      cases segment with
      | literal a =>
          obtain ⟨span, rest, hspan, ⟨_, ⟨⟩, rfl⟩, rfl⟩ := spell_cons_iff.1 hspell
          obtain rfl : span = a.toList := hspan
          have hne : a ≠ "" := by
            rintro rfl
            exact hnonempty (List.mem_singleton.2 rfl)
          simp [ofText, hne]
      | _ => exact absurd (hliterals _ (List.mem_singleton.2 rfl)) Bool.false_ne_true
  | a :: b :: rest =>
      have ha := hliterals a (by simp)
      have hb := hliterals b (by simp)
      exact absurd ⟨ha, hb⟩ (List.isChain_cons_cons.1 hapart).1

theorem Joins.isLiteral {joined : List Segment} (hjoins : Joins segments joined)
    (h : ∀ segment ∈ segments, segment.isLiteral = true) :
    ∀ segment ∈ joined, segment.isLiteral = true := by
  induction hjoins with
  | nil => exact h
  | join hjoins ih =>
      have hmore := ih fun segment hmem => h segment (List.mem_cons_of_mem _ hmem)
      rw [List.forall_mem_cons] at hmore ⊢
      exact ⟨rfl, hmore.2⟩
  | keep hjoins hapart ih =>
      rw [List.forall_mem_cons] at h ⊢
      exact ⟨h.1, ih h.2⟩

/-- A text in which nothing is filled in is one literal. -/
theorem scan_of_unreferenced (hplaced : IsGap Hole.Placed cs []) (h : Unreferenced cs) :
    scan cs = (ofText cs, false) := by
  have hany : ((ofGap true cs).any fun s => !s.isLiteral) = false := by
    rw [Bool.eq_false_iff, Ne, any_ofGap_iff]
    rintro ⟨front, rest, hole, after, htext, hfront, hrefers⟩
    exact h front rest hole after htext hfront hrefers
  have hliterals : ∀ segment ∈ ofGap true cs, segment.isLiteral = true := by
    intro segment hmem
    simpa using List.any_eq_false.1 hany segment hmem
  have hjoins := joins_joinLiterals (ofGap true cs)
  have hone := eq_ofText_of_literals (hjoins.spell (spell_ofGap true cs))
    (hjoins.nonempty (scanned_ofGap true cs).nonempty) hjoins.apart (hjoins.isLiteral hliterals)
  rw [scan, scanFrom_last hplaced, hany]
  exact congrArg (·, false) hone

end Segment

theorem IsBare.parse_eq (h : IsBare cs) (htrim : Text.trim cs = cs) (content : Content)
    (hbody : Unreferenced (Mode.detect content cs).2) :
    Stage.parse content cs =
      let parts := splitReplacement (Mode.detect content cs).2
      { mode := (Mode.detect content cs).1
        expression := parts.rule
        pattern := parts.pattern
        replacement := parts.replacement
        firstOnly := parts.firstOnly } := by
  have hplaced := (h.of_isInfix (Mode.detect_isSuffix content cs).isInfix).unplaced
  simp only [Stage.parse, h.splitPuts_eq, htrim, Segment.scan_of_unreferenced hplaced hbody]
  by_cases hnil : (Mode.detect content cs).2.isEmpty = true
  · simp [Segment.ofText, hnil]
  · simp [Segment.ofText, hnil]

/-! ## Modes and suffixes -/

variable {front needle : List Char} {c : Char}

theorem stripFront?_append_cons (hc : c ∉ needle) (front back : List Char) :
    Text.stripFront? needle (front ++ c :: back) =
      (Text.stripFront? needle front).map (· ++ c :: back) := by
  cases hfront : Text.stripFront? needle front with
  | none =>
      rw [Option.map_none, Text.stripFront?_eq_none_iff, Text.isPrefix_append_cons_iff hc,
        ← Text.stripFront?_eq_none_iff, hfront]
  | some after =>
      rw [Option.map_some, Text.stripFront?_eq_some_iff]
      rw [Text.stripFront?_eq_some_iff] at hfront
      simp [← hfront]

theorem stripFrontNoCase?_append_cons (hc : c.toLower ∉ Text.lowerAscii needle)
    (front back : List Char) : Text.stripFrontNoCase? needle (front ++ c :: back) =
      (Text.stripFrontNoCase? needle front).map (· ++ c :: back) := by
  cases hfront : Text.stripFrontNoCase? needle front with
  | none => exact Text.stripFrontNoCase?_append_cons hc hfront back
  | some after =>
      unfold Text.stripFrontNoCase? at hfront ⊢
      split_ifs at hfront with hsame
      cases hfront
      have hlength : needle.length ≤ front.length := by
        have hlengths := congrArg List.length hsame
        simp only [Text.lowerAscii, List.length_map, List.length_take] at hlengths
        omega
      rw [List.take_append_of_le_length hlength, if_pos hsame, List.drop_append_of_le_length hlength,
        Option.map_some]

theorem stripMark?_append_cons {mark : String} (hmark : Text.lowerAscii mark.toList ∈ modeFronts)
    (hlower : c.toLower = c) (hc : c ∉ modeChars) (front back : List Char) :
    Text.stripFrontNoCase? mark.toList (front ++ c :: back) =
      (Text.stripFrontNoCase? mark.toList front).map (· ++ c :: back) := by
  apply stripFrontNoCase?_append_cons
  rw [hlower]
  exact fun hmem => hc (List.mem_flatten_of_mem hmark hmem)

theorem prefixed?_append_cons (hlower : c.toLower = c) (hc : c ∉ modeChars)
    (front back : List Char) : prefixed? (front ++ c :: back) =
      (prefixed? front).map fun found => (found.1, found.2 ++ c :: back) := by
  have hdouble : c ∉ "@@".toList := fun hmem => hc (List.mem_flatten_of_mem (by decide) hmem)
  rw [prefixed?, prefixed?, stripFront?_append_cons hdouble,
    stripMark?_append_cons (by decide) hlower hc, stripMark?_append_cons (by decide) hlower hc]
  simp [Option.map_or, Function.comp_def]

/-- The mode is found, and its prefix taken off, in front of the first character that no mode
is found by. -/
theorem detect_append_cons (content : Content) (hlower : c.toLower = c) (hc : c ∉ modeChars)
    (front back : List Char) : Mode.detect content (front ++ c :: back) =
      ((Mode.detect content front).1, (Mode.detect content front).2 ++ c :: back) := by
  rw [detect_eq, detect_eq, stripMark?_append_cons (by decide) hlower hc,
    prefixed?_append_cons hlower hc, bareMode_append_cons content hc, Option.isSome_map]
  split_ifs
  · rfl
  · rfl
  · cases prefixed? front <;> rfl

end BookRules.Rule
