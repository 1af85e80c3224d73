import BookRules.Proofs.Text.Occurrences

/-!
# Texts cut at spans

Scripts, placeholders and expressions stand in a text as spans, which are looked for from
left to right.  A relation says when a span stands in front of a text and what follows it;
the cutting of a text lists its spans, each with the gap in front of it.  Nothing stands at
any place of a gap, which is what "from left to right" says.

Whatever the spans are, as long as each of them takes something off the text, a text has
exactly one cutting, and a loop that tries every place in turn finds it: it passes over the
gap in front of a span and goes on behind the span.

A text that is split at a needle falls into the gaps of its cutting at the occurrences of the
needle, and replacing every occurrence fills that cutting.
-/

namespace BookRules.Text

variable {σ : Type}

/-- The spans of a text, each with the gap in front of it, and what follows the last one. -/
structure Cutting (σ : Type) where
  spans : List (List Char × σ)
  last : List Char

namespace Cutting

def gaps (cutting : Cutting σ) : List (List Char) :=
  cutting.spans.map Prod.fst ++ [cutting.last]

/-- The text with something else in the place of each span. -/
def fill (write : σ → List Char) (cutting : Cutting σ) : List Char :=
  cutting.spans.flatMap (fun part => part.1 ++ write part.2) ++ cutting.last

theorem fill_cons (write : σ → List Char) (gap : List Char) (span : σ)
    (spans : List (List Char × σ)) (last : List Char) :
    fill write ⟨(gap, span) :: spans, last⟩ = gap ++ write span ++ fill write ⟨spans, last⟩ := by
  simp [fill]

theorem fill_congr {write write' : σ → List Char} {cutting : Cutting σ}
    (h : ∀ part ∈ cutting.spans, write part.2 = write' part.2) :
    cutting.fill write = cutting.fill write' := by
  obtain ⟨spans, last⟩ := cutting
  induction spans with
  | nil => rfl
  | cons part spans ih =>
      rw [fill_cons, fill_cons, h part (by simp), ih fun other hother => h other (by simp [hother])]

end Cutting

/-- Nothing stands at any place of the gap in front of a text. -/
def IsGap (stands : σ → List Char → List Char → Prop) (gap cs : List Char) : Prop :=
  ∀ tail, tail <:+ gap → tail ≠ [] → ∀ span after, ¬ stands span (tail ++ cs) after

/-- The cutting of a text at the spans that are met from left to right. -/
inductive Cuts (stands : σ → List Char → List Char → Prop) : List Char → Cutting σ → Prop
  | last {gap : List Char} (hgap : IsGap stands gap []) : Cuts stands gap ⟨[], gap⟩
  | span {gap cs after last : List Char} {span : σ} {spans : List (List Char × σ)}
      (hgap : IsGap stands gap cs) (hspan : stands span cs after)
      (hmore : Cuts stands after ⟨spans, last⟩) :
      Cuts stands (gap ++ cs) ⟨(gap, span) :: spans, last⟩

section Cuts

variable {stands : σ → List Char → List Char → Prop} {span : σ} {cs gap after : List Char}

theorem isGap_nil (stands : σ → List Char → List Char → Prop) (cs : List Char) :
    IsGap stands [] cs := by
  intro tail htail hne
  exact absurd (List.suffix_nil.1 htail) hne

theorem isGap_cons_iff {c : Char} : IsGap stands (c :: gap) cs ↔
    (∀ span after, ¬ stands span (c :: gap ++ cs) after) ∧ IsGap stands gap cs := by
  constructor
  · intro h
    exact ⟨h (c :: gap) List.suffix_rfl (by simp),
      fun tail htail hne => h tail (htail.trans (List.suffix_cons c gap)) hne⟩
  · rintro ⟨hhere, hlater⟩ tail htail hne
    rcases List.suffix_cons_iff.1 htail with rfl | htail
    · exact hhere
    · exact hlater tail htail hne

/-- A span takes something off the text it stands in front of. -/
def TakesOff (stands : σ → List Char → List Char → Prop) : Prop :=
  ∀ span cs after, stands span cs after → ∃ c rest, cs = c :: rest ∧ after <:+ rest

theorem TakesOff.not_stands_nil (h : TakesOff stands) : ¬ stands span [] after := by
  intro hspan
  obtain ⟨c, rest, hnil, -⟩ := h span [] after hspan
  simp at hnil

theorem TakesOff.length_lt (h : TakesOff stands) (hspan : stands span cs after) :
    after.length < cs.length := by
  obtain ⟨c, rest, rfl, hsuffix⟩ := h span cs after hspan
  exact Nat.lt_succ_of_le hsuffix.length_le

theorem Cuts.exists_cons {c : Char} {rest : List Char} {cutting : Cutting σ}
    (h : Cuts stands rest cutting) (hhere : ∀ span after, ¬ stands span (c :: rest) after) :
    ∃ cutting, Cuts stands (c :: rest) cutting := by
  cases h with
  | last hgap => exact ⟨_, .last (isGap_cons_iff.2 ⟨by simpa using hhere, hgap⟩)⟩
  | span hgap hspan hmore => exact ⟨_, .span (isGap_cons_iff.2 ⟨hhere, hgap⟩) hspan hmore⟩

theorem exists_cuts (htakes : TakesOff stands) (cs : List Char) :
    ∃ cutting, Cuts stands cs cutting := by
  induction hlength : cs.length using Nat.strongRecOn generalizing cs with
  | ind length ih =>
      cases cs with
      | nil => exact ⟨_, .last (isGap_nil stands [])⟩
      | cons c rest =>
          by_cases hhere : ∃ span after, stands span (c :: rest) after
          · obtain ⟨span, after, hspan⟩ := hhere
            obtain ⟨⟨spans, last⟩, hmore⟩ :=
              ih after.length (hlength ▸ htakes.length_lt hspan) after rfl
            exact ⟨_, .span (isGap_nil stands (c :: rest)) hspan hmore⟩
          · push Not at hhere
            obtain ⟨cutting, hrest⟩ := ih rest.length (by simp [← hlength]) rest rfl
            exact hrest.exists_cons hhere

/-- Where a span stands in a text, the gap in front of another one has come to its end. -/
theorem IsGap.length_le {other rest : List Char} (hgap : IsGap stands gap cs)
    (hspan : stands span rest after) (hsame : gap ++ cs = other ++ rest) :
    gap.length ≤ other.length := by
  by_contra hlong
  rcases List.append_eq_append_iff.1 hsame with ⟨tail, hother, -⟩ | ⟨tail, hother, hrest⟩
  · simp [hother] at hlong
  · have hne : tail ≠ [] := by
      rintro rfl
      simp [hother] at hlong
    rw [hrest] at hspan
    exact hgap tail ⟨other, hother.symm⟩ hne span after hspan

theorem Cuts.unique (htakes : TakesOff stands)
    (hone : ∀ span span' cs after after', stands span cs after → stands span' cs after' →
      span = span' ∧ after = after')
    {cutting cutting' : Cutting σ} (h : Cuts stands cs cutting) (h' : Cuts stands cs cutting') :
    cutting = cutting' := by
  induction h generalizing cutting' with
  | @last text hgap =>
      generalize hcs : text = text' at h'
      cases h' with
      | last => rfl
      | @span gap' cs' _ _ _ _ _ hspan _ =>
          have hle := hgap.length_le hspan (by simpa using hcs)
          have hpos := htakes.length_lt hspan
          rw [hcs, List.length_append] at hle
          omega
  | @span gap cs after last span spans hgap hspan hmore ih =>
      generalize htext : gap ++ cs = text at h'
      cases h' with
      | last hgap' =>
          have hle := hgap'.length_le hspan (by simpa using htext.symm)
          have hpos := htakes.length_lt hspan
          rw [← htext, List.length_append] at hle
          omega
      | @span gap' cs' after' last' span' spans' hgap' hspan' hmore' =>
          have hle := hgap.length_le hspan' htext
          have hge := hgap'.length_le hspan htext.symm
          obtain ⟨rfl, rfl⟩ := List.append_inj htext (Nat.le_antisymm hle hge)
          obtain ⟨rfl, rfl⟩ := hone span span' cs after after' hspan hspan'
          obtain ⟨rfl, rfl⟩ := Cutting.mk.inj (ih hmore')
          rfl

theorem Cuts.fill_eq {source : σ → List Char}
    (hsource : ∀ span cs after, stands span cs after → source span ++ after = cs)
    {cutting : Cutting σ} (h : Cuts stands cs cutting) : cutting.fill source = cs := by
  induction h with
  | last => simp [Cutting.fill]
  | span hgap hspan hmore ih =>
      rw [Cutting.fill_cons, ih, List.append_assoc, hsource _ _ _ hspan]

/-! ## Loops over the places of a text -/

theorem drop_eq_of_isSuffix {rest : List Char} (h : after <:+ rest) :
    rest.drop (rest.length - after.length) = after :=
  (List.suffix_iff_eq_drop.1 h).symm

theorem replaceSpansFrom_skip (recognise : Recogniser) (skip : Nat) (cs : List Char) :
    replaceSpansFrom recognise skip cs = replaceSpansFrom recognise 0 (cs.drop skip) := by
  induction cs generalizing skip with
  | nil => cases skip <;> simp [replaceSpansFrom]
  | cons c rest ih =>
      cases skip with
      | zero => rfl
      | succ skip => simpa [replaceSpansFrom] using ih skip

/-- Replacing spans fills the cutting of the text. -/
theorem Cuts.replaceSpans_eq {recognise : Recogniser} {write : σ → List Char}
    (htakes : TakesOff stands)
    (hread : ∀ cs out after, recognise cs = some (out, after) ↔
      ∃ span, stands span cs after ∧ out = write span)
    {cutting : Cutting σ} (h : Cuts stands cs cutting) :
    replaceSpans recognise cs = cutting.fill write := by
  have hgaps : ∀ gap cs, IsGap stands gap cs →
      replaceSpansFrom recognise 0 (gap ++ cs) = gap ++ replaceSpansFrom recognise 0 cs := by
    intro gap cs hgap
    induction gap with
    | nil => rfl
    | cons c gap ih =>
        obtain ⟨hhere, hlater⟩ := isGap_cons_iff.1 hgap
        have hnone : recognise (c :: (gap ++ cs)) = none := by
          rw [Option.eq_none_iff_forall_ne_some]
          rintro ⟨out, after⟩ hsome
          obtain ⟨span, hspan, -⟩ := (hread _ _ _).1 hsome
          exact hhere span after hspan
        rw [List.cons_append, replaceSpansFrom, hnone]
        dsimp only
        rw [ih hlater, List.cons_append]
  unfold replaceSpans
  induction h with
  | @last gap hgap => simpa [replaceSpansFrom, Cutting.fill] using hgaps gap [] hgap
  | @span gap cs after last span spans hgap hspan hmore ih =>
      obtain ⟨c, rest, rfl, hsuffix⟩ := htakes span cs after hspan
      have hsome : recognise (c :: rest) = some (write span, after) :=
        (hread _ _ _).2 ⟨span, hspan, rfl⟩
      rw [hgaps gap _ hgap, replaceSpansFrom, hsome]
      dsimp only
      rw [replaceSpansFrom_skip, drop_eq_of_isSuffix hsuffix, ih, Cutting.fill_cons,
        List.append_assoc]

end Cuts

/-! ## Spans in pairs of braces -/

/-- A body in two pairs of braces, up to the nearest closing pair. -/
def InBraces (body cs after : List Char) : Prop :=
  cs = '\x7b' :: '\x7b' :: body ++ '\x7d' :: '\x7d' :: after ∧
    ¬ ['\x7d', '\x7d'] <:+: body ++ ['\x7d']

theorem takesOff_inBraces : TakesOff InBraces := by
  rintro body cs after ⟨rfl, -⟩
  exact ⟨'\x7b', _, rfl, '\x7b' :: body ++ ['\x7d', '\x7d'], by simp⟩

/-- The first occurrence: none ends in front of its last character. -/
theorem cutAt?_eq_some_iff {needle front after cs : List Char} (hneedle : needle ≠ []) :
    cutAt? needle cs = some (front, after) ↔
      front ++ needle ++ after = cs ∧ ¬ needle <:+: front ++ needle.dropLast := by
  have hshort : ¬ needle <:+: needle.dropLast := by
    intro hoccurs
    have hlength := hoccurs.length_le
    have hpos := List.length_pos_iff.2 hneedle
    rw [List.length_dropLast] at hlength
    omega
  have hdrop : ∀ before behind, before ++ needle.dropLast <+: before ++ (needle ++ behind) :=
    fun before behind => (List.prefix_append_right_inj before).2
      ((List.dropLast_prefix needle).trans (List.prefix_append needle behind))
  induction cs generalizing front with
  | nil => simp [cutAt?, hneedle]
  | cons c rest ih =>
      cases hfront : stripFront? needle (c :: rest) with
      | some behind =>
          have hhere : needle <+: c :: rest := ⟨behind, stripFront?_eq_some_iff.1 hfront⟩
          rw [cutAt?, hfront]
          constructor
          · intro heq
            obtain ⟨rfl, rfl⟩ := Prod.mk.inj (Option.some.inj heq)
            exact ⟨stripFront?_eq_some_iff.1 hfront, hshort⟩
          · rintro ⟨htext, hfirst⟩
            obtain rfl : front = [] := by
              by_contra hne
              -- an occurrence in front of this one ends before its last character
              rw [← htext, List.append_assoc] at hhere
              have hpos := List.length_pos_iff.2 hne
              have hstarts : needle <+: front ++ needle.dropLast := by
                apply List.prefix_of_prefix_length_le hhere (hdrop front after)
                simp only [List.length_append, List.length_dropLast]
                omega
              exact hfirst hstarts.isInfix
            rw [List.nil_append, ← stripFront?_eq_some_iff] at htext
            rw [hfront] at htext
            rw [Option.some.inj htext]
      | none =>
          have hhere : ¬ needle <+: c :: rest := stripFront?_eq_none_iff.1 hfront
          rw [cutAt?, hfront]
          constructor
          · intro heq
            obtain ⟨⟨before, behind⟩, hcut, hpair⟩ := Option.map_eq_some_iff.1 heq
            obtain ⟨rfl, rfl⟩ := Prod.mk.inj hpair
            obtain ⟨htext, hfirst⟩ := ih.1 hcut
            refine ⟨by simpa using htext, fun hoccurs => ?_⟩
            rcases List.infix_cons_iff.1 hoccurs with hstarts | hlater
            · apply hhere
              rw [← htext, List.append_assoc]
              exact hstarts.trans (hdrop (c :: before) behind)
            · exact hfirst hlater
          · rintro ⟨htext, hfirst⟩
            cases front with
            | nil => exact absurd ⟨after, htext⟩ hhere
            | cons d front =>
                obtain ⟨rfl, htail⟩ := List.cons.inj htext
                have hcut := ih.2 ⟨htail, fun hoccurs => hfirst
                  (hoccurs.trans (List.suffix_cons d _).isInfix)⟩
                simp [hcut]

end BookRules.Text

namespace BookRules.Text

/-! ## Occurrences of a needle -/

variable {needle cs gap piece : List Char}

/-- A needle in front of a text. -/
def Occurs (needle : List Char) (_ : Unit) (cs after : List Char) : Prop :=
  needle ++ after = cs

theorem takesOff_occurs (hneedle : needle ≠ []) : TakesOff (Occurs needle) := by
  rintro - cs after rfl
  obtain ⟨c, rest, rfl⟩ := List.exists_cons_of_ne_nil hneedle
  exact ⟨c, rest ++ after, rfl, List.suffix_append rest after⟩

/-- A needle that has no place in a text, not even where the text goes on with all but the
last character of the needle, does not begin in the text. -/
theorem isGap_occurs (h : ¬ needle <:+: gap ++ needle.dropLast) (after : List Char) :
    IsGap (Occurs needle) gap (needle ++ after) := by
  rintro tail htail hne ⟨⟩ behind hoccurs
  apply h
  obtain ⟨front, rfl⟩ := htail
  have hstarts : needle <+: tail ++ (needle ++ after) := ⟨behind, hoccurs⟩
  have hwhole : tail ++ needle.dropLast <+: tail ++ (needle ++ after) :=
    (List.prefix_append_right_inj tail).2
      ((List.dropLast_prefix needle).trans (List.prefix_append needle after))
  have hlength : needle.length ≤ (tail ++ needle.dropLast).length := by
    have hpos := List.length_pos_iff.2 hne
    rw [List.length_append, List.length_dropLast]
    omega
  have hhere := (List.prefix_of_prefix_length_le hstarts hwhole hlength).isInfix
  rw [List.append_assoc]
  exact hhere.trans (List.suffix_append front _).isInfix

theorem isGap_occurs_nil (h : ¬ needle <:+: gap) : IsGap (Occurs needle) gap [] := by
  rintro tail htail - ⟨⟩ behind hoccurs
  rw [List.append_nil] at hoccurs
  exact h ((List.prefix_append needle behind).isInfix.trans (hoccurs ▸ htail.isInfix))

theorem splitAllFrom_skip (needle : List Char) (skip : Nat) (piece cs : List Char) :
    splitAllFrom needle skip piece cs = splitAllFrom needle 0 piece (cs.drop skip) := by
  induction cs generalizing skip with
  | nil => cases skip <;> simp [splitAllFrom]
  | cons c rest ih =>
      cases skip with
      | zero => rfl
      | succ skip => simpa [splitAllFrom] using ih skip

theorem splitAllFrom_gap (h : IsGap (Occurs needle) gap cs) (piece : List Char) :
    splitAllFrom needle 0 piece (gap ++ cs) = splitAllFrom needle 0 (gap.reverse ++ piece) cs := by
  induction gap generalizing piece with
  | nil => rfl
  | cons c gap ih =>
      obtain ⟨hhere, hlater⟩ := isGap_cons_iff.1 h
      have hnone : ¬ needle.isPrefixOf (c :: (gap ++ cs)) = true := by
        intro hprefix
        obtain ⟨after, hafter⟩ := List.isPrefixOf_iff_prefix.1 hprefix
        exact hhere () after hafter
      rw [List.cons_append, splitAllFrom, if_neg hnone, ih hlater]
      simp

theorem splitAll_eq_gaps (hneedle : needle ≠ []) {cutting : Cutting Unit}
    (h : Cuts (Occurs needle) cs cutting) : splitAll needle cs = cutting.gaps := by
  unfold splitAll
  induction h with
  | @last gap hgap =>
      have hpass := splitAllFrom_gap hgap []
      rw [List.append_nil] at hpass
      rw [hpass]
      simp [splitAllFrom, Cutting.gaps]
  | @span gap cs after last span spans hgap hspan hmore ih =>
      obtain ⟨c, rest, rfl⟩ := List.exists_cons_of_ne_nil hneedle
      obtain rfl : c :: rest ++ after = cs := hspan
      have hhere : (c :: rest).isPrefixOf (c :: (rest ++ after)) = true :=
        List.isPrefixOf_iff_prefix.2 (List.prefix_append (c :: rest) after)
      rw [splitAllFrom_gap hgap, List.cons_append, splitAllFrom, if_pos hhere,
        splitAllFrom_skip, List.length_cons, Nat.add_sub_cancel, List.drop_left, ih]
      simp [Cutting.gaps]

theorem joinWith_gaps (between : List Char) (cutting : Cutting Unit) :
    joinWith between cutting.gaps = cutting.fill (fun _ => between) := by
  obtain ⟨spans, last⟩ := cutting
  induction spans with
  | nil => simp [joinWith, Cutting.gaps, Cutting.fill]
  | cons part spans ih =>
      obtain ⟨gap, span⟩ := part
      have hmore : Cutting.gaps ⟨spans, last⟩ ≠ [] := by simp [Cutting.gaps]
      have hgaps : Cutting.gaps ⟨(gap, span) :: spans, last⟩ = gap :: Cutting.gaps ⟨spans, last⟩ :=
        rfl
      obtain ⟨next, gaps, hcons⟩ := List.exists_cons_of_ne_nil hmore
      rw [Cutting.fill_cons, ← ih, hgaps, hcons]
      simp [joinWith]

theorem replaceAll_eq_fill (hneedle : needle ≠ []) (between : List Char) {cutting : Cutting Unit}
    (h : Cuts (Occurs needle) cs cutting) :
    replaceAll needle between cs = cutting.fill (fun _ => between) := by
  have hsome : ¬ needle.isEmpty = true := by simpa using hneedle
  rw [replaceAll, if_neg hsome, splitAll_eq_gaps hneedle h, joinWith_gaps]

end BookRules.Text
