import BookRules.Proofs.Decimal.Literals
import BookRules.Proofs.Finding.PostProcessing
import BookRules.Proofs.Finding.Substitution
import BookRules.Proofs.Rule.BareTexts

/-!
# References where there are no groups

A dollar sign with digits refers to a group of a row.  Where the rule is applied to anything
else the reference is written out again, from the number that was read: a zero in front of the
number is lost, and everything else stays as it was.  A single digit in front of a decimal digit
of another script is no reference; a rule that has no other dollar sign with digits is left to
the selector.
-/

namespace BookRules

namespace Text

variable {σ : Type} {stands stands' : σ → List Char → List Char → Prop} {cs : List Char}
  {cutting : Cutting σ}

theorem Cuts.exists_stands (h : Cuts stands cs cutting) {part : List Char × σ}
    (hpart : part ∈ cutting.spans) : ∃ rest after, stands part.2 rest after := by
  induction h with
  | last => simp at hpart
  | span hgap hspan hmore ih =>
      rcases List.mem_cons.1 hpart with rfl | hlater
      · exact ⟨_, _, hspan⟩
      · exact ih hlater

theorem Cuts.isInfix_of_mem_gaps (htakes : TakesOff stands) (h : Cuts stands cs cutting)
    {gap : List Char} (hgap : gap ∈ cutting.gaps) : gap <:+: cs := by
  induction h with
  | last =>
      obtain rfl : gap = _ := by simpa [Cutting.gaps] using hgap
      exact List.infix_rfl
  | @span front cs after last span spans hfront hspan hmore ih =>
      rcases List.mem_cons.1 hgap with rfl | hlater
      · exact (List.prefix_append _ _).isInfix
      · obtain ⟨c, rest, rfl, hsuffix⟩ := htakes _ _ _ hspan
        have hafter : after <:+ front ++ c :: rest :=
          (hsuffix.trans (List.suffix_cons c rest)).trans (List.suffix_append _ _)
        exact (ih hlater).trans hafter.isInfix

end Text

namespace Rule

open Text (Cutting Cuts IsGap)

variable {cs out gap after digits : List Char} {template : Cutting Hole}

/-- A text refers to a group by these digits. -/
def RefersBy (digits cs : List Char) : Prop :=
  ∃ after, '$' :: (digits ++ after) <:+ cs ∧ Hole.IsNumber digits after

/-- A text without the zero in front of every number of two digits behind a dollar sign. -/
def withoutZeros : List Char → List Char
  | '$' :: '0' :: d :: rest =>
    if Decimal.isDigit d then '$' :: d :: withoutZeros rest
    else '$' :: withoutZeros ('0' :: d :: rest)
  | c :: rest => c :: withoutZeros rest
  | [] => []

/-- A text and what is left of it, from left to right. -/
inductive DropsZeros : List Char → List Char → Prop
  | nil : DropsZeros [] []
  | zero {d : Char} {rest out : List Char} (hd : Decimal.isDigit d = true)
      (hmore : DropsZeros rest out) : DropsZeros ('$' :: '0' :: d :: rest) ('$' :: d :: out)
  | keep {c : Char} {rest out : List Char}
      (hfront : ∀ d, Decimal.isDigit d = true → ¬ ['$', '0', d] <+: c :: rest)
      (hmore : DropsZeros rest out) : DropsZeros (c :: rest) (c :: out)

theorem dropsZeros_withoutZeros (cs : List Char) : DropsZeros cs (withoutZeros cs) := by
  have hnot : ∀ {d other : Char} {rest : List Char}, Decimal.isDigit d = false →
      Decimal.isDigit other = true → ¬ ['$', '0', other] <+: '$' :: '0' :: d :: rest := by
    intro d other rest hd hother hfront
    obtain rfl : other = d := by simpa using hfront
    simp [hother] at hd
  fun_induction withoutZeros cs with
  | case1 d rest hd ih => exact .zero hd ih
  | case2 d rest hd ih => exact .keep (fun other hother => hnot (by simpa using hd) hother) ih
  | case3 c rest hshape ih =>
      refine .keep (fun d hd hfront => ?_) ih
      obtain ⟨more, hmore⟩ := hfront
      obtain ⟨rfl, rfl⟩ := List.cons.inj hmore
      exact hshape d more rfl rfl
  | case4 => exact .nil

namespace DropsZeros

theorem eq (h : DropsZeros cs out) : withoutZeros cs = out := by
  induction h with
  | nil => rfl
  | zero hd hmore ih => rw [withoutZeros, if_pos hd, ih]
  | @keep c rest out hfront hmore ih =>
      by_cases hshape : ∃ d more, c = '$' ∧ rest = '0' :: d :: more
      · obtain ⟨d, more, rfl, rfl⟩ := hshape
        have hd : ¬ Decimal.isDigit d = true := fun hd => hfront d hd ⟨more, rfl⟩
        rw [withoutZeros, if_neg hd, ih]
      · rw [withoutZeros, ih]
        exact fun d more hc hrest => hshape ⟨d, more, hc, hrest⟩

theorem head?_eq (h : DropsZeros cs out) : out.head? = cs.head? := by
  cases h <;> rfl

theorem getLast?_eq (h : DropsZeros cs out) : out.getLast? = cs.getLast? := by
  induction h with
  | nil => rfl
  | zero hd hmore ih => simp [List.getLast?_cons, ih]
  | keep hfront hmore ih => simp [List.getLast?_cons, ih]

theorem not_isInfix_mark (h : DropsZeros cs out) (hcs : ¬ ['#', '#'] <:+: cs) :
    ¬ ['#', '#'] <:+: out := by
  induction h with
  | nil => exact hcs
  | @zero d rest out hd hmore ih =>
      have hsharp : d ∉ ['#', '#'] := by
        intro hmem
        obtain rfl : d = '#' := by simpa using hmem
        exact absurd hd (by decide)
      have hrest : ¬ ['#', '#'] <:+: rest := fun hin => hcs (hin.trans ⟨['$', '0', d], [], by simp⟩)
      intro hin
      rcases Text.isInfix_append_cons hsharp (show ['#', '#'] <:+: ['$'] ++ d :: out from hin) with
        hfront | hback
      · exact absurd hfront.length_le (by decide)
      · exact ih hrest hback
  | @keep c rest out hfront hmore ih =>
      rw [List.infix_cons_iff, not_or] at hcs ⊢
      refine ⟨fun hin => hcs.1 ?_, ih hcs.2⟩
      obtain ⟨rfl, hsharp⟩ := List.cons_prefix_cons.1 hin
      have hhead := hmore.head?_eq
      refine List.cons_prefix_cons.2 ⟨rfl, ?_⟩
      obtain ⟨more, rfl⟩ := hsharp
      cases rest with
      | nil => simp at hhead
      | cons d rest =>
          obtain rfl : '#' = d := by simpa using hhead
          exact ⟨rest, rfl⟩

theorem length_le (h : DropsZeros cs out) : out.length ≤ cs.length := by
  induction h with
  | nil => exact Nat.le_refl _
  | zero hd hmore ih =>
      simp only [List.length_cons]
      omega
  | keep hfront hmore ih => simpa using ih

theorem eq_iff (h : DropsZeros cs out) :
    out = cs ↔ ∀ d, Decimal.isDigit d = true → ¬ ['$', '0', d] <:+: cs := by
  induction h with
  | nil => simp
  | @zero d rest out hd hmore ih =>
      have hshort := hmore.length_le
      constructor
      · intro heq
        have hlengths := congrArg List.length heq
        simp only [List.length_cons] at hlengths
        omega
      · intro hfree
        exact absurd ⟨[], rest, rfl⟩ (hfree d hd)
  | @keep c rest out hfront hmore ih =>
      rw [List.cons_inj_right, ih]
      constructor
      · intro hfree d hd hin
        exact (List.infix_cons_iff.1 hin).elim (hfront d hd) (hfree d hd)
      · intro hfree d hd hin
        exact hfree d hd (List.infix_cons hin)

end DropsZeros

/-! ## References as they are written out -/

namespace Hole

/-- A reference to a group, written from its number. -/
def rewritten : Hole → List Char
  | .group digits => '$' :: Decimal.digitsOf (Decimal.valueOf digits)
  | .lookup _ _ | .braces _ => []

theorem Refers.dropsZeros {hole : Hole} (h : Refers hole cs after) (hmore : DropsZeros after out) :
    DropsZeros cs (hole.rewritten ++ out) := by
  obtain ⟨hstands, digits, rfl⟩ := h
  have hkeep : ∀ {d : Char} {rest out : List Char}, Decimal.isDigit d = true →
      DropsZeros rest out → DropsZeros (d :: rest) (d :: out) := by
    intro d rest out hd hrest
    refine .keep (fun other _ hfront => ?_) hrest
    obtain ⟨rfl, -⟩ := List.cons_prefix_cons.1 hfront
    exact absurd hd (by decide)
  cases hstands with
  | group hnumber =>
      obtain ⟨hdigits, hlength⟩ := hnumber
      -- a digit by itself, then two digits of which only the first can get lost
      match digits, hdigits, hlength with
      | [a], hdigits, hlength =>
          have ha : Decimal.isDigit a = true := hdigits a (by simp)
          have hafter : NoDecimal after := by simpa using hlength
          rw [rewritten, Decimal.digitsOf_digit ha]
          refine .keep (fun d hd hfront => ?_) (hkeep ha hmore)
          obtain ⟨more, hmore⟩ := hfront
          obtain ⟨-, -, rfl⟩ : '$' = '$' ∧ '0' = a ∧ d :: more = after := by simpa using hmore
          simp [isDecimal_of_isDigit hd, NoDecimal] at hafter
      | [a, b], hdigits, _ =>
          have ha : Decimal.isDigit a = true := hdigits a (by simp)
          have hb : Decimal.isDigit b = true := hdigits b (by simp)
          by_cases hzero : a = '0'
          · subst hzero
            have hvalue : Decimal.valueOf ['0', b] = Decimal.valueOf [b] := by
              simp [Decimal.valueOf, Decimal.digitValue]
            rw [rewritten, hvalue, Decimal.digitsOf_digit hb]
            exact .zero hb hmore
          · have hpos : 0 < Decimal.valueOf [a] := by
              by_contra hnone
              have hdigit := Decimal.digitsOf_digit ha
              rw [Nat.eq_zero_of_not_pos hnone] at hdigit
              exact hzero (List.singleton_inj.1 hdigit).symm
            have hpair := Decimal.digitsOf_concat hpos hb
            rw [Decimal.digitsOf_digit ha] at hpair
            change Decimal.digitsOf (Decimal.valueOf [a, b]) = [a, b] at hpair
            rw [rewritten, hpair]
            refine .keep (fun d _ hfront => ?_) (hkeep ha (hkeep hb hmore))
            obtain ⟨-, heq⟩ := List.cons_prefix_cons.1 hfront
            exact hzero (List.cons_prefix_cons.1 heq).1.symm

/-- Outside the references no zero stands behind a dollar sign and in front of a digit. -/
theorem dropsZeros_append (hgap : IsGap Refers gap cs) (hmore : DropsZeros cs out) :
    DropsZeros (gap ++ cs) (gap ++ out) := by
  induction gap with
  | nil => exact hmore
  | cons c gap ih =>
      obtain ⟨hhere, hlater⟩ := Text.isGap_cons_iff.1 hgap
      refine .keep (fun d hd hfront => ?_) (ih hlater)
      obtain ⟨more, hmore⟩ := hfront
      have hdigits : ∀ e ∈ ['0', d], Decimal.isDigit e = true := by
        simpa [hd] using (by decide : Decimal.isDigit '0' = true)
      have hstands : Stands (.group ['0', d]) ('$' :: (['0', d] ++ more)) more :=
        .group ⟨hdigits, Or.inl rfl⟩
      have htext : c :: gap ++ cs = '$' :: (['0', d] ++ more) := hmore.symm
      rw [← htext] at hstands
      exact hhere (.group ['0', d]) more ⟨hstands, _, rfl⟩

theorem dropsZeros_fill (h : Cuts Refers cs template) :
    DropsZeros cs (template.fill rewritten) := by
  induction h with
  | @last gap hgap => simpa [Cutting.fill] using dropsZeros_append hgap .nil
  | span hgap hspan hmore ih =>
      rw [Cutting.fill_cons, List.append_assoc]
      exact dropsZeros_append hgap (hspan.dropsZeros ih)

/-- Without placeholders the references are all there is. -/
theorem cuts_stands_of_refers (h : Cuts Refers cs template) (hplaced : IsGap Placed cs []) :
    Cuts Stands cs template := by
  have hgapped : ∀ {gap cs : List Char}, IsGap Refers gap cs → IsGap Placed (gap ++ cs) [] →
      IsGap Stands gap cs := by
    intro gap cs hgap hplaced tail htail hne hole after hstands
    by_cases hgroup : hole.IsGroup
    · exact hgap tail htail hne hole after ⟨hstands, hgroup⟩
    · obtain ⟨front, rfl⟩ := htail
      refine hplaced (tail ++ cs) ⟨front, by simp⟩ (by simp [hne]) hole after ?_
      rw [List.append_nil]
      exact ⟨hstands, hgroup⟩
  induction h with
  | last hgap => exact .last (hgapped hgap (by simpa using hplaced))
  | @span gap cs after last hole spans hgap hspan hmore ih =>
      obtain ⟨c, rest, rfl, hsuffix⟩ := takesOff_refers _ _ _ hspan
      have hbehind : after <:+ gap ++ c :: rest :=
        (hsuffix.trans (List.suffix_cons c rest)).trans (List.suffix_append _ _)
      exact .span (hgapped hgap hplaced) hspan.1
        (ih (Text.isGap_of_isInfix grows_placed hplaced hbehind.isInfix))

end Hole

end Rule

namespace Finding

open BookRules.Rule (Hole IsBare RefersBy withoutZeros)
open BookRules.Text (Cutting Cuts)

variable {rule : String} {s : Session} {cs : List Char}

/-- A rule of words and of dollar signs with digits behind them. -/
structure HasDollars (rule : String) : Prop where
  bare : IsBare rule.toList
  unmarked : ¬ ['#', '#'] <:+: rule.toList
  unprefixed : Rule.hasPrefix (Text.trim rule.toList) = false
  dollar : ∃ d, Decimal.isDigit d = true ∧ ['$', d] <:+: Text.trim rule.toList

theorem HasDollars.trim_ne_nil (h : HasDollars rule) : Text.trim rule.toList ≠ [] := by
  obtain ⟨d, -, hin⟩ := h.dollar
  intro hnil
  rw [hnil] at hin
  simp at hin

theorem HasDollars.unmarked_trim (h : HasDollars rule) :
    ¬ ['#', '#'] <:+: Text.trim rule.toList :=
  fun hin => h.unmarked (hin.trans (Text.trim_isInfix _))

theorem valueText?_rewritten {context : Context} {content : Node} {digits : List Char}
    (hcontent : contentOf content ≠ .groups) :
    valueText? context content (.group (Decimal.valueOf digits)) =
      some (String.ofList (Hole.group digits).rewritten) := by
  have hwritten : "$" ++ toString (Decimal.valueOf digits) =
      String.ofList (Hole.group digits).rewritten := by
    apply String.toList_inj.1
    simp [Hole.rewritten, Decimal.digitsOf, Nat.toString_eq_repr]
  cases content with
  | groups => exact absurd rfl hcontent
  | element | json | text => exact congrArg some hwritten

/-- Where a reference is read the rule is a template, and its text without zeros is found. -/
theorem HasDollars.string?_of_refers (h : HasDollars rule) (hdepth : s.depth < Limits.ruleDepth)
    (hcontent : contentOf s.content ≠ .groups)
    (hrefers : ∃ digits, RefersBy digits (Text.trim rule.toList)) :
    ((Bound.string? rule).run s).1 =
      some (String.ofList (withoutZeros (Text.trim rule.toList))) := by
  have hbare : IsBare (Text.trim rule.toList) := h.bare.of_isInfix (Text.trim_isInfix _)
  obtain ⟨template, hcuts⟩ := Text.exists_cuts Hole.takesOff_refers (Text.trim rule.toList)
  have hfilled : template.spans ≠ [] := by
    intro hnil
    obtain ⟨digits, after, hsuffix, hnumber⟩ := hrefers
    generalize Text.trim rule.toList = cs at hcuts hsuffix
    cases hcuts with
    | last hgap =>
        refine hgap _ hsuffix (by simp) (.group digits) after ⟨?_, _, rfl⟩
        rw [List.append_nil]
        exact .group hnumber
    | span => cases hnil
  have hgaps : ∀ gap ∈ template.gaps, ¬ ['#', '#'] <:+: gap := fun gap hgap hmark =>
    h.unmarked_trim (hmark.trans (hcuts.isInfix_of_mem_gaps Hole.takesOff_refers hgap))
  have hbody : (Rule.Mode.detect (contentOf s.content) (Text.trim rule.toList)).2 =
      Text.trim rule.toList := by
    rw [Rule.detect_of_not_hasPrefix _ h.unprefixed]
  obtain ⟨stage, hpipeline, hmode, hbindings, htemplate, hsegments⟩ :=
    Rule.exists_pipeline_eq_of_cuts (Hole.cuts_stands_of_refers hcuts hbare.unplaced) hfilled hgaps
      h.bare.unscripted hbare.splitPuts_eq hbody
  have hreads : Reads s.context s.content stage.segments (template.fill Hole.rewritten) := by
    rw [hsegments]
    apply reads_of_values
    intro part hpart
    obtain ⟨rest, after, -, digits, hgroup⟩ := hcuts.exists_stands hpart
    rw [hgroup]
    exact valueText?_rewritten hcontent
  have hdrops := Hole.dropsZeros_fill hcuts
  have hstring := string?_of_reads hdepth hpipeline hmode hbindings htemplate hreads
  dsimp only at hstring
  have htrim : Text.trim (template.fill Hole.rewritten) = template.fill Hole.rewritten := by
    rw [Text.trim_eq_self_iff, hdrops.head?_eq, hdrops.getLast?_eq, ← Text.trim_eq_self_iff,
      Text.trim_trim]
  have hne : template.fill Hole.rewritten ≠ [] := by
    intro hnil
    have hhead := hdrops.head?_eq
    rw [hnil, List.head?_nil, eq_comm, List.head?_eq_none_iff] at hhead
    exact h.trim_ne_nil hhead
  rw [hstring, Rule.splitReplacement_eq (hdrops.not_isInfix_mark h.unmarked_trim), htrim, hdrops.eq]
  simp [afterReplacement, hne]

/-- Where no reference is read the rule is a selector. -/
theorem HasDollars.string?_of_not_refers (h : HasDollars rule) (hdepth : s.depth < Limits.ruleDepth)
    (hcontent : contentOf s.content ≠ .groups)
    (hrefers : ¬ ∃ digits, RefersBy digits (Text.trim rule.toList)) :
    ((Bound.string? rule).run s).1 =
      (Found.list (Select.strings
        (Rule.bareMode (contentOf s.content) (Text.trim rule.toList)) (Text.trimmed rule)
        s.content.structured)).text? := by
  have hunreferenced : Rule.Unreferenced (Text.trim rule.toList) := by
    rintro front rest hole after htext - ⟨hstands, digits, rfl⟩
    cases hstands with
    | group hnumber => exact hrefers ⟨digits, after, ⟨front, htext⟩, hnumber⟩
  have hdetect := Rule.detect_of_not_hasPrefix (contentOf s.content) h.unprefixed
  have hparse := (h.bare.of_isInfix (Text.trim_isInfix _)).parse_eq (Text.trim_trim _)
    (contentOf s.content) (by rwa [hdetect])
  rw [hdetect, Rule.splitReplacement_eq h.unmarked_trim, Text.trim_trim] at hparse
  have hpipeline : Rule.pipeline (contentOf s.content) rule =
      [{ mode := Rule.bareMode (contentOf s.content) (Text.trim rule.toList)
         expression := Text.trimmed rule }] := by
    rw [h.bare.pipeline_eq, Rule.gapStages, if_neg h.trim_ne_nil, hparse]
    rfl
  have hmode : Rule.bareMode (contentOf s.content) (Text.trim rule.toList) ∈
      [.css, .xpath, .jsonPath] :=
    Rule.bareMode_mem hcontent _
  have hrun : ∀ fuel, ((run (fuel + 1) .string rule).run s).1 =
      some (.text ("\n".intercalate (Select.strings
        (Rule.bareMode (contentOf s.content) (Text.trim rule.toList)) (Text.trimmed rule)
        s.content.structured))) := by
    intro fuel
    have hstage := runStage_of_selector (nestedText fuel) hmode (Text.trimmed rule) s.content
    rw [run_of_single hdepth hpipeline]
    exact congrArg some (hstage _)
  have htext := string?_eq_of_run (hrun 15)
  exact htext

/-- A rule with dollar signs in front of digits stays as it is written, except that a reference
loses the zero in front of a number of two digits; where every digit behind a dollar sign is
followed by a decimal digit of another script, the rule is a selector. -/
theorem references_written_as_numbers (h : HasDollars rule) (hdepth : s.depth < Limits.ruleDepth)
    (hcontent : contentOf s.content ≠ .groups) :
    let text := Text.trim rule.toList
    let found := ((Bound.string? rule).run s).1
    ((∃ digits, RefersBy digits text) →
      found = some (String.ofList (withoutZeros text)) ∧
      (found = some (Text.trimmed rule) ↔
        ∀ d, Decimal.isDigit d = true → ¬ ['$', '0', d] <:+: text)) ∧
    ((¬ ∃ digits, RefersBy digits text) →
      found = (Found.list (Select.strings (Rule.bareMode (contentOf s.content) text)
        (Text.trimmed rule) s.content.structured)).text?) := by
  intro text found
  refine ⟨fun hrefers => ?_, h.string?_of_not_refers hdepth hcontent⟩
  have hfound := h.string?_of_refers hdepth hcontent hrefers
  refine ⟨hfound, ?_⟩
  rw [← (Rule.dropsZeros_withoutZeros text).eq_iff]
  change ((Bound.string? rule).run s).1 = some (String.ofList text) ↔ _
  rw [hfound, Option.some.injEq, String.ofList_inj]

theorem hasDollars_zero : HasDollars "$01" where
  bare := .of_closesNothing (by decide)
  unmarked := by decide
  unprefixed := by decide
  dollar := ⟨'0', by decide, by decide⟩

theorem refersBy_zero : RefersBy ['0', '1'] (Text.trim "$01".toList) :=
  have hdigits : ['0', '1'].all Decimal.isDigit = true := by decide
  ⟨[], by decide, List.all_eq_true.1 hdigits, Or.inl rfl⟩

theorem references_written_as_numbers_zero :
    let s : Session := { context := {}, content := .text "x" }
    HasDollars "$01" ∧ s.depth < Limits.ruleDepth ∧ contentOf s.content ≠ .groups ∧
      ((Bound.string? "$01").run s).1 = some "$1" := by
  intro s
  have hdepth : s.depth < Limits.ruleDepth := by decide
  have hcontent : contentOf s.content ≠ .groups := by decide
  have hall := references_written_as_numbers hasDollars_zero hdepth hcontent
  exact ⟨hasDollars_zero, hdepth, hcontent, (hall.1 ⟨_, refersBy_zero⟩).1⟩

/-- The zero of a reference is lost. -/
theorem not_written_of_leading_zero :
    ¬ ∀ (s : Session) (rule : String), s.depth < Limits.ruleDepth →
      contentOf s.content ≠ .groups → HasDollars rule →
      ((Bound.string? rule).run s).1 = some (Text.trimmed rule) := by
  intro hall
  let s : Session := { context := {}, content := .text "x" }
  have hdepth : s.depth < Limits.ruleDepth := by decide
  have hcontent : contentOf s.content ≠ .groups := by decide
  have hcall := hall s "$01" hdepth hcontent hasDollars_zero
  rw [hasDollars_zero.string?_of_refers hdepth hcontent ⟨_, refersBy_zero⟩] at hcall
  revert hcall
  decide

end Finding

end BookRules
