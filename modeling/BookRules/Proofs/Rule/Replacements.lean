import BookRules.Proofs.Rule.BareTexts

/-!
# Rules with a replacement behind them

A rule and a replacement are put together with `##`, and `###` at the end asks for the first
match alone.  Where neither of them holds the mark or reaches into one, the whole is cut where
it was put together, so its stage is the stage of the rule with the replacement added to it.
-/

namespace BookRules.Rule

open Text (Cutting Cuts IsGap isBlank)

/-- A rule with a replacement behind it. -/
def withReplacement (rule pattern replacement : String) (firstOnly : Bool) : String :=
  rule ++ "##" ++ pattern ++ "##" ++ replacement ++ if firstOnly then "###" else ""

/-- What is asked of a rule and a replacement that are put together. -/
structure TakesReplacement (rule pattern replacement : String) : Prop where
  bare : IsBare (withReplacement rule pattern replacement false).toList
  rule_unmarked : ¬ ['#', '#'] <:+: rule.toList
  rule_ends : rule.toList.getLast? ≠ some '#'
  rule_unreferenced : ∀ tail, tail <:+ rule.toList → beginsReference tail = false
  pattern_nonempty : pattern ≠ ""
  pattern_unmarked : ¬ ['#', '#'] <:+: pattern.toList
  pattern_ends : pattern.toList.getLast? ≠ some '#'
  replacement_unmarked : ¬ ['#', '#'] <:+: replacement.toList
  replacement_ends : replacement.toList.getLast? ≠ some '#'
  replacement_solid : ∀ c ∈ replacement.toList.getLast?, isBlank c = false

variable {content : Content} {rule pattern replacement : String} {firstOnly : Bool}
variable {selector : Stage} {cs gap between : List Char}

/-- What stands behind the rule. -/
def suffix (pattern replacement : String) (firstOnly : Bool) : List Char :=
  '#' :: '#' :: (pattern.toList ++ '#' :: '#' ::
    (replacement.toList ++ if firstOnly then ['#', '#', '#'] else []))

theorem toList_withReplacement : (withReplacement rule pattern replacement firstOnly).toList =
    rule.toList ++ suffix pattern replacement firstOnly := by
  cases firstOnly <;> simp [withReplacement, suffix, String.toList_append]

/-! ## Splitting at the marks -/

theorem not_isInfix_concat (h : ¬ ['#', '#'] <:+: cs) (hends : cs.getLast? ≠ some '#') :
    ¬ ['#', '#'] <:+: cs ++ ['#'] := by
  rw [List.infix_concat_iff, not_or]
  refine ⟨fun hsuffix => hends ?_, h⟩
  obtain ⟨front, hfront⟩ := hsuffix
  have hcs : front ++ ['#'] = cs := by
    have hconcat : front ++ ['#'] ++ ['#'] = cs ++ ['#'] := by simpa using hfront
    exact List.append_cancel_right hconcat
  rw [← hcs]
  simp

/-- A text that ends in front of a mark is a piece. -/
theorem cuts_append_mark {cutting : Cutting Unit} (h : ¬ ['#', '#'] <:+: gap ++ ['#'])
    (hmore : Cuts (Text.Occurs ['#', '#']) cs cutting) :
    Cuts (Text.Occurs ['#', '#']) (gap ++ '#' :: '#' :: cs)
      ⟨(gap, ()) :: cutting.spans, cutting.last⟩ :=
  .span (Text.isGap_occurs h cs) rfl hmore

theorem splitReplacement_suffix (hgap : ¬ ['#', '#'] <:+: gap ++ ['#'])
    (h : TakesReplacement rule pattern replacement) (firstOnly : Bool) :
    splitReplacement (gap ++ suffix pattern replacement firstOnly) =
      { rule := String.ofList (Text.trim gap), pattern := pattern, replacement := replacement,
        firstOnly := firstOnly } := by
  have hpattern := not_isInfix_concat h.pattern_unmarked h.pattern_ends
  have hparts : Text.splitAll ['#', '#'] (gap ++ suffix pattern replacement firstOnly) =
      [gap, pattern.toList, replacement.toList] ++ if firstOnly then [['#']] else [] := by
    cases firstOnly with
    | false =>
        have hlast : Cuts (Text.Occurs ['#', '#']) (replacement.toList ++ [])
            ⟨[], replacement.toList ++ []⟩ :=
          .last (Text.isGap_occurs_nil (by simpa using h.replacement_unmarked))
        have hcuts := cuts_append_mark hgap (cuts_append_mark hpattern hlast)
        rw [suffix, if_neg (by simp), Text.splitAll_eq_gaps (by simp) hcuts]
        simp [Cutting.gaps]
    | true =>
        have hlast : Cuts (Text.Occurs ['#', '#']) ['#'] ⟨[], ['#']⟩ :=
          .last (Text.isGap_occurs_nil (by decide))
        have hreplacement := not_isInfix_concat h.replacement_unmarked h.replacement_ends
        have hcuts := cuts_append_mark hgap
          (cuts_append_mark hpattern (cuts_append_mark hreplacement hlast))
        rw [suffix, if_pos rfl, Text.splitAll_eq_gaps (by simp) hcuts]
        simp [Cutting.gaps]
  unfold splitReplacement
  rw [hparts]
  cases firstOnly <;> simp

/-! ## The stage of the whole -/

theorem trimEnd_suffix (h : TakesReplacement rule pattern replacement) (firstOnly : Bool) :
    Text.trimEnd (suffix pattern replacement firstOnly) = suffix pattern replacement firstOnly := by
  apply Text.trimEnd_eq_self
  intro c hc
  rcases List.eq_nil_or_concat replacement.toList with hnil | ⟨front, last, hconcat⟩
  · have hlast : (suffix pattern replacement firstOnly).getLast? = some '#' := by
      cases firstOnly <;> simp [suffix, hnil, List.getLast?_append, List.getLast?_cons]
    rw [hlast] at hc
    cases hc
    decide
  · cases firstOnly with
    | false =>
        have hlast : (suffix pattern replacement false).getLast? = replacement.toList.getLast? := by
          simp [suffix, hconcat, List.getLast?_append, List.getLast?_cons]
        rw [hlast] at hc
        exact h.replacement_solid c hc
    | true =>
        have hlast : (suffix pattern replacement true).getLast? = some '#' := by
          simp [suffix, List.getLast?_append, List.getLast?_cons]
        rw [hlast] at hc
        cases hc
        decide

theorem beginsReference_of_refers {hole : Hole} {after : List Char}
    (h : Hole.Refers hole cs after) : beginsReference cs = true := by
  obtain ⟨hstands, digits, rfl⟩ := h
  cases hstands with
  | group hnumber =>
      cases digits with
      | nil => simp [Hole.IsNumber] at hnumber
      | cons d digits => exact hnumber.1 d List.mem_cons_self

/-- A reference in front of the mark would be one of the rule. -/
theorem unreferenced_append {back : List Char}
    (hgap : ∀ tail, tail <:+ gap → beginsReference tail = false)
    (hback : back = [] ∨ Segment.replacementMark <+: back) : Unreferenced (gap ++ back) := by
  intro front rest hole after htext hfront hrefers
  have hnumber : Hole.NoDecimal back := by
    rcases hback with rfl | ⟨more, rfl⟩
    · exact Hole.noDecimal_nil
    · exact Hole.noDecimal_sharp _
  obtain ⟨c, more, rfl, hc⟩ := hrefers.exists_cons
  obtain ⟨tail, hne, rfl, htail⟩ := Segment.exists_front_append htext hc hfront hback
  rw [htail] at hrefers
  obtain ⟨after, hshort⟩ := hrefers.of_append hne hnumber
  have hbegins := beginsReference_of_refers hshort
  rw [hgap tail (List.suffix_append front tail)] at hbegins
  cases hbegins

/-- The blanks that stand behind a rule stand in front of the mark. -/
theorem trim_withReplacement (h : TakesReplacement rule pattern replacement)
    (hrule : Text.trim rule.toList ≠ []) (firstOnly : Bool) :
    ∃ between, (∀ c ∈ between, isBlank c = true) ∧
      Text.trim rule.toList ++ between <:+ rule.toList ∧
      Text.trim (withReplacement rule pattern replacement firstOnly).toList =
        Text.trim rule.toList ++ between ++ suffix pattern replacement firstOnly := by
  obtain ⟨between, hbetween, hstart⟩ :=
    Text.exists_trimEnd_append_blank (Text.trimStart rule.toList)
  have hrest : Text.trim rule.toList ++ between = Text.trimStart rule.toList := hstart
  have hnonblank : Text.trimStart rule.toList ≠ [] := by
    intro hnil
    exact hrule (by rw [Text.trim, hnil]; rfl)
  have hsuffix : Text.trimEnd (suffix pattern replacement firstOnly) ≠ [] := by
    rw [trimEnd_suffix h]
    simp [suffix]
  refine ⟨between, hbetween, ?_, ?_⟩
  · rw [hrest]
    exact Text.trimStart_isSuffix _
  · rw [toList_withReplacement, Text.trim, Text.trimStart_append hnonblank,
      Text.trimEnd_append hsuffix, trimEnd_suffix h, hrest]

/-- The mode of a rule is that of the whole, and the replacement stands behind its body. -/
theorem detect_append_suffix (content : Content) (cs : List Char)
    (hbetween : ∀ c ∈ between, isBlank c = true) (pattern replacement : String)
    (firstOnly : Bool) :
    Mode.detect content (cs ++ between ++ suffix pattern replacement firstOnly) =
      ((Mode.detect content cs).1,
        (Mode.detect content cs).2 ++ between ++ suffix pattern replacement firstOnly) := by
  cases between with
  | nil =>
      have hsharp : '#' ∉ modeChars := by decide
      simpa [suffix] using detect_append_cons content (by decide) hsharp cs _
  | cons c rest =>
      obtain ⟨hmode, hlower⟩ := not_mem_modeChars (Or.inl (hbetween c List.mem_cons_self))
      simpa using detect_append_cons content hlower hmode cs
        (rest ++ suffix pattern replacement firstOnly)

/-- A rule that has a stage is not blank. -/
theorem trim_ne_nil_of_pipeline (hsingle : pipeline content rule = [selector]) :
    Text.trim rule.toList ≠ [] := by
  intro hnil
  have hblank : Text.isBlankText rule = true := List.all_eq_true.2 (Text.trim_eq_nil_iff.1 hnil)
  rw [pipeline_of_blank content hblank] at hsingle
  cases hsingle

theorem unreferenced_of_isInfix (h : ∀ tail, tail <:+ cs → beginsReference tail = false)
    (hpart : gap <:+: cs) : Unreferenced gap := by
  obtain ⟨before, after, rfl⟩ := hpart
  rw [← List.append_nil gap]
  refine unreferenced_append (fun tail htail => ?_) (Or.inl rfl)
  obtain ⟨front, rfl⟩ := htail
  exact beginsReference_of_append (h (tail ++ after) ⟨before ++ front, by simp⟩)

/-- A rule without a replacement and without references is one expression. -/
theorem IsBare.pipeline_of_unreferenced (h : IsBare rule.toList)
    (hunmarked : ¬ ['#', '#'] <:+: rule.toList)
    (hunreferenced : ∀ tail, tail <:+ rule.toList → beginsReference tail = false)
    (hrule : Text.trim rule.toList ≠ []) (content : Content) :
    pipeline content rule =
      [{ mode := (Mode.detect content (Text.trim rule.toList)).1
         expression := String.ofList
           (Text.trim (Mode.detect content (Text.trim rule.toList)).2) }] := by
  have htrim : Text.trim rule.toList <:+: rule.toList := Text.trim_isInfix _
  have hbody : (Mode.detect content (Text.trim rule.toList)).2 <:+: rule.toList :=
    (Mode.detect_isSuffix content _).isInfix.trans htrim
  rw [h.pipeline_eq, gapStages, if_neg hrule,
    (h.of_isInfix htrim).parse_eq (Text.trim_trim _) content
      (unreferenced_of_isInfix hunreferenced hbody),
    splitReplacement_eq fun hmark => hunmarked (hmark.trans hbody)]

namespace TakesReplacement

theorem bare_rule (h : TakesReplacement rule pattern replacement) : IsBare rule.toList := by
  apply h.bare.of_isInfix
  rw [toList_withReplacement]
  exact (List.prefix_append _ _).isInfix

theorem bare_withReplacement (h : TakesReplacement rule pattern replacement) (firstOnly : Bool) :
    IsBare (withReplacement rule pattern replacement firstOnly).toList := by
  cases firstOnly with
  | false => exact h.bare
  | true =>
      have hsharps : ∀ c ∈ ['#', '#', '#'], ClosesNothing c := by
        simp [ClosesNothing]
      simpa [withReplacement, String.toList_append] using h.bare.append hsharps

theorem not_isInfix_concat_of_isSuffix (h : TakesReplacement rule pattern replacement)
    (hgap : gap <:+ rule.toList) : ¬ ['#', '#'] <:+: gap ++ ['#'] := by
  intro hmark
  obtain ⟨front, hfront⟩ := hgap
  refine not_isInfix_concat h.rule_unmarked h.rule_ends (hmark.trans ⟨front, [], ?_⟩)
  simp [← hfront]

/-- Nothing stands in the rule that is put beside the expression. -/
theorem rule_pipeline_eq (h : TakesReplacement rule pattern replacement)
    (hrule : Text.trim rule.toList ≠ []) (content : Content) :
    pipeline content rule =
      [{ mode := (Mode.detect content (Text.trim rule.toList)).1
         expression := String.ofList
           (Text.trim (Mode.detect content (Text.trim rule.toList)).2) }] :=
  h.bare_rule.pipeline_of_unreferenced h.rule_unmarked h.rule_unreferenced hrule content

/-- The stage of the whole is that of the rule, with the replacement beside it. -/
theorem pipeline_eq (h : TakesReplacement rule pattern replacement)
    (hsingle : pipeline content rule = [selector]) (firstOnly : Bool) :
    selector = { mode := selector.mode, expression := selector.expression } ∧
      pipeline content (withReplacement rule pattern replacement firstOnly) =
        [{ selector with pattern := pattern, replacement := replacement,
                         firstOnly := firstOnly }] := by
  have hrule := trim_ne_nil_of_pipeline hsingle
  rw [h.rule_pipeline_eq hrule] at hsingle
  obtain rfl := List.singleton_inj.1 hsingle
  refine ⟨rfl, ?_⟩
  obtain ⟨between, hbetween, hbehind, htrim⟩ := trim_withReplacement h hrule firstOnly
  have hbody := Mode.detect_isSuffix content (Text.trim rule.toList)
  have hgap : (Mode.detect content (Text.trim rule.toList)).2 ++ between <:+ rule.toList :=
    (List.suffix_append_self_iff.2 hbody).trans hbehind
  have hdetect := detect_append_suffix content (Text.trim rule.toList) hbetween pattern replacement
    firstOnly
  have hunreferenced := unreferenced_append
    (fun tail htail => h.rule_unreferenced tail (htail.trans hgap))
    (Or.inr (List.prefix_append Segment.replacementMark _) :
      suffix pattern replacement firstOnly = [] ∨ _)
  have hbare := (h.bare_withReplacement firstOnly).of_isInfix (Text.trim_isInfix _)
  have hparts := splitReplacement_suffix (h.not_isInfix_concat_of_isSuffix hgap) h firstOnly
  rw [(h.bare_withReplacement firstOnly).pipeline_eq, gapStages, htrim, if_neg (by simp [suffix])]
  rw [htrim] at hbare
  rw [hbare.parse_eq (by rw [← htrim, Text.trim_trim]) content (by rwa [hdetect]), hdetect,
    hparts, Text.trim_append_blank hbetween]

theorem head?_trim (h : TakesReplacement rule pattern replacement)
    (hrule : Text.trim rule.toList ≠ []) (firstOnly : Bool) :
    (Text.trim (withReplacement rule pattern replacement firstOnly).toList).head? =
      (Text.trim rule.toList).head? := by
  obtain ⟨between, -, -, htrim⟩ := trim_withReplacement h hrule firstOnly
  obtain ⟨c, rest, hcons⟩ := List.exists_cons_of_ne_nil hrule
  rw [htrim, hcons]
  rfl

end TakesReplacement

/-- Blanks around a rule without scripts are no part of it. -/
theorem IsBare.pipeline_trimmed (h : IsBare rule.toList) (content : Content) :
    pipeline content (Text.trimmed rule) = pipeline content rule := by
  have hchars : (Text.trimmed rule).toList = Text.trim rule.toList := by simp [Text.trimmed]
  have htrimmed : IsBare (Text.trimmed rule).toList := by
    rw [hchars]
    exact h.of_isInfix (Text.trim_isInfix _)
  rw [htrimmed.pipeline_eq, h.pipeline_eq, gapStages, gapStages, hchars, Text.trim_trim]

end BookRules.Rule
