import BookRules.Proofs.Finding.Independence
import BookRules.Proofs.Rule.PlainRules
import BookRules.Proofs.Select.Composition

/-!
# Falling back

The text of `a||b` is the text of `a` if that rule finds one, and the text of `b` otherwise.
That `a` finds nothing is decided twice, once where the texts of the two fragments are merged
and once where the merged texts have become one.  For rules for pages the two agree, because
no extraction gives an empty text.  In JSON a path can lead to an empty text, and a single
empty text counts as found while merging but as nothing afterwards; then, and only then, the
second rule is not asked.
-/

namespace BookRules.Select

open BookRules.Rule

/-- How the rules of a mode are split. -/
def dialectOf : Mode → Dialect
  | .jsonPath => .script
  | .css | .xpath | .script | .template => .rule

/-- The texts of one fragment. -/
def fragmentStrings (mode : Mode) (node : Node) : String → List String :=
  match mode with
  | .css => fun fragment => CssRule.orNothing (CssRule.fragmentStrings false [node.page] fragment)
  | .xpath => XPathRule.fragmentStrings [node.page]
  | .jsonPath => JsonRule.fragmentStrings node.value
  | .script | .template => fun _ => []

variable {mode : Mode} {node : Node}

theorem not_isMarked_of_not_hasPrefix {rule : String}
    (h : hasPrefix (Text.trim rule.toList) = false) : ¬ CssRule.IsMarked (Text.trimmed rule) := by
  have hmark := (hasPrefix_eq_false_iff.1 h).1 CssRule.literalMark (by decide)
  simp [CssRule.IsMarked, Text.trimmed, hmark]

/-- Every selector splits its rule and merges the texts of the fragments. -/
theorem strings_eq_merge {rule : String} (h : hasPrefix (Text.trim rule.toList) = false) :
    strings mode (Text.trimmed rule) node =
      (split (dialectOf mode) Combinator.tokens rule).kind.merge (fragmentStrings mode node)
        (split (dialectOf mode) Combinator.tokens rule).fragments := by
  cases mode with
  | css =>
      rw [strings, CssRule.strings_of_not_isMarked (not_isMarked_of_not_hasPrefix h), split_trimmed]
      rfl
  | xpath =>
      rw [strings, XPathRule.strings, split_trimmed]
      rfl
  | jsonPath =>
      rw [strings, JsonRule.strings_eq_merge, split_trimmed]
      rfl
  | script => exact (Combinator.merge_nothing _ _).symm
  | template => exact (Combinator.merge_nothing _ _).symm

/-! ## No empty texts from pages -/

theorem empty_not_mem_apply (extraction : Extraction) (elements : List Markup.Element) :
    "" ∉ extraction.apply elements := by
  cases extraction <;> simp [Extraction.apply, Text.isBlankText]

/-- Extracting from elements that may not be found. -/
theorem empty_not_mem_orNothing (extraction : Extraction)
    (elements : Except RuleError (List Markup.Element)) :
    "" ∉ CssRule.orNothing (do return extraction.apply (← elements)) := by
  cases elements with
  | error => simp [CssRule.orNothing, bind, Except.bind]
  | ok found => exact empty_not_mem_apply extraction found

theorem empty_not_mem_cssFragment (literal : Bool) (scope : List Markup.Element)
    (fragment : String) :
    "" ∉ CssRule.orNothing (CssRule.fragmentStrings literal scope fragment) := by
  cases literal with
  | true =>
      unfold CssRule.fragmentStrings
      rw [if_pos rfl]
      rcases CssRule.splitLiteral fragment with ⟨selector, extraction⟩
      dsimp only
      split_ifs
      · exact empty_not_mem_orNothing extraction (pure scope)
      · exact empty_not_mem_orNothing extraction (CssRule.matching scope selector)
  | false => exact empty_not_mem_orNothing _ _

theorem empty_not_mem_cssStrings (scope : List Markup.Element) (rule : String) :
    "" ∉ CssRule.strings scope rule := by
  intro hmem
  obtain ⟨fragment, -, hfragment⟩ := Combinator.mem_merge hmem
  exact empty_not_mem_cssFragment _ scope fragment hfragment

theorem empty_not_mem_xpathStrings (scope : List Markup.Element) (rule : String) :
    "" ∉ XPathRule.strings scope rule := by
  intro hmem
  obtain ⟨fragment, -, hfragment⟩ := Combinator.mem_merge hmem
  rw [XPathRule.fragmentStrings] at hfragment
  split at hfragment
  next => exact empty_not_mem_cssStrings _ _ hfragment
  next => exact empty_not_mem_cssStrings _ _ hfragment

/-- No rule for pages selects an empty text. -/
theorem empty_not_mem_strings (hmode : mode ≠ .jsonPath) (rule : String) (node : Node) :
    "" ∉ strings mode rule node := by
  cases mode with
  | css => exact empty_not_mem_cssStrings _ rule
  | xpath => exact empty_not_mem_xpathStrings _ rule
  | jsonPath => exact absurd rfl hmode
  | script => simp [strings]
  | template => simp [strings]

/-- Two operands select what the first one selects, and what the second one selects if that
is nothing. -/
theorem strings_or {a b : String} (hbareA : hasPrefix (Text.trim a.toList) = false)
    (hbareB : hasPrefix (Text.trim b.toList) = false)
    (ha : IsOperand (dialectOf mode) "||" a) (hb : IsLastOperand (dialectOf mode) b) :
    strings mode (Text.trimmed (a ++ "||" ++ b)) node =
      Combinator.or.join (strings mode (Text.trimmed a) node)
        (strings mode (Text.trimmed b) node) := by
  have hchars : (a ++ "||" ++ b).toList = a.toList ++ '|' :: '|' :: b.toList := by simp
  have hbare : hasPrefix (Text.trim (a ++ "||" ++ b).toList) = false := by
    rw [hchars]
    exact (detect_or .json ha.nonblank hb.nonblank hbareA).1
  rw [strings_eq_merge hbare, strings_eq_merge hbareA, strings_eq_merge hbareB,
    split_operands (by decide) ha hb, ha.isLastOperand.split_eq, hb.split_eq,
    Combinator.merge_singleton, Combinator.merge_singleton]
  exact Combinator.merge_pair .or _ _ _

end BookRules.Select

namespace BookRules.Finding

open BookRules.Rule (IsPlain IsOperand IsLastOperand hasPrefix bareMode)
open BookRules.Select (dialectOf)

/-- A selector that is read in a mode without naming it. -/
structure IsSelector (content : Rule.Content) (mode : Rule.Mode) (rule : String) : Prop where
  plain : IsPlain rule.toList
  nonblank : Text.trim rule.toList ≠ []
  unprefixed : hasPrefix (Text.trim rule.toList) = false
  detected : (Rule.Mode.detect content (Text.trim rule.toList)).1 = mode

instance (content : Rule.Content) (mode : Rule.Mode) (rule : String) :
    Decidable (IsSelector content mode rule) :=
  decidable_of_iff
    (IsPlain rule.toList ∧ Text.trim rule.toList ≠ [] ∧
      hasPrefix (Text.trim rule.toList) = false ∧
      (Rule.Mode.detect content (Text.trim rule.toList)).1 = mode)
    ⟨fun ⟨hplain, hnonblank, hbare, hmode⟩ => ⟨hplain, hnonblank, hbare, hmode⟩,
      fun ⟨hplain, hnonblank, hbare, hmode⟩ => ⟨hplain, hnonblank, hbare, hmode⟩⟩

variable {content : Rule.Content} {mode : Rule.Mode} {rule a b : String} {s : Session}

theorem IsSelector.bareMode_eq (h : IsSelector content mode rule) :
    bareMode content (Text.trim rule.toList) = mode := by
  rw [← h.detected, Rule.detect_of_not_hasPrefix content h.unprefixed]

theorem IsSelector.pipeline_eq (h : IsSelector content mode rule) :
    Rule.pipeline content rule = [{ mode := mode, expression := Text.trimmed rule }] := by
  rw [h.plain.pipeline_eq h.nonblank h.unprefixed, h.bareMode_eq]

/-- What is no template or script is a selector. -/
theorem IsSelector.mode_mem (h : IsSelector content mode rule) (hcontent : content ≠ .groups) :
    mode ∈ [.css, .xpath, .jsonPath] := by
  rw [← h.bareMode_eq]
  exact Rule.bareMode_mem hcontent _

/-- Two selectors of a mode with a combinator between them are a selector of it. -/
theorem IsSelector.or (ha : IsSelector content mode a) (hb : IsSelector content mode b) :
    IsSelector content mode (a ++ "||" ++ b) := by
  have hchars : (a ++ "||" ++ b).toList = a.toList ++ '|' :: '|' :: b.toList := by simp
  obtain ⟨hbare, hmode⟩ := Rule.detect_or content ha.nonblank hb.nonblank ha.unprefixed
  rw [← hchars] at hbare hmode
  constructor
  · rw [hchars]
    exact ha.plain.or hb.plain
  · obtain ⟨c, rest, -, htrim⟩ := Rule.exists_trim_or ha.nonblank hb.nonblank
    rw [hchars, htrim]
    simp
  · exact hbare
  · rw [Rule.detect_of_not_hasPrefix content hbare, hmode, ha.bareMode_eq]

/-! ## The text of a selector -/

theorem text?_list_eq_none_iff {items : List String} :
    (Found.list items).text? = none ↔ items = [] ∨ items = [""] := by
  match items with
  | [] => simp [Found.text?, Found.toText]
  | [item] => simp [Found.text?, Found.toText]
  | item :: other :: rest => simp [Found.text?, Found.toText, String.intercalate_cons_cons]

/-- A selector starts from the structure of a node. -/
theorem runStage_of_selector (nested : Nested) (hmode : mode ∈ [.css, .xpath, .jsonPath])
    (rule : String) (node : Node) (s : Session) :
    ((runStage nested .string (.node node) { mode := mode, expression := rule }).run s).1 =
      .text ("\n".intercalate (Select.strings mode rule node.structured)) := by
  have hfind : ((find mode rule .string (.node node)).run s).1 =
      .text ("\n".intercalate ([node.structured].flatMap (Select.strings mode rule))) := by
    simp only [List.mem_cons, List.not_mem_nil, or_false] at hmode
    rcases hmode with rfl | rfl | rfl <;> rfl
  simpa [runStage, resolve, bindVariables, Rule.Stage.isTemplate, replaced] using hfind

theorem IsSelector.run_eq (h : IsSelector (contentOf s.content) mode rule)
    (hcontent : contentOf s.content ≠ .groups) {fuel : Nat} (hfuel : 0 < fuel) :
    ((run fuel .string rule).run s).1 =
      if Limits.ruleDepth ≤ s.depth then none
      else some (.text ("\n".intercalate
        (Select.strings mode (Text.trimmed rule) s.content.structured))) := by
  obtain ⟨fuel, rfl⟩ : ∃ less, fuel = less + 1 := ⟨fuel - 1, by omega⟩
  split_ifs with hdepth
  · rw [run_of_stop (by simpa using Or.inl hdepth)]
  · have hstage := runStage_of_selector (nestedText fuel) (h.mode_mem hcontent)
      (Text.trimmed rule) s.content
    rw [run_of_single (by omega) h.pipeline_eq]
    exact congrArg some (hstage _)

/-- The text of a selector: the texts it selects put together, if that is not empty. -/
theorem IsSelector.string?_eq (h : IsSelector (contentOf s.content) mode rule)
    (hcontent : contentOf s.content ≠ .groups) :
    ((Bound.string? rule).run s).1 =
      if Limits.ruleDepth ≤ s.depth then none
      else (Found.list (Select.strings mode (Text.trimmed rule) s.content.structured)).text? := by
  change ((run Limits.ruleDepth .string rule).run s).1.bind Found.text? = _
  rw [h.run_eq hcontent (by decide)]
  split_ifs <;> rfl

/-- A single empty text is a result while merging and none afterwards. -/
theorem text?_list_join (texts others : List String) :
    (Found.list (Rule.Combinator.or.join texts others)).text? =
      if texts = [""] then none else (Found.list texts).text?.or (Found.list others).text? := by
  split_ifs with hsingle
  · subst hsingle
    exact text?_list_eq_none_iff.2 (Or.inr rfl)
  · cases texts with
    | nil => rfl
    | cons first rest =>
        have hfound : (Found.list (first :: rest)).text? ≠ none := by
          rw [Ne, text?_list_eq_none_iff]
          simpa using hsingle
        obtain ⟨text, htext⟩ := Option.ne_none_iff_exists'.1 hfound
        have hjoin : Rule.Combinator.or.join (first :: rest) others = first :: rest := rfl
        rw [hjoin, htext, Option.some_or]

/-- A rule with the combinator falls back to the second operand, unless the first one selects
a single empty text, which no rule for pages does. -/
theorem or_falls_back (hcontent : contentOf s.content ≠ .groups)
    (ha : IsSelector (contentOf s.content) mode a) (hb : IsSelector (contentOf s.content) mode b)
    (hfront : IsOperand (dialectOf mode) "||" a) (hback : IsLastOperand (dialectOf mode) b) :
    (((Bound.string? (a ++ "||" ++ b)).run s).1 =
      if Select.strings mode (Text.trimmed a) s.content.structured = [""] then none
      else ((Bound.string? a).run s).1.or ((Bound.string? b).run s).1) ∧
    (mode ≠ .jsonPath →
      ((Bound.string? (a ++ "||" ++ b)).run s).1 =
        ((Bound.string? a).run s).1.or ((Bound.string? b).run s).1) := by
  have hempty : ((Bound.string? (a ++ "||" ++ b)).run s).1 =
      if Select.strings mode (Text.trimmed a) s.content.structured = [""] then none
      else ((Bound.string? a).run s).1.or ((Bound.string? b).run s).1 := by
    rw [(ha.or hb).string?_eq hcontent, ha.string?_eq hcontent, hb.string?_eq hcontent,
      Select.strings_or ha.unprefixed hb.unprefixed hfront hback, text?_list_join]
    split_ifs <;> rfl
  refine ⟨hempty, fun hmode => ?_⟩
  have hpages : Select.strings mode (Text.trimmed a) s.content.structured ≠ [""] := by
    intro hsingle
    apply Select.empty_not_mem_strings hmode (Text.trimmed a) s.content.structured
    simp [hsingle]
  rw [hempty, if_neg hpages]

/-- An attribute that is missing, and a text instead. -/
theorem or_falls_back_missing_attribute :
    let s : Session := { context := {}, content := .element Select.paragraphPage }
    contentOf s.content ≠ .groups ∧
    IsSelector (contentOf s.content) .css " p@title " ∧
    IsSelector (contentOf s.content) .css "tag.p@text" ∧
    IsOperand (dialectOf .css) "||" " p@title " ∧ IsLastOperand (dialectOf .css) "tag.p@text" ∧
    ((Bound.string? (" p@title " ++ "||" ++ "tag.p@text")).run s).1 =
      ((Bound.string? " p@title ").run s).1.or ((Bound.string? "tag.p@text").run s).1 := by
  intro s
  have hcontent : contentOf s.content ≠ .groups := by decide
  have ha : IsSelector (contentOf s.content) .css " p@title " := by decide +kernel
  have hb : IsSelector (contentOf s.content) .css "tag.p@text" := by decide +kernel
  have hfront : IsOperand (dialectOf .css) "||" " p@title " := by decide +kernel
  have hback : IsLastOperand (dialectOf .css) "tag.p@text" := by decide +kernel
  exact ⟨hcontent, ha, hb, hfront, hback,
    (or_falls_back hcontent ha hb hfront hback).2 (by decide)⟩

/-- A text that is empty, in front of one that is not. -/
def emptyMember : Session where
  context := {}
  content := .json (.object [("a", .string ""), ("b", .string "x")])

/-- The second operand is not asked behind an empty text. -/
theorem not_falls_back_of_empty_text :
    ¬ ∀ (s : Session) (mode : Rule.Mode) (a b : String), contentOf s.content ≠ .groups →
      IsSelector (contentOf s.content) mode a → IsSelector (contentOf s.content) mode b →
      IsOperand (dialectOf mode) "||" a → IsOperand (dialectOf mode) "||" b →
      ((Bound.string? (a ++ "||" ++ b)).run s).1 =
        ((Bound.string? a).run s).1.or ((Bound.string? b).run s).1 := by
  intro hall
  have hcontent : contentOf emptyMember.content ≠ .groups := by decide
  have ha : IsSelector (contentOf emptyMember.content) .jsonPath "$.a" := by decide +kernel
  have hb : IsSelector (contentOf emptyMember.content) .jsonPath "$.b" := by decide +kernel
  have hcall := hall emptyMember .jsonPath "$.a" "$.b" hcontent ha hb (by decide +kernel)
    (by decide +kernel)
  have hdepth : ¬ Limits.ruleDepth ≤ emptyMember.depth := by decide
  have htogether : Select.strings .jsonPath (Text.trimmed ("$.a" ++ "||" ++ "$.b"))
      emptyMember.content.structured = [""] := by
    decide +kernel
  have hfirst : Select.strings .jsonPath (Text.trimmed "$.a")
      emptyMember.content.structured = [""] := by
    decide +kernel
  have hsecond : Select.strings .jsonPath (Text.trimmed "$.b")
      emptyMember.content.structured = ["x"] := by
    decide +kernel
  rw [(ha.or hb).string?_eq hcontent, ha.string?_eq hcontent, hb.string?_eq hcontent,
    if_neg hdepth, if_neg hdepth, if_neg hdepth, htogether, hfirst, hsecond] at hcall
  have hempty : (Found.list [""]).text? = none := text?_list_eq_none_iff.2 (Or.inr rfl)
  rw [hempty, Option.none_or, eq_comm, text?_list_eq_none_iff] at hcall
  simp at hcall

end BookRules.Finding
