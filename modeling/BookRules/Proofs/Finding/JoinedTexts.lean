import BookRules.Proofs.Finding.PostProcessing

/-!
# The text of a field and its list

The text of a field is its texts put together, line by line, and there is a text exactly when
there is a list.  The two are evaluated apart: in one evaluation the texts are put together where
they are selected and nothing is found if that is empty, in the other the empty texts are left
out and nothing is found if no text remains.  They agree because no rule for pages selects an
empty text, and texts that are not empty put together are empty only if there are none.
-/

namespace BookRules.Finding

open BookRules.Rule (IsBare beginsReference)

variable {rule : String} {s : Session}

/-- The mode of a rule that is applied to a page. -/
def pageMode (rule : String) : Rule.Mode :=
  (Rule.Mode.detect .markup (Text.trim rule.toList)).1

/-- The rule without the prefix for its mode. -/
def pageExpression (rule : String) : String :=
  String.ofList (Text.trim (Rule.Mode.detect .markup (Text.trim rule.toList)).2)

/-- A rule for pages of one stage, without placeholders, variables, scripts and replacement. -/
structure IsPageRule (rule : String) : Prop where
  bare : IsBare rule.toList
  unmarked : ¬ ['#', '#'] <:+: rule.toList
  unreferenced : ∀ tail, tail <:+ rule.toList → beginsReference tail = false
  mode_mem : pageMode rule ∈ [.css, .xpath]

theorem IsPageRule.empty_not_mem_strings (h : IsPageRule rule) (expression : String)
    (node : Node) : "" ∉ Select.strings (pageMode rule) expression node := by
  apply Select.empty_not_mem_strings
  intro hmode
  have hmem := h.mode_mem
  rw [hmode] at hmem
  simp at hmem

/-- The rule selects, and nothing is replaced. -/
theorem IsPageRule.run_eq (h : IsPageRule rule) (hcontent : contentOf s.content = .markup)
    (hdepth : s.depth < Limits.ruleDepth) (hrule : Text.isBlankText rule = false)
    (shape : Shape) :
    ((run 16 shape rule).run s).1 =
      some (selected (pageMode rule) (pageExpression rule) s.content.structured shape) := by
  have hnonblank : Text.trim rule.toList ≠ [] := by
    intro hnil
    rw [Text.isBlankText, List.all_eq_true.2 (Text.trim_eq_nil_iff.1 hnil)] at hrule
    cases hrule
  have hmode : pageMode rule ∈ [.css, .xpath, .jsonPath] :=
    List.subset_append_left [Rule.Mode.css, .xpath] [.jsonPath] h.mode_mem
  have hkeeps : ∀ found, replaced ⟨pageExpression rule, "", "", false⟩ shape found = found := by
    simp [replaced]
  have hstage := h.bare.pipeline_of_unreferenced h.unmarked h.unreferenced hnonblank .markup
  rw [← hcontent] at hstage
  rw [run_of_single hdepth hstage, ← hkeeps (selected _ _ _ _), hcontent]
  exact congrArg some (runStage_of_replacing _ hmode (Or.inr rfl) "" false shape _ _)

/-- Texts that are not empty, put together. -/
theorem text?_list_eq_map {items : List String} (h : "" ∉ items) :
    (Found.list items).text? = (itemsOf? items).map "\n".intercalate := by
  cases items with
  | nil => rfl
  | cons first rest =>
      have hfound : (Found.list (first :: rest)).text? ≠ none := by
        rw [Ne, text?_list_eq_none_iff]
        rintro (hnil | hsingle)
        · cases hnil
        · simp [hsingle] at h
      have hnonempty : ¬ ("\n".intercalate (first :: rest)).isEmpty = true :=
        fun hempty => hfound (if_pos hempty)
      exact if_neg hnonempty

theorem toList_list_eq_self {items : List String} (h : "" ∉ items) :
    (Found.list items).toList = items := by
  apply List.filter_eq_self.2
  intro item hitem
  have hne : item ≠ "" := fun hempty => h (hempty ▸ hitem)
  simpa using hne

/-- What the rule selects, if the evaluation is not too deep and the rule is not blank. -/
def foundTexts (rule : String) (s : Session) : List String :=
  if Limits.ruleDepth ≤ s.depth || Text.isBlankText rule then []
  else Select.strings (pageMode rule) (pageExpression rule) s.content.structured

theorem IsPageRule.empty_not_mem_foundTexts (h : IsPageRule rule) (s : Session) :
    "" ∉ foundTexts rule s := by
  unfold foundTexts
  split_ifs
  · simp
  · exact h.empty_not_mem_strings _ _

/-- Both readings are made of the same texts. -/
theorem IsPageRule.readings_eq (h : IsPageRule rule) (hcontent : contentOf s.content = .markup) :
    ((Bound.strings? rule).run s).1 = itemsOf? (foundTexts rule s) ∧
      ((Bound.string? rule).run s).1 =
        (itemsOf? (foundTexts rule s)).map "\n".intercalate := by
  by_cases hstop : (Limits.ruleDepth ≤ s.depth || Text.isBlankText rule) = true
  · have hnothing : foundTexts rule s = [] := if_pos hstop
    have hstrings : ((Bound.strings? rule).run s).1 =
        itemsOf? ((((run 16 .list rule).run s).1.map Found.toList).getD []) := rfl
    have hstring : ((Bound.string? rule).run s).1 =
        ((run 16 .string rule).run s).1.bind Found.text? := rfl
    rw [hnothing, hstrings, hstring, run_of_stop hstop, run_of_stop hstop]
    exact ⟨rfl, rfl⟩
  · have hfound : foundTexts rule s =
        Select.strings (pageMode rule) (pageExpression rule) s.content.structured := if_neg hstop
    have hempty := h.empty_not_mem_foundTexts s
    simp only [Bool.or_eq_true, decide_eq_true_eq, not_or, not_le, Bool.not_eq_true] at hstop
    have hrun := h.run_eq hcontent hstop.1 hstop.2
    rw [strings?_eq_of_run (hrun .list), string?_eq_of_run (hrun .string), selected, selected,
      ← hfound, toList_list_eq_self hempty, ← text?_list_eq_map hempty]
    exact ⟨rfl, rfl⟩

theorem eq_of_itemsOf? {texts items : List String} (h : itemsOf? texts = some items) :
    texts = items := by
  unfold itemsOf? at h
  split_ifs at h
  exact Option.some.inj h

/-- The text of a rule for pages is its list put together line by line: there is one exactly when
there is the other, no item of the list is empty, and the list is what the rule selects. -/
theorem text_is_joined_list (h : IsPageRule rule) (e : Markup.Element) (s : Session) :
    let list := ((strings? (.element e) rule).run s).1
    let text := ((string? (.element e) rule).run s).1
    (list = none ↔ text = none) ∧
    (∀ items, list = some items →
      (∀ item ∈ items, item ≠ "") ∧ text = some ("\n".intercalate items)) ∧
    (s.depth < Limits.ruleDepth → Text.isBlankText rule = false →
      list = itemsOf? (Select.strings (pageMode rule) (pageExpression rule) (.element e))) := by
  intro list text
  let bound : Session := { s with content := .element e }
  obtain ⟨hlist, htext⟩ := h.readings_eq (s := bound) rfl
  change list = itemsOf? (foundTexts rule bound) at hlist
  change text = (itemsOf? (foundTexts rule bound)).map "\n".intercalate at htext
  refine ⟨by rw [hlist, htext, Option.map_eq_none_iff], fun items hitems => ?_,
    fun hdepth hblank => ?_⟩
  · rw [hitems] at hlist
    obtain rfl := eq_of_itemsOf? hlist.symm
    refine ⟨fun item hitem hempty => ?_, by rw [htext, ← hlist, Option.map_some]⟩
    exact h.empty_not_mem_foundTexts bound (hempty ▸ hitem)
  · rw [hlist, foundTexts, if_neg (by simpa [hblank] using hdepth)]
    rfl

/-- A location path that cannot be translated between two that select a text. -/
theorem text_is_joined_list_paragraph :
    let s : Session := { context := {} }
    let rule := " //p/text()&&//&&//p/text() "
    IsPageRule rule ∧ s.depth < Limits.ruleDepth ∧ Text.isBlankText rule = false ∧
    ((strings? (.element Select.paragraphPage) rule).run s).1 = some ["x", "x"] ∧
    ((string? (.element Select.paragraphPage) rule).run s).1 = some "x\nx" := by
  intro s rule
  have hreferences : ∀ tail ∈ rule.toList.tails, beginsReference tail = false := by
    decide
  have hrule : IsPageRule rule :=
    { bare := .of_closesNothing (by decide +kernel)
      unmarked := by decide
      unreferenced := fun tail htail => hreferences tail ((List.mem_tails tail _).2 htail)
      mode_mem := by decide +kernel }
  have hdepth : s.depth < Limits.ruleDepth := by decide
  have hblank : Text.isBlankText rule = false := by decide
  have htexts : Select.strings (pageMode rule) (pageExpression rule)
      (.element Select.paragraphPage) = ["x", "x"] := by
    decide +kernel
  obtain ⟨-, htext, hlist⟩ := text_is_joined_list hrule Select.paragraphPage s
  have hitems := hlist hdepth hblank
  rw [htexts] at hitems
  exact ⟨hrule, hdepth, hblank, hitems, (htext _ hitems).2⟩

end BookRules.Finding
