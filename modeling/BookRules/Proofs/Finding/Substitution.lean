import BookRules.Proofs.Finding.Independence
import BookRules.Proofs.Rule.Templates

/-!
# Values put into a template

A template is evaluated by putting values in the place of its holes.  The text that comes out
is looked at once more, for the marks of a replacement: what stands in front of the first `##`
is the answer, and what stands behind it is replaced in it.  Nothing else of a value is read
as a rule, and where the text holds no `##` it is the answer as a whole.
-/

namespace BookRules.Finding

open BookRules.Rule (Hole Segment IsTemplate)
open BookRules.Text (Cutting)

/-- The text of a variable or a group; empty when there is none. -/
def holeValue (context : Context) (content : Node) : Hole → List Char
  | .lookup _ name => (context.getOrEmpty (String.ofList (Text.trim name))).toList
  | .group digits =>
    match content with
    | .groups texts => (texts[Decimal.valueOf digits]?.getD "").toList
    | _ => []
  -- what stands in braces is evaluated and not looked up
  | .braces _ => []

/-- The text of a segment that nothing is evaluated for. -/
def valueText? (context : Context) (content : Node) : Segment → Option String
  | .literal text => some text
  | .variable name => some (context.getOrEmpty name)
  | .group index =>
    match content with
    | .groups texts => some (texts[index]?.getD "")
    | _ => some ("$" ++ toString index)
  | .rule _ | .script _ => none

/-- A text that segments stand for, which nothing is evaluated for. -/
inductive Reads (context : Context) (content : Node) : List Segment → List Char → Prop
  | nil : Reads context content [] []
  | cons {segment : Segment} {text : String} {segments : List Segment} {cs : List Char}
      (hvalue : valueText? context content segment = some text)
      (hmore : Reads context content segments cs) :
      Reads context content (segment :: segments) (text.toList ++ cs)

variable {nested : Nested} {s : Session} {context : Context} {content : Node}
  {segments : List Segment} {cs : List Char} {rule : String} {template : Cutting Hole}

theorem segmentText_run {segment : Segment} {text : String}
    (h : valueText? s.context s.content segment = some text) :
    (segmentText nested (.node s.content) segment).run s = (text, s) := by
  match segment, h with
  | .literal _, h => exact congrArg (·, s) (Option.some.inj h)
  | .variable _, h => exact congrArg (·, s) (Option.some.inj h)
  | .group index, h =>
      unfold valueText? at h
      dsimp only at h
      split at h
      next texts hcontent =>
        obtain rfl := Option.some.inj h
        unfold segmentText
        rw [hcontent]
        rfl
      next hcontent =>
        obtain rfl := Option.some.inj h
        cases hnode : s.content with
        | groups texts => exact absurd hnode (hcontent texts)
        | element | json | text => rfl

theorem Reads.exists_mapM_run (h : Reads s.context s.content segments cs) (nested : Nested) :
    ∃ texts, (segments.mapM (segmentText nested (.node s.content))).run s = (texts, s) ∧
      texts.flatMap String.toList = cs := by
  induction h with
  | nil => exact ⟨[], rfl, rfl⟩
  | @cons segment text segments cs hvalue hmore ih =>
      obtain ⟨texts, hrun, rfl⟩ := ih
      refine ⟨text :: texts, ?_, rfl⟩
      rw [List.mapM_cons, StateT.run_bind, segmentText_run hvalue]
      change ((do return text :: (← segments.mapM (segmentText nested (.node s.content)))) :
        Eval (List String)).run s = _
      rw [StateT.run_bind, hrun]
      rfl

theorem Reads.fill_run (h : Reads s.context s.content segments cs) :
    (fill nested (.node s.content) segments).run s = (String.ofList cs, s) := by
  obtain ⟨texts, hrun, rfl⟩ := h.exists_mapM_run nested
  have hjoin : String.join texts = String.ofList (texts.flatMap String.toList) := by
    rw [← String.toList_join, String.ofList_toList]
  unfold fill
  rw [StateT.run_bind, hrun, ← hjoin]
  rfl

theorem Reads.joinLiterals (h : Reads context content segments cs) :
    Reads context content (Segment.joinLiterals segments) cs := by
  fun_induction Segment.joinLiterals segments generalizing cs with
  | case1 => exact h
  | case2 rest a b more hjoined ih =>
      cases h with
      | @cons _ text _ back ha hmore =>
          obtain rfl : a = text := Option.some.inj ha
          have hback := ih hmore
          rw [hjoined] at hback
          cases hback with
          | @cons _ text' _ back' hb hmore' =>
              obtain rfl : b = text' := Option.some.inj hb
              have hboth : valueText? context content (.literal (a ++ b)) = some (a ++ b) := rfl
              simpa using Reads.cons hboth hmore'
  | case3 rest segment hjoined ih =>
      cases h with
      | cons hvalue hmore => exact .cons hvalue (ih hmore)

theorem Reads.ofText (h : Reads context content segments cs) (gap : List Char) :
    Reads context content (Segment.ofText gap ++ segments) (gap ++ cs) := by
  unfold Segment.ofText
  split
  next hnil =>
    obtain rfl : gap = [] := by simpa using hnil
    exact h
  next =>
    have hliteral : valueText? context content (.literal (String.ofList gap)) =
        some (String.ofList gap) := rfl
    simpa using Reads.cons hliteral h

theorem valueText?_group {digits : List Char} (h : contentOf content = .groups) :
    valueText? context content (.group (Decimal.valueOf digits)) =
      some (String.ofList (holeValue context content (.group digits))) := by
  cases content with
  | groups texts => simp [valueText?, holeValue]
  | text text =>
      simp only [contentOf] at h
      split_ifs at h
  | element => cases h
  | json => cases h

/-- A text that is cut at its holes, with the values of its segments in their place. -/
theorem reads_of_values {value : Hole → List Char} (hvalue : ∀ part ∈ template.spans,
      valueText? context content part.2.segment = some (String.ofList (value part.2))) :
    Reads context content (Segment.joinLiterals (Segment.ofCutting template))
      (template.fill value) := by
  apply Reads.joinLiterals
  obtain ⟨spans, last⟩ := template
  dsimp only at hvalue
  induction spans with
  | nil => simpa [Segment.ofCutting, Cutting.fill] using Reads.nil.ofText last
  | cons part spans ih =>
      rw [List.forall_mem_cons] at hvalue
      have hspan := Reads.cons hvalue.1 (ih hvalue.2)
      rw [Segment.ofCutting_cons, Cutting.fill_cons, List.append_assoc]
      simpa using hspan.ofText part.1

theorem reads_of_template (h : IsTemplate (contentOf content) rule template) :
    Reads context content (Segment.joinLiterals (Segment.ofCutting template))
      (template.fill (holeValue context content)) := by
  apply reads_of_values
  intro part hpart
  rcases h.values part hpart with ⟨mark, name, heq⟩ | ⟨hgroups, digits, heq⟩
  · simp [heq, Hole.segment, valueText?, holeValue]
  · rw [heq]
    exact valueText?_group hgroups

/-- What is left of a text that was cut at its marks: the rule in front of them, or the
content where that is blank, with the replacement behind them. -/
def afterReplacement (content : Node) (parts : Rule.Replacing) : String :=
  let base := if parts.rule = "" ∧ parts.pattern ≠ "" then content.toText else parts.rule
  if parts.pattern = "" then base
  else Rule.replace base parts.pattern parts.replacement parts.firstOnly

theorem runStage_of_template {stage : Rule.Stage} (hmode : stage.mode = .template)
    (hbindings : stage.bindings = []) (htemplate : stage.isTemplate = true)
    (hreads : Reads s.context s.content stage.segments cs) (nested : Nested) :
    (((runStage nested .string (.node s.content) stage).run s).1).toText =
      afterReplacement s.content (Rule.splitReplacement cs) := by
  have hresolve : (resolve nested stage (.node s.content)).run s =
      (Rule.splitReplacement cs, s) := by
    unfold resolve
    rw [if_pos htemplate, StateT.run_bind, hreads.fill_run]
    change (Rule.splitReplacement (String.ofList cs).toList, s) = _
    rw [String.toList_ofList]
  generalize Rule.splitReplacement cs = parts at hresolve
  have hfound : ((runStage nested .string (.node s.content) stage).run s).1 =
      replaced parts .string
        (if parts.rule.isEmpty && !parts.pattern.isEmpty then .node s.content
        else .text parts.rule) := by
    unfold runStage
    rw [hbindings, hmode]
    change (StateT.run (do
      let parts ← resolve nested stage (.node s.content)
      let found ← if parts.rule.isEmpty && !parts.pattern.isEmpty then pure (.node s.content)
        else find .template parts.rule .string (.node s.content)
      return replaced parts .string found) s).1 = _
    rw [StateT.run_bind, hresolve]
    change (StateT.run (m := Id) (if parts.rule.isEmpty && !parts.pattern.isEmpty then
        return replaced parts .string (.node s.content)
      else do
        let found ← find .template parts.rule .string (.node s.content)
        return replaced parts .string found) s).1 = _
    split_ifs <;> rfl
  rw [hfound]
  unfold replaced afterReplacement
  by_cases hpattern : parts.pattern = ""
  · simp [hpattern, Found.toText]
  · by_cases hrule : parts.rule = "" <;> simp [hpattern, hrule, Found.toText]

/-- A rule of one stage that is a template and binds nothing. -/
theorem string?_of_reads {stage : Rule.Stage} (hdepth : s.depth < Limits.ruleDepth)
    (hpipeline : Rule.pipeline (contentOf s.content) rule = [stage])
    (hmode : stage.mode = .template) (hbindings : stage.bindings = [])
    (htemplate : stage.isTemplate = true)
    (hreads : Reads s.context s.content stage.segments cs) :
    let text := afterReplacement s.content (Rule.splitReplacement cs)
    ((Bound.string? rule).run s).1 = if text = "" then none else some text := by
  intro text
  obtain ⟨fuel, hfuel⟩ : ∃ fuel, Limits.ruleDepth = fuel + 1 := ⟨15, rfl⟩
  -- one level deeper the same values are looked up
  have hstage : ∀ inner : Session, inner.context = s.context → inner.content = s.content →
      (((runStage (nestedText fuel) .string (.node s.content) stage).run inner).1).toText = text := by
    intro inner hcontext hcontent
    have hinner : Reads inner.context inner.content stage.segments cs := by
      rwa [hcontext, hcontent]
    have htext := runStage_of_template hmode hbindings htemplate hinner (nestedText fuel)
    rwa [hcontent] at htext
  obtain ⟨found, hfound, htext⟩ : ∃ found,
      ((run Limits.ruleDepth .string rule).run s).1 = some found ∧ found.toText = text := by
    rw [hfuel, run_of_single hdepth hpipeline]
    exact ⟨_, rfl, hstage _ rfl rfl⟩
  change ((run Limits.ruleDepth .string rule).run s).1.bind Found.text? = _
  rw [hfound, Option.bind_some, Found.text?, htext]
  simp

theorem string?_of_template (hdepth : s.depth < Limits.ruleDepth)
    (h : IsTemplate (contentOf s.content) rule template) :
    let text := afterReplacement s.content
      (Rule.splitReplacement (template.fill (holeValue s.context s.content)))
    ((Bound.string? rule).run s).1 = if text = "" then none else some text := by
  obtain ⟨stage, hpipeline, hmode, hbindings, htemplate, hsegments⟩ := h.exists_pipeline_eq
  apply string?_of_reads hdepth hpipeline hmode hbindings htemplate
  rw [hsegments]
  exact reads_of_template h

/-- Values are put in the place of the holes and are not read as a rule, up to the marks of a
replacement. -/
theorem substituted_text (hdepth : s.depth < Limits.ruleDepth)
    (h : IsTemplate (contentOf s.content) rule template) :
    let filled := template.fill (holeValue s.context s.content)
    let text := afterReplacement s.content (Rule.splitReplacement filled)
    ((Bound.string? rule).run s).1 = (if text = "" then none else some text) ∧
    (¬ ['#', '#'] <:+: filled →
      ((Bound.string? rule).run s).1 =
        if Text.trim filled = [] then none else some (String.ofList (Text.trim filled))) := by
  intro filled text
  have hstring := string?_of_template hdepth h
  refine ⟨hstring, fun hfree => ?_⟩
  dsimp only at hstring
  rw [hstring, Rule.splitReplacement_eq hfree]
  simp [afterReplacement]

theorem substituted_text_of_row :
    let s : Session :=
      { context := { stored := [("k", "@js:1")] }, content := .groups ["whole", "$1"] }
    let template : Cutting Hole :=
      ⟨[([], .group ['1']), (" of ".toList, .lookup "@get:\x7b".toList ['k'])], []⟩
    s.depth < Limits.ruleDepth ∧ IsTemplate (contentOf s.content) " $1 of @get:\x7bk\x7d" template ∧
      ¬ ['#', '#'] <:+: template.fill (holeValue s.context s.content) ∧
      ((Bound.string? " $1 of @get:\x7bk\x7d").run s).1 = some "$1 of @js:1" := by
  intro s template
  have hdepth : s.depth < Limits.ruleDepth := by decide
  have htemplate : IsTemplate (contentOf s.content) " $1 of @get:\x7bk\x7d" template := by
    constructor
    · have hmore : Text.Cuts Rule.Hole.Stands (" of ".toList ++ "@get:\x7bk\x7d".toList)
          ⟨[(" of ".toList, .lookup "@get:\x7b".toList ['k'])], []⟩ :=
        .span (Rule.Hole.isGap_of_signs (by decide) _) (.lookup (by decide) (by decide) (by decide))
          (.last (Text.isGap_nil _ _))
      have hnumber : Rule.Hole.IsNumber ['1'] (" of ".toList ++ "@get:\x7bk\x7d".toList) := by
        have hdigits : ['1'].all Decimal.isDigit = true := by decide
        refine ⟨List.all_eq_true.1 hdigits, Or.inr ⟨rfl, fun c hc => ?_⟩⟩
        obtain rfl : ' ' = c := Option.some.inj hc
        exact Unicode.isDecimal_eq_isDigit (by decide)
      have htrim : Text.trim " $1 of @get:\x7bk\x7d".toList =
          '$' :: (['1'] ++ (" of ".toList ++ "@get:\x7bk\x7d".toList)) := by
        decide
      rw [htrim]
      exact .span (Text.isGap_nil _ _) (.group hnumber) hmore
    · decide
    · simp [template, s, contentOf]
    · decide
    · exact Rule.OpensNoScript.isGap (by decide)
    · decide
    · exact Or.inl rfl
  have hfree : ¬ ['#', '#'] <:+: template.fill (holeValue s.context s.content) := by decide
  have htext : Text.trim (template.fill (holeValue s.context s.content)) = "$1 of @js:1".toList := by
    decide
  have hstring := (substituted_text hdepth htemplate).2 hfree
  rw [htext] at hstring
  exact ⟨hdepth, htemplate, hfree, hstring⟩

theorem isTemplate_reference (content : Rule.Content) :
    IsTemplate content "@get:\x7bk\x7d" ⟨[([], .lookup "@get:\x7b".toList ['k'])], []⟩ := by
  constructor
  · exact .span (Text.isGap_nil _ _) (.lookup (by decide) (by decide) (by decide))
      (.last (Text.isGap_nil _ _))
  · decide
  · simp
  · decide
  · exact Rule.OpensNoScript.isGap (by decide)
  · decide
  · exact Or.inr (by decide)

/-- A value that holds the marks of a replacement is cut at them. -/
theorem not_substituted_text_of_marks :
    ¬ ∀ (s : Session) (rule : String) (template : Cutting Hole), s.depth < Limits.ruleDepth →
      IsTemplate (contentOf s.content) rule template →
      ((Bound.string? rule).run s).1 =
        if Text.trim (template.fill (holeValue s.context s.content)) = [] then none
        else some (String.ofList (Text.trim (template.fill (holeValue s.context s.content)))) := by
  intro hall
  let s : Session := { context := { stored := [("k", "a##")] } }
  have hdepth : s.depth < Limits.ruleDepth := by decide
  have hcall := hall s _ _ hdepth (isTemplate_reference _)
  have hstring := string?_of_template hdepth (isTemplate_reference _)
  dsimp only at hstring
  rw [hstring] at hcall
  revert hcall
  decide

end BookRules.Finding
