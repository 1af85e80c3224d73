import BookRules.Proofs.Finding.Fallback
import BookRules.Proofs.Rule.Replacements

/-!
# Replacing what is selected

A replacement behind a selector changes what is found and never what is selected: of a list it
is applied to every text, of one text to the selected texts put together, and nodes are left
as they are.  The texts that become empty are not found.
-/

namespace BookRules.Finding

open BookRules.Rule (IsBare TakesReplacement withReplacement)

variable {rule pattern replacement : String} {firstOnly : Bool} {selector stage : Rule.Stage}
variable {s : Session}

/-- What a selector finds in a node. -/
def selected (mode : Rule.Mode) (expression : String) (node : Node) : Shape → Found
  | .elements => .nodes (Select.nodes mode expression node)
  | .list => .list (Select.strings mode expression node)
  | .string => .text ("\n".intercalate (Select.strings mode expression node))

/-- The items of a list that is not empty. -/
def itemsOf? (items : List String) : Option (List String) :=
  if items.isEmpty then none else some items

/-- A stage of a selector and a replacement. -/
theorem runStage_of_replacing (nested : Nested) {mode : Rule.Mode} {expression : String}
    (hmode : mode ∈ [.css, .xpath, .jsonPath]) {pattern : String}
    (hselects : expression ≠ "" ∨ pattern = "") (replacement : String) (firstOnly : Bool)
    (shape : Shape) (node : Node) (s : Session) :
    ((runStage nested shape (.node node)
        { mode := mode, expression := expression, pattern := pattern,
          replacement := replacement, firstOnly := firstOnly }).run s).1 =
      replaced ⟨expression, pattern, replacement, firstOnly⟩ shape
        (selected mode expression node.structured shape) := by
  have hone : ∀ {α : Type} (f : Node → List α),
      [node.structured].flatMap f = f node.structured := by
    simp
  have hfind : ((find mode expression shape (.node node)).run s).1 =
      selected mode expression node.structured shape := by
    simp only [List.mem_cons, List.not_mem_nil, or_false] at hmode
    rcases hmode with rfl | rfl | rfl
    all_goals
      cases shape with
      | elements => exact congrArg Found.nodes (hone _)
      | list => exact congrArg Found.list (hone _)
      | string => exact congrArg (fun items => Found.text ("\n".intercalate items)) (hone _)
  have hstage : runStage nested shape (.node node)
        { mode := mode, expression := expression, pattern := pattern,
          replacement := replacement, firstOnly := firstOnly } =
      replaced ⟨expression, pattern, replacement, firstOnly⟩ shape <$>
        find mode expression shape (.node node) := by
    have hboth : ¬ (expression = "" ∧ pattern ≠ "") := by
      rintro ⟨hexpression, hpattern⟩
      exact hselects.elim (absurd hexpression) hpattern
    simp [runStage, resolve, bindVariables, Rule.Stage.isTemplate, hboth]
  rw [hstage, ← hfind]
  rfl

/-- A stage of a selector that binds nothing and has no placeholders. -/
structure IsSelection (stage : Rule.Stage) : Prop where
  mode_mem : stage.mode ∈ [.css, .xpath, .jsonPath]
  expression_nonempty : stage.expression ≠ ""
  plain : stage = { mode := stage.mode, expression := stage.expression, pattern := stage.pattern,
                    replacement := stage.replacement, firstOnly := stage.firstOnly }

theorem IsSelection.run_eq (h : IsSelection stage) (hdepth : s.depth < Limits.ruleDepth)
    (hstage : Rule.pipeline (contentOf s.content) rule = [stage]) (fuel : Nat) (shape : Shape) :
    ((run (fuel + 1) shape rule).run s).1 =
      some (replaced ⟨stage.expression, stage.pattern, stage.replacement, stage.firstOnly⟩ shape
        (selected stage.mode stage.expression s.content.structured shape)) := by
  rw [run_of_single hdepth hstage, h.plain]
  exact congrArg some
    (runStage_of_replacing _ h.mode_mem (Or.inl h.expression_nonempty) _ _ shape _ _)

/-! ## What is replaced -/

theorem replaced_list (hpattern : pattern ≠ "") (items : List String) :
    replaced ⟨rule, pattern, replacement, firstOnly⟩ .list (.list items) =
      .list (items.map fun text => Rule.replace text pattern replacement firstOnly) := by
  simp [replaced, hpattern]

theorem replaced_text (hpattern : pattern ≠ "") (text : String) :
    replaced ⟨rule, pattern, replacement, firstOnly⟩ .string (.text text) =
      .text (Rule.replace text pattern replacement firstOnly) := by
  simp [replaced, hpattern, Found.toText]

theorem replaced_elements (parts : Rule.Replacing) (found : Found) :
    replaced parts .elements found = found := by
  simp [replaced]

/-! ## The three readings -/

theorem strings?_eq_of_run {found : Found}
    (h : ((run 16 .list rule).run s).1 = some found) :
    ((Bound.strings? rule).run s).1 = itemsOf? found.toList := by
  change itemsOf? ((((run 16 .list rule).run s).1.map Found.toList).getD []) = _
  rw [h]
  rfl

theorem string?_eq_of_run {found : Found}
    (h : ((run 16 .string rule).run s).1 = some found) :
    ((Bound.string? rule).run s).1 = found.text? := by
  change ((run 16 .string rule).run s).1.bind Found.text? = _
  rw [h]
  rfl

theorem elements_eq_of_run {found : List Node}
    (hcolon : (Text.trim rule.toList).head? ≠ some ':')
    (h : ((run 16 .elements (Text.trimmed rule)).run s).1 = some (.nodes found)) :
    ((Bound.elements rule).run s).1 = found := by
  obtain ⟨after, hafter⟩ : ∃ after,
      (Bound.find .elements (String.ofList (Text.trim rule.toList))).run s =
        (some (.nodes found), after) :=
    ⟨_, Prod.ext h rfl⟩
  unfold Bound.elements
  split
  next patterns htrim => simp [htrim] at hcolon
  next =>
    rw [StateT.run_bind, hafter]
    rfl

/-- The nodes of a selector, whatever is replaced. -/
theorem IsSelection.elements_eq (h : IsSelection stage) (hdepth : s.depth < Limits.ruleDepth)
    (hstage : Rule.pipeline (contentOf s.content) rule = [stage]) (hbare : IsBare rule.toList)
    (hcolon : (Text.trim rule.toList).head? ≠ some ':') :
    ((Bound.elements rule).run s).1 =
      Select.nodes stage.mode stage.expression s.content.structured := by
  rw [← hbare.pipeline_trimmed] at hstage
  apply elements_eq_of_run hcolon
  rw [h.run_eq hdepth hstage 15, replaced_elements, selected]

/-- The texts a selector selects are replaced one by one in a list and together in one text,
and the nodes it selects stay as they are. -/
theorem replacement_applies_to_selected (hdepth : s.depth < Limits.ruleDepth)
    (h : TakesReplacement rule pattern replacement)
    (hsingle : Rule.pipeline (contentOf s.content) rule = [selector])
    (hmode : selector.mode ∈ [.css, .xpath, .jsonPath])
    (hexpression : selector.expression ≠ "") (firstOnly : Bool) :
    let whole := withReplacement rule pattern replacement firstOnly
    let texts := Select.strings selector.mode selector.expression s.content.structured
    let replace := fun text => Rule.replace text pattern replacement firstOnly
    ((Bound.strings? whole).run s).1 =
      itemsOf? ((texts.map replace).filter fun text => !text.isEmpty) ∧
    ((Bound.string? whole).run s).1 = (Found.text (replace ("\n".intercalate texts))).text? ∧
    ((Text.trim rule.toList).head? ≠ some ':' →
      ((Bound.elements whole).run s).1 = ((Bound.elements rule).run s).1) := by
  intro whole texts replace
  obtain ⟨hplain, hwhole⟩ := h.pipeline_eq hsingle firstOnly
  have hselector : IsSelection selector := ⟨hmode, hexpression, by rw [hplain]⟩
  have hreplacing : IsSelection { selector with
      pattern := pattern, replacement := replacement, firstOnly := firstOnly } :=
    ⟨hmode, hexpression, by rw [hplain]⟩
  have hrun := hreplacing.run_eq hdepth hwhole 15
  refine ⟨?_, ?_, fun hcolon => ?_⟩
  · rw [strings?_eq_of_run (hrun .list), selected, replaced_list h.pattern_nonempty]
    rfl
  · rw [string?_eq_of_run (hrun .string), selected, replaced_text h.pattern_nonempty]
  · have hstart := h.head?_trim (Rule.trim_ne_nil_of_pipeline hsingle) firstOnly
    rw [hselector.elements_eq hdepth hsingle h.bare_rule hcolon]
    exact hreplacing.elements_eq hdepth hwhole (h.bare_withReplacement firstOnly)
      (by rwa [hstart])

/-- The letters of a paragraph, each written twice. -/
theorem replacement_applies_to_paragraph :
    let s : Session := { context := {}, content := .element Select.paragraphPage }
    let selector : Rule.Stage := { mode := .css, expression := "tag.p@text" }
    s.depth < Limits.ruleDepth ∧
    TakesReplacement " tag.p@text " "x|&&" "$0||$0" ∧
    Rule.pipeline (contentOf s.content) " tag.p@text " = [selector] ∧
    ((Bound.strings? (withReplacement " tag.p@text " "x|&&" "$0||$0" false)).run s).1 =
      some ["x||x"] ∧
    ((Bound.elements (withReplacement " tag.p@text " "x|&&" "$0||$0" true)).run s).1 =
      ((Bound.elements " tag.p@text ").run s).1 := by
  intro s selector
  have hdepth : s.depth < Limits.ruleDepth := by decide
  have hreferences : ∀ tail ∈ " tag.p@text ".toList.tails, Rule.beginsReference tail = false := by
    decide
  have hlast : "$0||$0".toList.getLast? = some '0' := by decide
  have hsolid : ∀ c ∈ "$0||$0".toList.getLast?, Text.isBlank c = false := by
    rw [hlast]
    rintro c ⟨⟩
    decide
  have htakes : TakesReplacement " tag.p@text " "x|&&" "$0||$0" :=
    { bare := .of_closesNothing (by decide +kernel)
      rule_unmarked := by decide
      rule_ends := by decide
      rule_unreferenced := fun tail htail => hreferences tail ((List.mem_tails tail _).2 htail)
      pattern_nonempty := by decide
      pattern_unmarked := by decide
      pattern_ends := by decide
      replacement_unmarked := by decide
      replacement_ends := by decide
      replacement_solid := hsolid }
  have hsingle : Rule.pipeline (contentOf s.content) " tag.p@text " = [selector] := by
    decide +kernel
  have hall := replacement_applies_to_selected hdepth htakes hsingle (by decide) (by decide)
  have htexts : Select.strings .css "tag.p@text" s.content.structured = ["x"] := by
    decide +kernel
  have hreplace : Rule.replace "x" "x|&&" "$0||$0" false = "x||x" := by
    decide +kernel
  refine ⟨hdepth, htakes, hsingle, ?_, (hall true).2.2 (by decide)⟩
  rw [(hall false).1, htexts]
  simp [hreplace, itemsOf?]

end BookRules.Finding
