import BookRules.Proofs.Finding.PostProcessing

/-!
# Texts that are read when they are needed

A text is bound as it is and read when a selector asks for its structure.  A selector reads the
node that is bound in two ways only: by what kind of content it is, which settles the mode, and
by its structure, which the selector starts from.  Both are the same for a text and for the
document that it stands for, because what is asked of the text before its mode is settled is
asked of it again when it is read.
-/

namespace BookRules

namespace Rule

variable {content content' : Content} {cs : List Char}

/-- The mode depends on what a rule is applied to, and what its prefix leaves does not. -/
theorem detect_snd_eq (hcontent : content ≠ .groups) (hcontent' : content' ≠ .groups)
    (cs : List Char) : (Mode.detect content cs).2 = (Mode.detect content' cs).2 := by
  rw [detect_eq, detect_eq, if_neg hcontent, if_neg hcontent']
  split_ifs
  · rfl
  · cases prefixed? cs <;> rfl

theorem detect_fst_mem (hcontent : content ≠ .groups) (cs : List Char) :
    (Mode.detect content cs).1 ∈ [.css, .xpath, .jsonPath] := by
  rw [detect_eq, if_neg hcontent]
  split_ifs
  · simp
  · unfold prefixed?
    cases Text.stripFront? "@@".toList cs with
    | some => simp
    | none =>
        cases Text.stripFrontNoCase? "@xpath:".toList cs with
        | some => simp
        | none =>
            cases Text.stripFrontNoCase? "@json:".toList cs with
            | some => simp
            | none => exact bareMode_mem hcontent cs

/-- The rule of a selector and its replacement. -/
def selectorParts (rule : String) : Replacing :=
  splitReplacement (Mode.detect .markup (Text.trim rule.toList)).2

/-- A rule that a selector evaluates: nothing is filled in, bound or run, and a replacement
stands behind a selector. -/
structure IsSelecting (rule : String) : Prop where
  bare : IsBare rule.toList
  unreferenced : Unreferenced (Mode.detect .markup (Text.trim rule.toList)).2
  selects : (selectorParts rule).rule ≠ "" ∨ (selectorParts rule).pattern = ""

namespace IsSelecting

variable {rule : String}

theorem pipeline_eq (h : IsSelecting rule) (hcontent : content ≠ .groups)
    (hblank : Text.isBlankText rule ≠ true) :
    pipeline content rule =
      [{ mode := (Mode.detect content (Text.trim rule.toList)).1
         expression := (selectorParts rule).rule
         pattern := (selectorParts rule).pattern
         replacement := (selectorParts rule).replacement
         firstOnly := (selectorParts rule).firstOnly }] := by
  have htrim : Text.trim rule.toList ≠ [] := by
    intro hnil
    exact hblank (List.all_eq_true.2 (Text.trim_eq_nil_iff.1 hnil))
  have hbody : (Mode.detect content (Text.trim rule.toList)).2 =
      (Mode.detect .markup (Text.trim rule.toList)).2 :=
    detect_snd_eq hcontent (by decide) _
  have hunreferenced : Unreferenced (Mode.detect content (Text.trim rule.toList)).2 := by
    rw [hbody]
    exact h.unreferenced
  have hbare : IsBare (Text.trim rule.toList) := h.bare.of_isInfix (Text.trim_isInfix _)
  rw [h.bare.pipeline_eq, gapStages, if_neg htrim,
    hbare.parse_eq (Text.trim_trim _) content hunreferenced, hbody]
  rfl

theorem trimmed (h : IsSelecting rule) : IsSelecting (Text.trimmed rule) := by
  have hchars : (Text.trimmed rule).toList = Text.trim rule.toList := by simp [Text.trimmed]
  have htrim : Text.trim (Text.trimmed rule).toList = Text.trim rule.toList := by
    rw [hchars, Text.trim_trim]
  have hparts : selectorParts (Text.trimmed rule) = selectorParts rule := by
    unfold selectorParts
    rw [htrim]
  constructor
  · rw [hchars]
    exact h.bare.of_isInfix (Text.trim_isInfix _)
  · rw [htrim]
    exact h.unreferenced
  · rw [hparts]
    exact h.selects

end IsSelecting

end Rule

theorem Node.structured_parse (text : String) : (Node.parse text).structured = Node.parse text := by
  unfold Node.parse Node.ofHtml
  split
  · split <;> rfl
  · rfl

namespace Finding

open BookRules.Rule (IsSelecting)

variable {rule text : String} {s t : Session}

/-- A text looks like JSON exactly if it is read as JSON. -/
theorem contentOf_parse (text : String) : contentOf (Node.parse text) = contentOf (.text text) := by
  unfold Node.parse Node.ofHtml contentOf looksLikeJson
  by_cases hstart : Node.startsLikeJson text = true
  · rw [if_pos hstart]
    cases hparse : Json.parse? (Text.trimStart text.toList) <;> simp [hstart, hparse]
  · simp [hstart]

theorem contentOf_text_ne_groups (text : String) : contentOf (.text text) ≠ .groups := by
  intro hgroups
  simp only [contentOf] at hgroups
  split_ifs at hgroups

/-- Two nodes of one kind and one structure are the same to a selector. -/
theorem run_eq_of_structured (h : IsSelecting rule) (hdepth : s.depth = t.depth)
    (hcontent : contentOf s.content = contentOf t.content) (hkind : contentOf t.content ≠ .groups)
    (hstructured : s.content.structured = t.content.structured) (fuel : Nat) (shape : Shape) :
    ((run fuel shape rule).run s).1 = ((run fuel shape rule).run t).1 := by
  cases fuel with
  | zero => rfl
  | succ fuel =>
      by_cases hstop : (Limits.ruleDepth ≤ t.depth || Text.isBlankText rule) = true
      · rw [run_of_stop (by rwa [hdepth]), run_of_stop hstop]
      · rw [Bool.or_eq_true, not_or, decide_eq_true_eq, not_le] at hstop
        obtain ⟨hshallow, hblank⟩ := hstop
        have hmode := Rule.detect_fst_mem hkind (Text.trim rule.toList)
        have hstage := h.pipeline_eq hkind hblank
        have hfound : ∀ session : Session, session.depth = t.depth →
            contentOf session.content = contentOf t.content →
            session.content.structured = t.content.structured →
            ((run (fuel + 1) shape rule).run session).1 =
              some (replaced (Rule.selectorParts rule) shape
                (selected (Rule.Mode.detect (contentOf t.content) (Text.trim rule.toList)).1
                  (Rule.selectorParts rule).rule t.content.structured shape)) := by
          intro session hsame hsort hshape
          rw [run_of_single (by rwa [hsame]) (by rw [hsort, hstage]), ← hshape]
          exact congrArg some (runStage_of_replacing _ hmode h.selects _ _ shape _ _)
        rw [hfound s hdepth hcontent hstructured, hfound t rfl rfl rfl]

/-- The readings of a node come from what the rule finds in it. -/
theorem elements_eq_of_run_eq (hcolon : (Text.trim rule.toList).head? ≠ some ':')
    (h : ((run Limits.ruleDepth .elements (Text.trimmed rule)).run s).1 =
      ((run Limits.ruleDepth .elements (Text.trimmed rule)).run t).1) :
    ((Bound.elements rule).run s).1 = ((Bound.elements rule).run t).1 := by
  unfold Bound.elements
  split
  next patterns htrim => simp [htrim] at hcolon
  next =>
    have hsame : ((Bound.find .elements (String.ofList (Text.trim rule.toList))).run s).1 =
        ((Bound.find .elements (String.ofList (Text.trim rule.toList))).run t).1 := h
    rw [run_bind, run_bind, ← hsame]
    cases ((Bound.find .elements (String.ofList (Text.trim rule.toList))).run s).1 with
    | none => rfl
    | some found => cases found <;> rfl

/-- A selector finds the same in a text and in the document that the text stands for, and it
is read in the same mode. -/
theorem lazy_text_reads_as_document (h : IsSelecting rule) (text : String) (s : Session) :
    (∃ stages, stages.length ≤ 1 ∧ (∀ stage ∈ stages, stage.mode ∈ [.css, .xpath, .jsonPath]) ∧
      Rule.pipeline (contentOf (.text text)) rule = stages ∧
      Rule.pipeline (contentOf (Node.parse text)) rule = stages) ∧
    ((string? (.text text) rule).run s).1 = ((string? (Node.parse text) rule).run s).1 ∧
    ((strings? (.text text) rule).run s).1 = ((strings? (Node.parse text) rule).run s).1 ∧
    ((Text.trim rule.toList).head? ≠ some ':' →
      ((elements (.text text) rule).run s).1 = ((elements (Node.parse text) rule).run s).1) := by
  have hkind : contentOf (Node.parse text) ≠ .groups := by
    rw [contentOf_parse]
    exact contentOf_text_ne_groups text
  have hrun : ∀ rule, IsSelecting rule → ∀ shape,
      ((run Limits.ruleDepth shape rule).run { s with content := .text text }).1 =
        ((run Limits.ruleDepth shape rule).run { s with content := Node.parse text }).1 :=
    fun rule hrule shape =>
      run_eq_of_structured (s := { s with content := .text text })
        (t := { s with content := Node.parse text }) hrule rfl (contentOf_parse text).symm hkind
        (Node.structured_parse text).symm _ shape
  refine ⟨⟨_, ?_, ?_, rfl, by rw [contentOf_parse]⟩, ?_, ?_, fun hcolon => ?_⟩
  · by_cases hblank : Text.isBlankText rule = true
    · simp [Rule.pipeline_of_blank _ hblank]
    · simp [h.pipeline_eq (contentOf_text_ne_groups text) hblank]
  · by_cases hblank : Text.isBlankText rule = true
    · simp [Rule.pipeline_of_blank _ hblank]
    · rw [h.pipeline_eq (contentOf_text_ne_groups text) hblank]
      simpa using Rule.detect_fst_mem (contentOf_text_ne_groups text) (Text.trim rule.toList)
  · exact congrArg (Option.bind · Found.text?) (hrun rule h .string)
  · exact congrArg (fun found => itemsOf? ((found.map Found.toList).getD [])) (hrun rule h .list)
  · exact elements_eq_of_run_eq hcolon (hrun _ h.trimmed .elements)

/-- A text that is JSON behind blanks, and a rule with a replacement. -/
theorem lazy_text_reads_as_document_json :
    let rule := " $.a##x##y "
    let text := " [\x7b\"a\": \"x\"\x7d]"
    IsSelecting rule ∧
    ((string? (.text text) rule).run { context := {} }).1 =
      ((string? (Node.parse text) rule).run { context := {} }).1 := by
  intro rule text
  have hrule : IsSelecting rule := by
    have hreferences : ∀ tail ∈ rule.toList.tails, Rule.beginsReference tail = false := by decide
    have hbody : (Rule.Mode.detect .markup (Text.trim rule.toList)).2 <:+: rule.toList := by decide
    exact
      { bare := .of_closesNothing (by decide +kernel)
        unreferenced := Rule.unreferenced_of_isInfix
          (fun tail htail => hreferences tail ((List.mem_tails tail _).2 htail)) hbody
        selects := Or.inl (by decide) }
  exact ⟨hrule, (lazy_text_reads_as_document hrule text _).2.1⟩

end Finding

end BookRules
