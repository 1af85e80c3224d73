import BookRules.Proofs.Rule.Holes
import BookRules.Proofs.Rule.PlainRules
import BookRules.Proofs.Rule.Scripts

/-!
# Templates

A template is a rule of literal text and of values that are looked up.  Its segments are the
gaps and the holes of its cutting; literals that are put together keep their text, and a
template is one stage that is evaluated as text.
-/

namespace BookRules.Rule

open Text (Cutting Cuts IsGap)

theorem Hole.isLiteral_segment (hole : Hole) : hole.segment.isLiteral = false := by
  cases hole with
  | lookup => rfl
  | braces body =>
      unfold segment Segment.ofBody
      dsimp only
      split <;> rfl
  | group => rfl

namespace Segment

open Hole (Stands NoDecimal)

def ofCutting (template : Cutting Hole) : List Segment :=
  template.spans.flatMap (fun part => ofText part.1 ++ [part.2.segment]) ++ ofText template.last

variable {cs after back gap read : List Char} {template : Cutting Hole} {segments : List Segment}

theorem ofCutting_cons (gap : List Char) (hole : Hole) (spans : List (List Char × Hole))
    (last : List Char) :
    ofCutting ⟨(gap, hole) :: spans, last⟩ =
      ofText gap ++ hole.segment :: ofCutting ⟨spans, last⟩ := by
  simp [ofCutting]

/-- The marks that a replacement follows. -/
abbrev replacementMark : List Char :=
  ['#', '#']

theorem ofGap_eq (h : ¬ replacementMark <:+: cs) : ofGap true cs = referencesFrom 0 [] cs := by
  simp [ofGap, cutAtMark_eq h, ofText]

theorem scanFrom_skip (inRule : Bool) (skip : Nat) (cs : List Char) :
    scanFrom inRule skip [] cs = scanFrom inRule 0 [] (cs.drop skip) := by
  induction cs generalizing skip with
  | nil => cases skip <;> simp [scanFrom]
  | cons c rest ih =>
      cases skip with
      | zero => rfl
      | succ skip => simpa [scanFrom] using ih skip

theorem scanFrom_pass (h : ∀ tail, tail <:+ gap → tail ≠ [] → placeholder? (tail ++ cs) = none)
    (inRule : Bool) (read : List Char) :
    scanFrom inRule 0 read (gap ++ cs) = scanFrom inRule 0 (gap.reverse ++ read) cs := by
  induction gap generalizing read with
  | nil => rfl
  | cons c gap ih =>
      have hhere : placeholder? (c :: (gap ++ cs)) = none := h (c :: gap) List.suffix_rfl (by simp)
      have hlater : ∀ tail, tail <:+ gap → tail ≠ [] → placeholder? (tail ++ cs) = none :=
        fun tail htail => h tail (htail.trans (List.suffix_cons c gap))
      rw [List.cons_append, scanFrom, hhere]
      dsimp only
      rw [ih hlater]
      simp

theorem scanFrom_gap (hgap : IsGap Stands gap cs) (inRule : Bool) (read : List Char) :
    scanFrom inRule 0 read (gap ++ cs) = scanFrom inRule 0 (gap.reverse ++ read) cs := by
  refine scanFrom_pass (fun tail htail hne => ?_) inRule read
  rw [Option.eq_none_iff_forall_ne_some]
  rintro ⟨segment, after⟩ hsome
  obtain ⟨hole, hstands, -, -⟩ := placeholder?_eq_some_iff.1 hsome
  exact hgap tail htail hne hole after hstands

theorem scanFrom_placeholder {segment : Segment} (h : placeholder? cs = some (segment, after))
    (hread : ¬ replacementMark <:+: read.reverse) :
    scanFrom true 0 read cs =
      (referencesFrom 0 [] read.reverse ++ segment :: (scanFrom true 0 [] after).1, true) := by
  obtain ⟨hole, hstands, -, -⟩ := placeholder?_eq_some_iff.1 h
  obtain ⟨c, rest, rfl, hsuffix⟩ := Hole.takesOff_stands hole cs after hstands
  have hmark : Text.occursIn ['#', '#'] read.reverse = false := by
    rw [Bool.eq_false_iff, Ne, Text.occursIn_iff_isInfix]
    exact hread
  rw [scanFrom, h]
  simp [hmark, ofGap_eq hread, scanFrom_skip, Text.drop_eq_of_isSuffix hsuffix]

theorem not_replacementMark_append {digits lead : List Char}
    (hgap : ¬ replacementMark <:+: gap) (hdigits : ∀ c ∈ digits, Decimal.isDigit c = true)
    (hlead : ¬ replacementMark <:+: lead) :
    ¬ replacementMark <:+: gap ++ '$' :: (digits ++ lead) := by
  have hbehind : ¬ replacementMark <:+: digits ++ lead := by
    induction digits with
    | nil => exact hlead
    | cons c digits ih =>
        rw [List.forall_mem_cons] at hdigits
        have hc : c ∉ replacementMark := by
          intro hmem
          obtain rfl : c = '#' := by simpa using hmem
          exact absurd hdigits.1 (by decide)
        intro hoccurs
        have hfront : replacementMark <:+: [] ++ c :: (digits ++ lead) := hoccurs
        rcases Text.isInfix_append_cons hc hfront with hnil | hlater
        · simp at hnil
        · exact ih hdigits.2 hlater
  intro hoccurs
  rcases Text.isInfix_append_cons (by decide) hoccurs with hfront | hback
  · exact hgap hfront
  · exact hbehind hback

/-- A scan from a place on, where `lead` is what stands in front of the next placeholder. -/
theorem exists_scanFrom_of_cuts (h : Cuts Stands cs template)
    (hgaps : ∀ gap ∈ template.gaps, ¬ replacementMark <:+: gap) :
    ∃ lead back more, lead ++ back = cs ∧ NoDecimal back ∧ ¬ replacementMark <:+: lead ∧
      referencesFrom 0 [] lead ++ more = ofCutting template ∧
      ∀ read, ¬ replacementMark <:+: read.reverse ++ lead →
        scanFrom true 0 read cs =
          (referencesFrom 0 [] (read.reverse ++ lead) ++ more,
            (referencesFrom 0 [] (read.reverse ++ lead) ++ more).any fun s => !s.isLiteral) := by
  have hnil : NoDecimal [] := by simp [NoDecimal]
  induction h with
  | @last gap hgap =>
      refine ⟨gap, [], [], by simp, hnil, hgaps gap (by simp [Cutting.gaps]), ?_, fun read hread => ?_⟩
      · have hnone : IsGap Stands gap ([] ++ []) := hgap
        have hpass := referencesFrom_gap hnone hnil []
        simpa [referencesFrom, ofCutting] using hpass
      · have hpass := scanFrom_gap hgap true read
        rw [List.append_nil] at hpass
        rw [hpass, scanFrom]
        simp [ofGap_eq hread]
  | @span gap cs after last hole spans hgap hhole hmore ih =>
      have hgapMark : ¬ replacementMark <:+: gap := hgaps gap (by simp [Cutting.gaps])
      obtain ⟨lead, back, more, rfl, hback, hlead, hsegments, hscan⟩ :=
        ih fun other hother => hgaps other (by simp_all [Cutting.gaps])
      by_cases hgroup : ∃ digits, hole = .group digits
      · -- a reference to a group belongs to what stands in front of the next placeholder
        obtain ⟨digits, rfl⟩ := hgroup
        cases hhole with
        | group hnumber =>
            have hpassed : ∀ tail, tail <:+ '$' :: digits → tail ≠ [] →
                placeholder? (tail ++ (lead ++ back)) = none := by
              intro tail htail hne
              obtain ⟨c, rest, rfl⟩ := List.exists_cons_of_ne_nil hne
              rcases List.mem_cons.1 (htail.subset List.mem_cons_self) with rfl | hdigit
              · exact placeholder?_eq_none (by decide) (by decide)
              · have hc := hnumber.1 c hdigit
                apply placeholder?_eq_none <;> rintro rfl <;> exact absurd hc (by decide)
            have hnumber' : Hole.IsNumber digits lead :=
              ⟨hnumber.1, hnumber.2.imp_right fun hone => ⟨hone.1, hone.2.of_append⟩⟩
            refine ⟨gap ++ '$' :: (digits ++ lead), back, more, by simp, hback,
              not_replacementMark_append hgapMark hnumber.1 hlead, ?_, fun read hread => ?_⟩
            · have hnone : IsGap Stands gap ('$' :: (digits ++ lead) ++ back) := by simpa using hgap
              rw [referencesFrom_gap hnone hback, referencesFrom_group hnumber', ofCutting_cons,
                ← hsegments]
              simp [Hole.segment]
            · have hpass := scanFrom_pass hpassed true (gap.reverse ++ read)
              rw [List.cons_append] at hpass
              rw [scanFrom_gap hgap, hpass, hscan _ (by simpa using hread)]
              simp
      · have hplaceholder : placeholder? cs = some (hole.segment, lead ++ back) :=
          placeholder?_eq_some_iff.2
            ⟨hole, hhole, fun digits heq => hgroup ⟨digits, heq⟩, rfl⟩
        have hcs : NoDecimal cs := by
          obtain ⟨rest, rfl⟩ := hhole.exists_cons
          exact NoDecimal.of_signs hole.sign_mem
        refine ⟨gap, cs, hole.segment :: ofCutting ⟨spans, last⟩, rfl, hcs, hgapMark, ?_,
          fun read hread => ?_⟩
        · have hnone : IsGap Stands gap ([] ++ cs) := hgap
          have hpass := referencesFrom_gap hnone hcs []
          rw [ofCutting_cons]
          simpa [referencesFrom] using hpass
        · have hread' : ¬ replacementMark <:+: (gap.reverse ++ read).reverse := by simpa using hread
          rw [scanFrom_gap hgap, scanFrom_placeholder hplaceholder hread',
            hscan [] (by simpa using hlead)]
          simp [hsegments, hole.isLiteral_segment]

/-- The segments of a text are the gaps and the holes of its cutting. -/
theorem scan_of_cuts (h : Cuts Stands cs template)
    (hgaps : ∀ gap ∈ template.gaps, ¬ replacementMark <:+: gap) :
    scan cs = (joinLiterals (ofCutting template),
      (ofCutting template).any fun s => !s.isLiteral) := by
  obtain ⟨lead, back, more, -, -, hlead, hsegments, hscan⟩ := exists_scanFrom_of_cuts h hgaps
  have hstart := hscan [] (by simpa using hlead)
  rw [List.reverse_nil, List.nil_append, hsegments] at hstart
  rw [scan, hstart]

theorem any_joinLiterals (segments : List Segment) :
    ((joinLiterals segments).any fun s => !s.isLiteral) = segments.any fun s => !s.isLiteral := by
  fun_induction joinLiterals segments with
  | case1 => rfl
  | case2 rest a b more hjoined ih =>
      rw [hjoined] at ih
      simpa [isLiteral] using ih
  | case3 rest segment hjoined ih => rw [List.any_cons, List.any_cons, ih]

theorem any_ofCutting (h : template.spans ≠ []) :
    ((ofCutting template).any fun s => !s.isLiteral) = true := by
  obtain ⟨⟨gap, hole⟩, spans, hspans⟩ := List.exists_cons_of_ne_nil h
  simp [ofCutting, hspans, hole.isLiteral_segment]

end Segment

variable {content : Content} {rule : String} {template : Cutting Hole}

theorem Hole.ne_nil_of_cuts {cs : List Char} (hcuts : Cuts Hole.Stands cs template)
    (hfilled : template.spans ≠ []) : cs ≠ [] := by
  cases hcuts with
  | last => exact absurd rfl hfilled
  | @span gap cs _ _ _ _ _ hhole _ =>
      intro hnil
      obtain ⟨-, rfl⟩ := List.append_eq_nil_iff.1 hnil
      exact Hole.takesOff_stands.not_stands_nil hhole

/-- A text with holes in it is one stage, of its segments and without bindings. -/
theorem exists_pipeline_eq_of_cuts (hcuts : Cuts Hole.Stands (Text.trim rule.toList) template)
    (hfilled : template.spans ≠ []) (hgaps : ∀ gap ∈ template.gaps, ¬ ['#', '#'] <:+: gap)
    (hscripts : IsGap ScriptSpan.Stands rule.toList [])
    (hputs : Stage.splitPuts (Text.trim rule.toList) = ([], Text.trim rule.toList))
    (hbody : (Mode.detect content (Text.trim rule.toList)).2 = Text.trim rule.toList) :
    ∃ stage, pipeline content rule = [stage] ∧ stage.mode = .template ∧ stage.bindings = [] ∧
      stage.isTemplate = true ∧
      stage.segments = Segment.joinLiterals (Segment.ofCutting template) := by
  have htrim := Hole.ne_nil_of_cuts hcuts hfilled
  have hscan := Segment.scan_of_cuts hcuts hgaps
  have hany := Segment.any_ofCutting hfilled
  have hpipeline : pipeline content rule = [Stage.parse content (Text.trim rule.toList)] := by
    have hwhole : Cuts ScriptSpan.Stands rule.toList ⟨[], rule.toList⟩ := .last hscripts
    rw [pipeline_eq_stagesOf content hwhole]
    simp [stagesOf, gapStages, htrim]
  have hjoined := Segment.any_joinLiterals (Segment.ofCutting template)
  rw [hany] at hjoined
  have hsegments : (Stage.parse content (Text.trim rule.toList)).segments =
      Segment.joinLiterals (Segment.ofCutting template) := by
    simp only [Stage.parse, hputs, Text.trim_trim, hbody, hscan]
    split
    next hnil => simp [hnil] at hjoined
    next hliteral => simp [hliteral, Segment.isLiteral] at hjoined
    next => rfl
  refine ⟨_, hpipeline, ?_, ?_, ?_, hsegments⟩
  · simp [Stage.parse, hputs, Text.trim_trim, hbody, hscan, hany]
  · simp [Stage.parse, hputs]
  · unfold Stage.isTemplate
    rw [hsegments]
    cases hnil : Segment.joinLiterals (Segment.ofCutting template) with
    | nil => simp [hnil] at hjoined
    | cons => rfl

/-- A rule of literal text and of at least one reference to a variable or, for the groups of a
row, to a group. -/
structure IsTemplate (content : Content) (rule : String) (template : Cutting Hole) : Prop where
  cuts : Cuts Hole.Stands (Text.trim rule.toList) template
  filled : template.spans ≠ []
  values : ∀ part ∈ template.spans, (∃ mark name, part.2 = .lookup mark name) ∨
    content = .groups ∧ ∃ digits, part.2 = .group digits
  unreplaced : ∀ gap ∈ template.gaps, ¬ ['#', '#'] <:+: gap
  unscripted : IsGap ScriptSpan.Stands rule.toList []
  unbound : ¬ MentionsPut rule.toList
  unprefixed : content = .groups ∨ hasPrefix (Text.trim rule.toList) = false

theorem IsTemplate.exists_pipeline_eq (h : IsTemplate content rule template) :
    ∃ stage, pipeline content rule = [stage] ∧ stage.mode = .template ∧ stage.bindings = [] ∧
      stage.isTemplate = true ∧
      stage.segments = Segment.joinLiterals (Segment.ofCutting template) := by
  have hputs : Stage.splitPuts (Text.trim rule.toList) = ([], Text.trim rule.toList) :=
    Stage.splitPuts_eq fun hput => h.unbound (hput.of_isInfix (Text.trim_isInfix _))
  have hbody : (Mode.detect content (Text.trim rule.toList)).2 = Text.trim rule.toList := by
    rcases h.unprefixed with rfl | hbare
    · rfl
    · rw [detect_of_not_hasPrefix content hbare]
  exact exists_pipeline_eq_of_cuts h.cuts h.filled h.unreplaced h.unscripted hputs hbody

end BookRules.Rule
