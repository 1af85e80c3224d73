import BookRules.Proofs.Text.Cuttings
import BookRules.Proofs.Text.Trimming
import BookRules.Proofs.Unicode.LetterCase
import BookRules.Rule.Pipeline

/-!
# Rules cut at scripts

A script stands in tags, up to the nearest closing tag, or behind a mark up to the end of the
rule.  The four ways to open one differ in their first two signs, so at any place at most one
of them is met, and a rule has one cutting.  Its stages are those of the gaps and of the
scripts, in order.

No opening mark reaches across a bracket into a tag.  A text without opening marks is
therefore a gap in front of any script, and a rule around a script has the stages of what
stands in front of it, the script, and the stages of what follows.
-/

namespace BookRules.Rule

open Text (Cutting Cuts IsGap TakesOff trim)
open Unicode (InAnyCase HoldsMark IsMark afterFolded? letterForms)

def scriptTags : List (String × String) :=
  [("<script>", "</script>"), ("<js>", "</js>")]

/-- The marks of scripts that go on to the end. -/
def tailMarks : List String :=
  ["@script:", "@js:"]

def openingMarks : List String :=
  scriptTags.map Prod.fst ++ tailMarks

namespace ScriptSpan

/-- A script in tags, up to the nearest closing tag. -/
def StandsInTags (span : ScriptSpan) (cs after : List Char) : Prop :=
  ∃ tags ∈ scriptTags,
    InAnyCase tags.1.toList span.opening ∧ InAnyCase tags.2.toList span.closing ∧
    ¬ HoldsMark tags.2.toList span.source ∧
    span.opening ++ span.source ++ span.closing ++ after = cs

/-- A script behind a mark, up to the end. -/
def StandsToEnd (span : ScriptSpan) (cs after : List Char) : Prop :=
  ∃ mark ∈ tailMarks,
    InAnyCase mark.toList span.opening ∧ span.opening ++ span.source = cs ∧
    span.closing = [] ∧ after = []

/-- A script stands in front of a text, and something follows it. -/
def Stands (span : ScriptSpan) (cs after : List Char) : Prop :=
  span.StandsInTags cs after ∨ span.StandsToEnd cs after

end ScriptSpan

variable {tag opening closing cs after source form before gap : List Char} {span : ScriptSpan}

theorem isMark_of_mem_openingMarks {mark : String} (h : mark ∈ openingMarks) :
    IsMark mark.toList := by
  have hall : ∀ mark ∈ openingMarks, IsMark mark.toList := by decide
  exact hall mark h

def IsTag (tag : List Char) : Prop :=
  IsMark tag ∧ tag.head? = some '<'

theorem isTag_of_mem_scriptTags {tags : String × String} (h : tags ∈ scriptTags) :
    IsTag tags.1.toList ∧ IsTag tags.2.toList := by
  unfold IsTag
  have hall : ∀ tags ∈ scriptTags,
      (IsMark tags.1.toList ∧ tags.1.toList.head? = some '<') ∧
        IsMark tags.2.toList ∧ tags.2.toList.head? = some '<' := by
    decide
  exact hall tags h

theorem IsTag.exists_form_eq (h : IsTag tag) (hform : InAnyCase tag form) :
    ∃ rest, form = '<' :: rest := by
  cases hform with
  | nil => simp [IsTag] at h
  | @cons w c _ rest hc hrest =>
      obtain rfl : w = '<' := by simpa using h.2
      obtain rfl : c = '<' := by
        have hforms : letterForms '<' = ['<', '<'] := by decide
        simpa [hforms] using hc
      exact ⟨rest, rfl⟩

namespace Piece

/-- Reading up to a tag stops at the first one. -/
theorem upToTag?_eq_some_iff (htag : IsTag tag) {read : List Char} :
    upToTag? tag before cs = some (read, form, after) ↔
      ∃ source, read = before.reverse ++ source ∧ InAnyCase tag form ∧
        ¬ HoldsMark tag source ∧ source ++ form ++ after = cs := by
  obtain ⟨hne, hsigns, -⟩ := htag.1
  induction cs generalizing before with
  | nil =>
      constructor
      · simp [upToTag?]
      · rintro ⟨source, -, hform, -, hnil⟩
        obtain ⟨rest, rfl⟩ := htag.exists_form_eq hform
        simp at hnil
  | cons c rest ih =>
      cases hfound : afterFolded? tag (c :: rest) with
      | some behind =>
          obtain ⟨found, hfoundForm, htext⟩ := (Unicode.afterFolded?_eq_some_iff hsigns).1 hfound
          have htake : (c :: rest).take tag.length = found := by
            rw [← htext, hfoundForm.length_eq, List.take_left]
          rw [upToTag?, hfound]
          dsimp only
          rw [htake]
          constructor
          · intro heq
            simp only [Option.some.injEq, Prod.mk.injEq] at heq
            obtain ⟨rfl, rfl, rfl⟩ := heq
            exact ⟨[], by simp, hfoundForm, Unicode.not_holdsMark_nil hne, htext⟩
          · rintro ⟨source, rfl, hform, hfree, hother⟩
            -- a longer source would hold the tag that stands here
            obtain rfl : source = [] := by
              by_contra hsource
              obtain ⟨back, rfl⟩ := htag.exists_form_eq hform
              have hnone := htag.1.afterFolded?_append hsource hfree (back ++ after)
              rw [← hother, List.append_assoc, List.cons_append, hnone] at hfound
              simp at hfound
            have hlength : form.length = found.length := by
              rw [← hform.length_eq, ← hfoundForm.length_eq]
            rw [← htext, List.nil_append] at hother
            obtain ⟨rfl, rfl⟩ := List.append_inj hother hlength
            simp
      | none =>
          rw [upToTag?, hfound]
          dsimp only
          refine ih.trans ⟨?_, ?_⟩
          · rintro ⟨source, rfl, hform, hfree, rfl⟩
            refine ⟨c :: source, by simp, hform, ?_, rfl⟩
            rw [Unicode.holdsMark_cons_iff hsigns, not_or]
            refine ⟨?_, hfree⟩
            have hlonger : afterFolded? tag (c :: source ++ (form ++ after)) = none := by
              simpa using hfound
            rw [Option.not_isSome_iff_eq_none]
            exact Unicode.afterFolded?_eq_none_of_append hlonger
          · rintro ⟨source, rfl, hform, hfree, htext⟩
            cases source with
            | nil =>
                have hsome := (Unicode.afterFolded?_eq_some_iff hsigns).2 ⟨form, hform, htext⟩
                rw [hfound] at hsome
                simp at hsome
            | cons d source =>
                obtain ⟨rfl, htail⟩ := List.cons.inj htext
                rw [Unicode.holdsMark_cons_iff hsigns, not_or] at hfree
                exact ⟨source, by simp, hform, hfree.2, htail⟩

theorem tagged?_eq_some_iff {tags : String × String} (htags : tags ∈ scriptTags) :
    tagged? tags.1.toList tags.2.toList cs = some (span, after) ↔
      InAnyCase tags.1.toList span.opening ∧ InAnyCase tags.2.toList span.closing ∧
        ¬ HoldsMark tags.2.toList span.source ∧
        span.opening ++ span.source ++ span.closing ++ after = cs := by
  obtain ⟨hopens, hcloses⟩ := isTag_of_mem_scriptTags htags
  unfold tagged?
  constructor
  · intro h
    split at h
    next => simp at h
    next rest hfound =>
      obtain ⟨opening, hopening, rfl⟩ :=
        (Unicode.afterFolded?_eq_some_iff hopens.1.2.1).1 hfound
      obtain ⟨⟨source, closing, behind⟩, hup, heq⟩ := Option.map_eq_some_iff.1 h
      obtain ⟨rfl, rfl⟩ := Prod.mk.inj heq
      obtain ⟨source, rfl, hclosing, hfree, rfl⟩ := (upToTag?_eq_some_iff hcloses).1 hup
      rw [hopening.length_eq, List.take_left]
      exact ⟨hopening, hclosing, hfree, by simp⟩
  · rintro ⟨hopening, hclosing, hfree, rfl⟩
    have hfound := hopening.afterFolded?_append hopens.1.2.1
      (span.source ++ (span.closing ++ after))
    have hup : upToTag? tags.2.toList [] (span.source ++ (span.closing ++ after)) =
        some (span.source, span.closing, after) :=
      (upToTag?_eq_some_iff hcloses).2 ⟨span.source, rfl, hclosing, hfree, by simp⟩
    simp only [List.append_assoc]
    rw [hfound]
    dsimp only
    rw [hup, hopening.length_eq]
    simp

theorem tail?_eq_some_iff {mark : String} (hmark : mark ∈ tailMarks) :
    tail? mark.toList cs = some (span, after) ↔
      InAnyCase mark.toList span.opening ∧ span.opening ++ span.source = cs ∧
        span.closing = [] ∧ after = [] := by
  have hopens : IsMark mark.toList :=
    isMark_of_mem_openingMarks (List.mem_append_right _ hmark)
  unfold tail?
  rw [Option.map_eq_some_iff]
  constructor
  · rintro ⟨source, hfound, heq⟩
    obtain ⟨opening, hopening, rfl⟩ := (Unicode.afterFolded?_eq_some_iff hopens.2.1).1 hfound
    obtain ⟨rfl, rfl⟩ := Prod.mk.inj heq
    rw [hopening.length_eq, List.take_left]
    exact ⟨hopening, rfl, rfl, rfl⟩
  · rintro ⟨hopening, rfl, hclosing, rfl⟩
    refine ⟨span.source, hopening.afterFolded?_append hopens.2.1 span.source, ?_⟩
    rw [hopening.length_eq, List.take_left, ← hclosing]

/-- What opens a script is the form of one mark only. -/
theorem afterFolded?_eq_none_of_other {mark other : String} (hmark : mark ∈ openingMarks)
    (hother : other ∈ openingMarks) (hne : other ≠ mark) (hform : InAnyCase mark.toList form) :
    afterFolded? other.toList (form ++ after) = none := by
  have hdiffer : ∀ mark ∈ openingMarks, ∀ other ∈ openingMarks, other ≠ mark →
      ((mark.toList.zip other.toList).any fun signs =>
        (letterForms signs.1).all fun c => !(letterForms signs.2).contains c) = true := by
    decide
  obtain ⟨signs, hsigns, hapart⟩ := List.any_eq_true.1 (hdiffer mark hmark other hother hne)
  rw [Option.eq_none_iff_forall_ne_some]
  intro behind hfound
  obtain ⟨form', hform', htext⟩ :=
    (Unicode.afterFolded?_eq_some_iff (isMark_of_mem_openingMarks hother).2.1).1 hfound
  obtain ⟨c, hc, hc'⟩ := Unicode.exists_mem_letterForms hform hform' htext.symm signs hsigns
  simpa [hc'] using List.all_eq_true.1 hapart c hc

theorem tagged?_eq_none (h : afterFolded? opening cs = none) : tagged? opening closing cs = none := by
  rw [tagged?, h]

theorem tail?_eq_none (h : afterFolded? opening cs = none) : tail? opening cs = none := by
  rw [tail?, h, Option.map_none]

theorem script?_eq_some_iff : script? cs = some (span, after) ↔ span.Stands cs after := by
  unfold script?
  constructor
  · intro h
    simp only [Option.or_eq_some_iff] at h
    rcases h with hscript | ⟨-, hjs | ⟨-, hscriptMark | ⟨-, hjsMark⟩⟩⟩
    · exact Or.inl ⟨("<script>", "</script>"), by simp [scriptTags],
        (tagged?_eq_some_iff (by simp [scriptTags])).1 hscript⟩
    · exact Or.inl ⟨("<js>", "</js>"), by simp [scriptTags],
        (tagged?_eq_some_iff (by simp [scriptTags])).1 hjs⟩
    · exact Or.inr ⟨"@script:", by simp [tailMarks],
        (tail?_eq_some_iff (by simp [tailMarks])).1 hscriptMark⟩
    · exact Or.inr ⟨"@js:", by simp [tailMarks],
        (tail?_eq_some_iff (by simp [tailMarks])).1 hjsMark⟩
  · -- the ways are tried in turn, and those in front of the one that stands here find nothing
    rintro (⟨tags, htags, hstands⟩ | ⟨mark, hmark, hstands⟩)
    · have hfound := (tagged?_eq_some_iff htags).2 hstands
      obtain ⟨hopening, -, -, htext⟩ := hstands
      have hopens : tags.1 ∈ openingMarks :=
        List.mem_append_left _ (List.mem_map_of_mem htags)
      have hothers : ∀ other ∈ openingMarks, other ≠ tags.1 →
          afterFolded? other.toList cs = none := by
        intro other hother hne
        rw [← htext, List.append_assoc, List.append_assoc]
        exact afterFolded?_eq_none_of_other hopens hother hne hopening
      simp only [scriptTags, List.mem_cons, List.not_mem_nil, or_false] at htags
      rcases htags with rfl | rfl
      · rw [hfound, Option.some_or]
      · rw [tagged?_eq_none (hothers "<script>" (by decide) (by decide)), hfound,
          Option.none_or, Option.some_or]
    · have hfound := (tail?_eq_some_iff hmark).2 hstands
      obtain ⟨hopening, htext, -, -⟩ := hstands
      have hopens : mark ∈ openingMarks := List.mem_append_right _ hmark
      have hothers : ∀ other ∈ openingMarks, other ≠ mark →
          afterFolded? other.toList cs = none := by
        intro other hother hne
        rw [← htext]
        exact afterFolded?_eq_none_of_other hopens hother hne hopening
      have hscript : "<script>" ≠ mark ∧ "<js>" ≠ mark := by
        constructor <;> rintro rfl <;> simp [tailMarks] at hmark
      rw [tagged?_eq_none (hothers "<script>" (by decide) hscript.1),
        tagged?_eq_none (hothers "<js>" (by decide) hscript.2), Option.none_or, Option.none_or]
      simp only [tailMarks, List.mem_cons, List.not_mem_nil, or_false] at hmark
      rcases hmark with rfl | rfl
      · rw [hfound, Option.some_or]
      · rw [tail?_eq_none (hothers "@script:" (by decide) (by decide)), hfound, Option.none_or]

end Piece

/-! ## The cutting of a rule -/

theorem takesOff_stands : TakesOff ScriptSpan.Stands := by
  have hfront : ∀ mark ∈ openingMarks, ∀ opening rest cs, InAnyCase mark.toList opening →
      opening ++ rest = cs → ∃ c others, cs = c :: others ∧ rest <:+ others := by
    rintro mark hmark opening rest cs hopening rfl
    have hne : opening ≠ [] := by
      rintro rfl
      exact (isMark_of_mem_openingMarks hmark).1 (List.forall₂_nil_right_iff.1 hopening)
    obtain ⟨c, opening, rfl⟩ := List.exists_cons_of_ne_nil hne
    exact ⟨c, opening ++ rest, rfl, List.suffix_append opening rest⟩
  rintro span cs after (⟨tags, htags, hopening, -, -, htext⟩ | ⟨mark, hmark, hopening, htext, -, rfl⟩)
  · rw [List.append_assoc, List.append_assoc] at htext
    obtain ⟨c, others, hcs, hsuffix⟩ := hfront tags.1
      (List.mem_append_left _ (List.mem_map_of_mem htags)) _ _ _ hopening htext
    exact ⟨c, others, hcs, ((List.suffix_append _ after).trans
      (List.suffix_append span.source _)).trans hsuffix⟩
  · obtain ⟨c, others, hcs, -⟩ := hfront mark (List.mem_append_right _ hmark) _ _ _ hopening htext
    exact ⟨c, others, hcs, List.nil_suffix⟩

theorem ScriptSpan.Stands.eq {span' : ScriptSpan} {after' : List Char} (h : span.Stands cs after)
    (h' : span'.Stands cs after') : span = span' ∧ after = after' := by
  have hsome := Piece.script?_eq_some_iff.2 h
  rw [Piece.script?_eq_some_iff.2 h'] at hsome
  simpa [eq_comm] using hsome

theorem cuts_unique {rule : List Char} {cutting other : Cutting ScriptSpan}
    (h : Cuts ScriptSpan.Stands rule cutting) (hother : Cuts ScriptSpan.Stands rule other) :
    other = cutting :=
  hother.unique takesOff_stands (fun _ _ _ _ _ => ScriptSpan.Stands.eq) h

theorem ScriptSpan.Stands.source_append (h : span.Stands cs after) :
    (Piece.script span).source ++ after = cs := by
  rcases h with ⟨tags, -, -, -, -, htext⟩ | ⟨mark, -, -, htext, hclosing, rfl⟩
  · exact htext
  · simpa [Piece.source, hclosing] using htext

/-- The stages of the text between two scripts. -/
def gapStages (content : Content) (gap : List Char) : List Stage :=
  if trim gap = [] then [] else [Stage.parse content (trim gap)]

def scriptStages (source : List Char) : List Stage :=
  if trim source = [] then [] else [{ mode := .script, expression := String.ofList (trim source) }]

def stagesOf (content : Content) (cutting : Cutting ScriptSpan) : List Stage :=
  cutting.spans.flatMap (fun part => gapStages content part.1 ++ scriptStages part.2.source) ++
    gapStages content cutting.last

namespace Piece

theorem cutFrom_skip (skip : Nat) (cs : List Char) :
    cutFrom skip [] cs = cutFrom 0 [] (cs.drop skip) := by
  induction cs generalizing skip with
  | nil => cases skip <;> simp [cutFrom]
  | cons c rest ih =>
      cases skip with
      | zero => rfl
      | succ skip => simpa [cutFrom] using ih skip

theorem cutFrom_gap (hgap : IsGap ScriptSpan.Stands gap cs) (read : List Char) :
    cutFrom 0 read (gap ++ cs) = cutFrom 0 (gap.reverse ++ read) cs := by
  induction gap generalizing read with
  | nil => rfl
  | cons c gap ih =>
      obtain ⟨hhere, hlater⟩ := Text.isGap_cons_iff.1 hgap
      have hnone : script? (c :: (gap ++ cs)) = none := by
        rw [Option.eq_none_iff_forall_ne_some]
        rintro ⟨span, after⟩ hsome
        exact hhere span after (script?_eq_some_iff.1 hsome)
      rw [List.cons_append, cutFrom, hnone]
      dsimp only
      rw [ih hlater]
      simp

theorem cut_eq {rule : List Char} {cutting : Cutting ScriptSpan}
    (h : Cuts ScriptSpan.Stands rule cutting) :
    cut rule = cutting.spans.flatMap (fun part => [.text part.1, .script part.2]) ++
      [.text cutting.last] := by
  unfold cut
  induction h with
  | @last gap hgap => simpa [cutFrom] using cutFrom_gap hgap []
  | @span gap cs after last span spans hgap hspan hmore ih =>
      obtain ⟨c, rest, rfl, hsuffix⟩ := takesOff_stands span cs after hspan
      rw [cutFrom_gap hgap, cutFrom, script?_eq_some_iff.2 hspan]
      dsimp only
      rw [cutFrom_skip, Text.drop_eq_of_isSuffix hsuffix, ih]
      simp

theorem stage?_text (content : Content) (gap : List Char) :
    (stage? content (.text gap)).toList = gapStages content gap := by
  unfold stage? gapStages
  by_cases hblank : trim gap = [] <;> simp [hblank]

theorem stage?_script (content : Content) (span : ScriptSpan) :
    (stage? content (.script span)).toList = scriptStages span.source := by
  unfold stage? scriptStages
  by_cases hblank : trim span.source = [] <;> simp [hblank, Stage.ofScript]

end Piece

theorem pipeline_eq_stagesOf (content : Content) {rule : String} {cutting : Cutting ScriptSpan}
    (h : Cuts ScriptSpan.Stands rule.toList cutting) :
    pipeline content rule = stagesOf content cutting := by
  have hpieces : pipeline content rule =
      (Piece.cut rule.toList).flatMap fun piece => (Piece.stage? content piece).toList := by
    unfold pipeline
    induction Piece.cut rule.toList with
    | nil => rfl
    | cons piece pieces ih => cases hstage : piece.stage? content <;> simp [hstage, ih]
  rw [hpieces, Piece.cut_eq h, List.flatMap_append, List.flatMap_assoc]
  simp [Piece.stage?_text, Piece.stage?_script, stagesOf]

/-! ## A script between two texts -/

def OpensNoScript (cs : List Char) : Prop :=
  ∀ mark ∈ openingMarks, ¬ HoldsMark mark.toList cs

instance (cs : List Char) : Decidable (OpensNoScript cs) :=
  inferInstanceAs (Decidable (∀ mark ∈ openingMarks, _))

theorem not_stands_of_afterFolded? (h : ∀ mark ∈ openingMarks, afterFolded? mark.toList cs = none) :
    ¬ span.Stands cs after := by
  have hnot : ∀ mark ∈ openingMarks, ∀ rest, InAnyCase mark.toList span.opening →
      span.opening ++ rest ≠ cs := by
    intro mark hmark rest hopening htext
    have hfound := (Unicode.afterFolded?_eq_some_iff (isMark_of_mem_openingMarks hmark).2.1).2
      ⟨span.opening, hopening, htext⟩
    rw [h mark hmark] at hfound
    simp at hfound
  rintro (⟨tags, htags, hopening, -, -, htext⟩ | ⟨mark, hmark, hopening, htext, -, -⟩)
  · rw [List.append_assoc, List.append_assoc] at htext
    exact hnot tags.1 (List.mem_append_left _ (List.mem_map_of_mem htags)) _ hopening htext
  · exact hnot mark (List.mem_append_right _ hmark) _ hopening htext

theorem OpensNoScript.isGap (h : OpensNoScript gap) : IsGap ScriptSpan.Stands gap [] := by
  intro tail htail hne span after
  rw [List.append_nil]
  apply not_stands_of_afterFolded?
  intro mark hmark
  rw [← Option.not_isSome_iff_eq_none,
    Unicode.isSome_afterFolded?_iff (isMark_of_mem_openingMarks hmark).2.1]
  rintro ⟨form, hform, hstarts⟩
  exact h mark hmark ⟨form, hform, hstarts.isInfix.trans htail.isInfix⟩

theorem opensNoScript_of_blank (h : ∀ c ∈ cs, Text.isBlank c = true) : OpensNoScript cs := by
  rintro mark hmark ⟨form, hform, hstretch⟩
  have hsigns : (openingMarks.all fun mark => mark.toList.head?.any fun w =>
      (letterForms w).all fun c => !Text.isBlank c) = true := by
    decide
  have hsign := List.all_eq_true.1 hsigns mark hmark
  generalize mark.toList = letters at hform hsign
  cases hform with
  | nil => simp at hsign
  | @cons w c _ rest hc hrest =>
      have hblank := h c (hstretch.mem List.mem_cons_self)
      have hother := List.all_eq_true.1 hsign c hc
      simp [hblank] at hother

/-- A blank rule has no stages. -/
theorem pipeline_of_blank (content : Content) {rule : String} (h : Text.isBlankText rule = true) :
    pipeline content rule = [] := by
  have hblank : ∀ c ∈ rule.toList, Text.isBlank c = true := List.all_eq_true.1 h
  have hgap := (opensNoScript_of_blank hblank).isGap
  have htrim : trim rule.toList = [] := Text.trim_eq_nil_iff.2 hblank
  rw [pipeline_eq_stagesOf content (.last hgap)]
  simp [stagesOf, gapStages, htrim]

theorem OpensNoScript.isGap_bracket (h : OpensNoScript gap) (back : List Char) :
    IsGap ScriptSpan.Stands gap ('<' :: back) := by
  intro tail htail hne span after
  apply not_stands_of_afterFolded?
  intro mark hmark
  exact (isMark_of_mem_openingMarks hmark).afterFolded?_append hne
    (fun hholds => h mark hmark (hholds.of_isInfix htail.isInfix)) back

/-- A rule is put together from the texts between its scripts and the scripts as they stand
in it from left to right, and its stages are those of these pieces in order.  Around a script
in tags the stages are those of what stands in front of it, the script, and those of what
follows it. -/
theorem pipeline_of_scripts (content : Content) :
    (∀ rule : String, ∃ cutting : Cutting ScriptSpan,
      Cuts ScriptSpan.Stands rule.toList cutting ∧
      (∀ other, Cuts ScriptSpan.Stands rule.toList other → other = cutting) ∧
      cutting.fill (fun span => (Piece.script span).source) = rule.toList ∧
      pipeline content rule = stagesOf content cutting) ∧
    ∀ tags ∈ scriptTags, ∀ opening closing, InAnyCase tags.1.toList opening →
      InAnyCase tags.2.toList closing → ∀ before source after : List Char,
      OpensNoScript before → trim source ≠ [] → ¬ HoldsMark tags.2.toList source →
      pipeline content (String.ofList (before ++ opening ++ source ++ closing ++ after)) =
        pipeline content (String.ofList before) ++
          [{ mode := .script, expression := String.ofList (trim source) }] ++
          pipeline content (String.ofList after) := by
  constructor
  · intro rule
    obtain ⟨cutting, hcuts⟩ := Text.exists_cuts takesOff_stands rule.toList
    have hsource : ∀ span cs after, ScriptSpan.Stands span cs after →
        (Piece.script span).source ++ after = cs :=
      fun _ _ _ => ScriptSpan.Stands.source_append
    exact ⟨cutting, hcuts, fun _ => cuts_unique hcuts, hcuts.fill_eq hsource,
      pipeline_eq_stagesOf content hcuts⟩
  · intro tags htags opening closing hopening hclosing before source after hbefore hsource hfree
    obtain ⟨back, hbracket⟩ := (isTag_of_mem_scriptTags htags).1.exists_form_eq hopening
    obtain ⟨⟨spans, last⟩, hafter⟩ := Text.exists_cuts takesOff_stands after
    have hstands : ScriptSpan.Stands ⟨opening, source, closing⟩
        (opening ++ source ++ closing ++ after) after :=
      Or.inl ⟨tags, htags, hopening, hclosing, hfree, rfl⟩
    have hgap : IsGap ScriptSpan.Stands before (opening ++ source ++ closing ++ after) := by
      rw [hbracket]
      simpa using hbefore.isGap_bracket (back ++ source ++ closing ++ after)
    have hrule := Cuts.span hgap hstands hafter
    have hfront := Cuts.last hbefore.isGap
    simp only [← List.append_assoc] at hrule
    rw [pipeline_eq_stagesOf content (by simpa using hrule),
      pipeline_eq_stagesOf content (by simpa using hfront),
      pipeline_eq_stagesOf content (by simpa using hafter)]
    simp [stagesOf, scriptStages, hsource]

theorem pipeline_of_script_in_capitals :
    pipeline .markup "book<JS> x </js>.title" =
      pipeline .markup "book" ++ [{ mode := .script, expression := "x" }] ++
        pipeline .markup ".title" := by
  have hjs : ("<js>", "</js>") ∈ scriptTags := by decide
  have hpipeline := (pipeline_of_scripts .markup).2 ("<js>", "</js>") hjs "<JS>".toList "</js>".toList
    (by decide) (by decide) "book".toList " x ".toList ".title".toList (by decide) (by decide)
    (by decide)
  exact hpipeline

end BookRules.Rule
