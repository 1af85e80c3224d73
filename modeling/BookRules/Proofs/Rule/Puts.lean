import BookRules.Proofs.Text.Occurrences
import BookRules.Proofs.Text.Trimming
import BookRules.Proofs.Unicode.Folding
import BookRules.Rule.Cache

/-!
# Rules that bind nothing

A rule binds variables only where it says so with `@put:`, in letters of either case.
The pieces, the stages and the rules in placeholders of a rule are all stretches of its
text, so in a rule without the mark no stage binds anything, and no rule inside it does.
-/

namespace BookRules.Rule

variable {cs part rest : List Char}

/-- The mark that binds variables stands in the text, in letters of either case. -/
def MentionsPut (cs : List Char) : Prop :=
  "@put:".toList <:+: Text.lowerAscii cs

instance (cs : List Char) : Decidable (MentionsPut cs) :=
  inferInstanceAs (Decidable (_ <:+: _))

theorem MentionsPut.of_isInfix (h : MentionsPut part) (hpart : part <:+: cs) : MentionsPut cs :=
  h.trans (hpart.map Char.toLower)

namespace Stage

theorem mentionsPut_of_put? {object after : List Char} (h : put? cs = some (object, after)) :
    MentionsPut cs := by
  unfold put? at h
  split at h
  next => simp at h
  next hfolded =>
    have hstart := (Unicode.isPrefix_lowerAscii_of_afterFolded?
      (fun w hw => Unicode.foldsAlone_of_mem_put (by simpa using hw)) hfolded).1
    exact (List.IsPrefix.trans ⟨['\x7b'], rfl⟩ hstart).isInfix

theorem put?_eq_none (h : ¬ MentionsPut cs) : put? cs = none := by
  cases hput : put? cs with
  | none => rfl
  | some found =>
      obtain ⟨object, after⟩ := found
      exact absurd (mentionsPut_of_put? hput) h

theorem put?_eq_none_of_isSuffix (h : ¬ MentionsPut cs) :
    ∀ tail, tail <:+ cs → put? tail = none :=
  fun _ htail => put?_eq_none fun hput => h (hput.of_isInfix htail.isInfix)

theorem putsFrom_eq_nil (h : ∀ tail, tail <:+ cs → put? tail = none) : putsFrom 0 cs = [] := by
  induction cs with
  | nil => rfl
  | cons c rest ih =>
      have hrest : ∀ tail, tail <:+ rest → put? tail = none :=
        fun tail htail => h tail (htail.trans (List.suffix_cons c rest))
      simp [putsFrom, h (c :: rest) List.suffix_rfl, ih hrest]

/-- Where nothing is bound the text is left as it is. -/
theorem splitPuts_eq_self (h : ∀ tail, tail <:+ cs → put? tail = none) :
    splitPuts cs = ([], cs) := by
  unfold splitPuts
  rw [putsFrom_eq_nil h, Text.replaceSpans_eq_self]
  · rfl
  · intro tail htail
    rw [h tail htail]
    rfl

/-- A text without the mark is left as it is. -/
theorem splitPuts_eq (h : ¬ MentionsPut cs) : splitPuts cs = ([], cs) :=
  splitPuts_eq_self (put?_eq_none_of_isSuffix h)

end Stage

/-! ## Stretches of a rule -/

theorem stripFront?_isSuffix {front after : List Char}
    (h : Text.stripFront? front cs = some after) : after <:+ cs :=
  ⟨front, Text.stripFront?_eq_some_iff.1 h⟩

theorem stripFrontNoCase?_isSuffix {front after : List Char}
    (h : Text.stripFrontNoCase? front cs = some after) : after <:+ cs := by
  unfold Text.stripFrontNoCase? at h
  split at h
  next =>
    obtain rfl := Option.some.inj h
    exact List.drop_suffix front.length cs
  next => simp at h

/-- Without its prefix a rule is an end of itself. -/
theorem Mode.detect_isSuffix (content : Content) (rule : List Char) :
    (Mode.detect content rule).2 <:+ rule := by
  unfold Mode.detect
  split_ifs
  · exact List.suffix_rfl
  · exact List.suffix_rfl
  · split
    next after hafter => exact stripFront?_isSuffix hafter
    next =>
      split
      next after hafter => exact stripFrontNoCase?_isSuffix hafter
      next =>
        split
        next after hafter => exact stripFrontNoCase?_isSuffix hafter
        next => split <;> exact List.suffix_rfl

namespace Segment

theorem ofBody_eq_rule {body : List Char} {text : String} (h : ofBody body = .rule text) :
    text.toList <:+: body := by
  unfold ofBody at h
  dsimp only at h
  split_ifs at h
  · obtain rfl := Segment.rule.inj h
    rw [String.toList_ofList]
    exact Text.trim_isInfix body

/-- The rule in a placeholder is a stretch of the text it stands in. -/
theorem placeholder?_isInfix {text : String} {after : List Char}
    (h : placeholder? cs = some (.rule text, after)) : text.toList <:+: cs := by
  unfold placeholder? at h
  dsimp only at h
  split at h
  next found hget =>
    -- a reference to a variable is no rule
    exfalso
    obtain rfl := Option.some.inj h
    split at hget
    next => simp at hget
    next => split at hget <;> simp at hget
  next =>
    split at h
    next rest hget =>
      obtain ⟨⟨body, back⟩, hcut, heq⟩ := Option.map_eq_some_iff.1 h
      simp only [Prod.mk.injEq] at heq
      have hbody : body <:+: rest := by
        rw [← Text.append_of_cutAt? hcut]
        exact ⟨[], ['\x7d', '\x7d'] ++ back, by simp⟩
      have hrest : rest <:+: '\x7b' :: '\x7b' :: rest :=
        (List.suffix_append ['\x7b', '\x7b'] rest).isInfix
      exact (ofBody_eq_rule heq.1).trans (hbody.trans hrest)
    next => simp at h

/-- The body of a placeholder: a rule or a script. -/
def IsBody : Segment → Prop
  | .rule _ | .script _ => True
  | _ => False

variable {segment : Segment}

theorem not_mem_ofText (hbody : segment.IsBody) {text : List Char} : segment ∉ ofText text := by
  unfold ofText
  split
  · simp
  · rw [List.mem_singleton]
    rintro rfl
    exact hbody

theorem not_mem_referencesFrom (hbody : segment.IsBody) {skip : Nat} {text : List Char} :
    segment ∉ referencesFrom skip text cs := by
  induction cs generalizing skip text with
  | nil => exact not_mem_ofText hbody
  | cons c rest ih =>
      cases skip with
      | succ skip => exact ih
      | zero =>
          unfold referencesFrom
          dsimp only
          split
          next index _ =>
            have hgroup : segment ≠ .group index := by
              rintro rfl
              exact hbody
            simp [not_mem_ofText hbody, hgroup, ih]
          next => exact ih

theorem not_mem_ofGap (hbody : segment.IsBody) {inRule : Bool} {gap : List Char} :
    segment ∉ ofGap inRule gap := by
  unfold ofGap
  split
  · simp [not_mem_ofText hbody, not_mem_referencesFrom hbody]
  · exact not_mem_ofText hbody

/-- Where the body of a placeholder comes from. -/
theorem exists_placeholder?_of_mem_scanFrom (hbody : segment.IsBody) {inRule : Bool} {skip : Nat}
    {gap : List Char} (h : segment ∈ (scanFrom inRule skip gap cs).1) :
    ∃ tail after, tail <:+ cs ∧ placeholder? tail = some (segment, after) := by
  induction cs generalizing inRule skip gap with
  | nil => exact absurd h (not_mem_ofGap hbody)
  | cons c rest ih =>
      have hlater : ∀ {inRule skip gap}, segment ∈ (scanFrom inRule skip gap rest).1 →
          ∃ tail after, tail <:+ c :: rest ∧ placeholder? tail = some (segment, after) := by
        intro inRule skip gap hmem
        obtain ⟨tail, after, htail, hplaceholder⟩ := ih hmem
        exact ⟨tail, after, htail.trans (List.suffix_cons c rest), hplaceholder⟩
      cases skip with
      | succ skip => exact hlater h
      | zero =>
          unfold scanFrom at h
          split at h
          next => exact hlater h
          next found after hplaceholder =>
            simp only [List.mem_append, List.mem_cons] at h
            rcases h with hbefore | rfl | hmore
            · exact absurd hbefore (not_mem_ofGap hbody)
            · exact ⟨c :: rest, after, List.suffix_rfl, hplaceholder⟩
            · exact hlater hmore

theorem mem_of_mem_joinLiterals (hbody : segment.IsBody) {segments : List Segment}
    (h : segment ∈ joinLiterals segments) : segment ∈ segments := by
  have hliteral : ∀ text, segment ≠ .literal text := by
    rintro text rfl
    exact hbody
  fun_induction joinLiterals segments with
  | case1 => exact h
  | case2 rest a b more hjoined ih =>
      rw [hjoined] at ih
      simp only [List.mem_cons, hliteral, false_or] at h ih ⊢
      exact ih h
  | case3 rest other hjoined ih =>
      rcases List.mem_cons.1 h with rfl | hrest
      · exact List.mem_cons_self
      · exact List.mem_cons_of_mem other (ih hrest)

theorem exists_placeholder?_of_mem_scan (hbody : segment.IsBody) (h : segment ∈ (scan cs).1) :
    ∃ tail after, tail <:+ cs ∧ placeholder? tail = some (segment, after) :=
  exists_placeholder?_of_mem_scanFrom hbody (mem_of_mem_joinLiterals hbody h)

end Segment

/-- A placeholder of a stage stands in the text without its bindings. -/
theorem Stage.exists_placeholder?_of_mem_segments (content : Content) {segment : Segment}
    (hbody : segment.IsBody) (h : segment ∈ (Stage.parse content cs).segments) :
    ∃ tail after, tail <:+: (Stage.splitPuts cs).2 ∧
      Segment.placeholder? tail = some (segment, after) := by
  have hstage : (Mode.detect content (Text.trim (Stage.splitPuts cs).2)).2 <:+:
      (Stage.splitPuts cs).2 :=
    (Mode.detect_isSuffix content _).isInfix.trans (Text.trim_isInfix _)
  have hscan : segment ∈
      (Segment.scan (Mode.detect content (Text.trim (Stage.splitPuts cs).2)).2).1 := by
    simp only [Stage.parse] at h
    split at h
    next => simp at h
    next => simp at h
    next => exact h
  obtain ⟨tail, after, htail, hplaceholder⟩ := Segment.exists_placeholder?_of_mem_scan hbody hscan
  exact ⟨tail, after, htail.isInfix.trans hstage, hplaceholder⟩

theorem Stage.exists_placeholder?_of_mem_parse (content : Content) (h : ¬ MentionsPut cs)
    {body : String} (hbody : .rule body ∈ (Stage.parse content cs).segments) :
    ∃ tail after, tail <:+: cs ∧ Segment.placeholder? tail = some (.rule body, after) := by
  have hrule : (Segment.rule body).IsBody := trivial
  have hfound := Stage.exists_placeholder?_of_mem_segments content hrule hbody
  rwa [Stage.splitPuts_eq h] at hfound

/-- A stage that binds nothing and holds no rule that does. -/
structure Stage.BindsNothing (stage : Stage) : Prop where
  bindings : stage.bindings = []
  nested : ∀ body, .rule body ∈ stage.segments → ¬ MentionsPut body.toList

theorem Stage.bindsNothing_parse (content : Content) (h : ¬ MentionsPut cs) :
    (Stage.parse content cs).BindsNothing := by
  constructor
  · simp [Stage.parse, Stage.splitPuts_eq h]
  · intro body hbody hmentions
    obtain ⟨tail, after, htail, hplaceholder⟩ :=
      Stage.exists_placeholder?_of_mem_parse content h hbody
    exact h (hmentions.of_isInfix ((Segment.placeholder?_isInfix hplaceholder).trans htail))

theorem Stage.bindsNothing_ofScript (source : List Char) :
    (Stage.ofScript source).BindsNothing where
  bindings := rfl
  nested := by simp [Stage.ofScript]

namespace Piece

/-- The texts between the scripts of a rule are stretches of it. -/
theorem text_mem_cutFrom {skip : Nat} {gap text : List Char} (hgap : skip = 0 ∨ gap = [])
    (h : .text text ∈ cutFrom skip gap cs) : text <:+: gap.reverse ++ cs := by
  induction cs generalizing skip gap with
  | nil =>
      unfold cutFrom at h
      obtain rfl := Piece.text.inj (List.mem_singleton.1 h)
      simp
  | cons c rest ih =>
      have hrest : rest <:+: gap.reverse ++ c :: rest := ⟨gap.reverse ++ [c], [], by simp⟩
      cases skip with
      | succ skip =>
          obtain rfl : gap = [] := by simpa using hgap
          exact (ih (Or.inr rfl) h).trans hrest
      | zero =>
          unfold cutFrom at h
          split at h
          next span after hscript =>
            simp only [List.mem_cons, Piece.text.injEq, reduceCtorEq, false_or] at h
            rcases h with rfl | hmore
            · exact (List.prefix_append gap.reverse (c :: rest)).isInfix
            · exact (ih (Or.inr rfl) hmore).trans hrest
          next =>
            have hlonger := ih (Or.inl rfl) h
            rwa [List.reverse_cons, List.append_assoc, List.singleton_append] at hlonger

end Piece

/-- A stage is a script, or is read from a stretch of the rule. -/
theorem exists_of_mem_pipeline {content : Content} {rule : String} {stage : Stage}
    (hstage : stage ∈ pipeline content rule) :
    (∃ source, stage = Stage.ofScript source) ∨
      ∃ text, text <:+: rule.toList ∧ stage = Stage.parse content text := by
  obtain ⟨piece, hpiece, hsome⟩ := List.mem_filterMap.1 hstage
  cases piece with
  | text text =>
      unfold Piece.stage? at hsome
      dsimp only at hsome
      split_ifs at hsome
      have htext : text <:+: rule.toList := by
        simpa using Piece.text_mem_cutFrom (Or.inl rfl) hpiece
      exact .inr ⟨_, (Text.trim_isInfix text).trans htext, (Option.some.inj hsome).symm⟩
  | script span =>
      unfold Piece.stage? at hsome
      dsimp only at hsome
      split_ifs at hsome
      exact .inl ⟨_, (Option.some.inj hsome).symm⟩

/-- Without the mark in a rule none of its stages binds anything. -/
theorem bindsNothing_of_mem_pipeline {content : Content} {rule : String} {stage : Stage}
    (hrule : ¬ MentionsPut rule.toList) (hstage : stage ∈ pipeline content rule) :
    stage.BindsNothing := by
  rcases exists_of_mem_pipeline hstage with ⟨source, rfl⟩ | ⟨text, htext, rfl⟩
  · exact Stage.bindsNothing_ofScript source
  · exact Stage.bindsNothing_parse content fun hmentions => hrule (hmentions.of_isInfix htext)

end BookRules.Rule
