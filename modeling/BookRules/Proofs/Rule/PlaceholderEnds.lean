import BookRules.Proofs.Rule.CutBraces
import BookRules.Proofs.Rule.Templates
import BookRules.Proofs.Text.Spans

/-!
# Ends of placeholders

The search for a closing brace passes over a balanced text, but a placeholder ends at the
first pair of closing braces, whatever stands in front of it.  So a text in braces is one
placeholder exactly where no pair of closing braces stands in it, nor at its end together
with the braces around it, and where nothing in it binds a variable: bindings are taken out
before placeholders are looked for.

A placeholder with the same body as the whole text has as many characters that are not blank,
so nothing but blanks can be taken out or left over.
-/

namespace BookRules.Rule

open Text (InBraces isBlank)

variable {content : Content} {cs s body after : List Char} {c : Char}

/-- A text in two braces on either side. -/
def wrapped (s : List Char) : List Char :=
  '\x7b' :: '\x7b' :: s ++ ['\x7d', '\x7d']

/-- The number of characters that are not blank. -/
def solids (cs : List Char) : Nat :=
  cs.countP fun c => !isBlank c

theorem solids_append (front back : List Char) :
    solids (front ++ back) = solids front + solids back :=
  List.countP_append

theorem solids_cons (hc : isBlank c = false) (cs : List Char) : solids (c :: cs) = solids cs + 1 := by
  simp [solids, hc]

theorem solids_eq_zero (h : ∀ c ∈ cs, isBlank c = true) : solids cs = 0 := by
  simpa [solids, List.countP_eq_zero] using h

theorem solids_trim (cs : List Char) : solids (Text.trim cs) = solids cs := by
  obtain ⟨front, back, hfront, hback, hcs⟩ := Text.exists_blank_append_trim_append cs
  conv_rhs => rw [← hcs]
  rw [solids_append, solids_append, solids_eq_zero hfront, solids_eq_zero hback]
  omega

theorem solids_wrapped (s : List Char) : solids (wrapped s) = solids s + 4 := by
  have hbraces : solids ['\x7d', '\x7d'] = 2 := by decide
  rw [wrapped, List.cons_append, List.cons_append, solids_cons (by decide), solids_cons (by decide),
    solids_append, hbraces]

/-! ## Bindings in a text -/

theorem exists_of_afterFolded?_at {word rest : List Char}
    (h : Unicode.afterFolded? ('@' :: word) cs = some rest) :
    ∃ more, cs = '@' :: more ∧ Unicode.afterFolded? word more = some rest := by
  cases cs with
  | nil => simp [Unicode.afterFolded?] at h
  | cons c more =>
      rw [Unicode.afterFolded?] at h
      split_ifs at h with hc
      have hform := (Unicode.fold_eq_iff (by decide)).1 hc
      obtain rfl : c = '@' := by simpa [Unicode.letterForms] using hform
      exact ⟨more, rfl, h⟩

namespace Stage

theorem exists_of_put? {object : List Char} (h : put? cs = some (object, after)) :
    ∃ rest, cs = '@' :: rest ∧ after <:+ rest := by
  unfold put? at h
  split at h
  next => simp at h
  next rest hfolded =>
    obtain ⟨more, rfl, hword⟩ := exists_of_afterFolded?_at hfolded
    have hrest := (Unicode.isPrefix_lowerAscii_of_afterFolded?
      (fun w hw => Unicode.foldsAlone_of_mem_put (List.mem_cons_of_mem '@' hw)) hword).2
    refine ⟨more, rfl, ?_⟩
    split at h
    next first name closing behind _ hdrop =>
      obtain ⟨-, rfl⟩ := Prod.mk.inj (Option.some.inj h)
      have hbehind : behind <:+ rest.dropWhile (· != '\x7d') := hdrop ▸ List.suffix_cons _ _
      exact (hbehind.trans (List.dropWhile_suffix _)).trans hrest
    next => simp at h

/-- Bindings are replaced by nothing. -/
def binding : Text.Recogniser :=
  fun cs => (put? cs).map fun found => ([], found.2)

theorem opensWith_binding : binding.OpensWith '@' := by
  intro out cs after hreads
  obtain ⟨⟨object, behind⟩, hput, hpair⟩ := Option.map_eq_some_iff.1 hreads
  obtain ⟨-, rfl⟩ := Prod.mk.inj hpair
  exact exists_of_put? hput

theorem binding_loses : binding.Loses fun c => !isBlank c := by
  intro out cs after hreads
  obtain ⟨rest, rfl, hsuffix⟩ := opensWith_binding out cs after hreads
  obtain ⟨found, -, hpair⟩ := Option.map_eq_some_iff.1 hreads
  obtain ⟨rfl, -⟩ := Prod.mk.inj hpair
  have hle : solids after ≤ solids rest := hsuffix.sublist.countP_le
  have hsign : solids ('@' :: rest) = solids rest + 1 := solids_cons (by decide) rest
  have hlt : solids after < solids ('@' :: rest) := by omega
  rw [List.countP_nil, Nat.zero_add]
  exact hlt

theorem passesOver_binding_iff : binding.PassesOver cs ↔ ∀ tail, tail <:+ cs → put? tail = none := by
  simp [Text.Recogniser.PassesOver, binding]

theorem passesOver_binding_of_not_mentionsPut (h : ¬ MentionsPut cs) : binding.PassesOver cs :=
  passesOver_binding_iff.2 fun _ htail => put?_eq_none fun hput => h (hput.of_isInfix htail.isInfix)

theorem splitPuts_eq_self_or_solids_lt (cs : List Char) :
    binding.PassesOver cs ∨ solids (splitPuts cs).2 < solids cs :=
  Text.passesOver_or_countP_lt opensWith_binding.takesOff binding_loses cs

end Stage

/-! ## The first pair of closing braces -/

theorem exists_inBraces (s : List Char) : ∃ body after, InBraces body (wrapped s) after := by
  have hoccurs : Text.occursIn ['\x7d', '\x7d'] (s ++ ['\x7d', '\x7d']) = true := by
    rw [Text.occursIn_iff_isInfix]
    exact (List.suffix_append s _).isInfix
  obtain ⟨⟨body, after⟩, hcut⟩ := Option.isSome_iff_exists.1 hoccurs
  obtain ⟨htext, hfirst⟩ := (Text.cutAt?_eq_some_iff (by simp)).1 hcut
  refine ⟨body, after, ?_, hfirst⟩
  rw [wrapped, List.cons_append, List.cons_append, ← htext]
  simp

theorem inBraces_wrapped (h : ¬ ['\x7d', '\x7d'] <:+: s ++ ['\x7d']) : InBraces s (wrapped s) [] :=
  ⟨rfl, h⟩

theorem trim_wrapped (s : List Char) : Text.trim (wrapped s) = wrapped s := by
  have hwhole : wrapped s = '\x7b' :: ('\x7b' :: s ++ ['\x7d']) ++ ['\x7d'] := by simp [wrapped]
  rw [hwhole]
  exact Text.trim_cons_concat (by decide) (by decide) _

theorem hasPrefix_wrapped (s : List Char) : hasPrefix (wrapped s) = false := rfl

namespace Segment

theorem isBody_ofBody (body : List Char) : (ofBody body).IsBody := by
  unfold ofBody
  dsimp only
  split <;> trivial

theorem trim_eq_of_ofBody_eq (h : ofBody body = ofBody s) : Text.trim body = Text.trim s := by
  unfold ofBody at h
  dsimp only at h
  split_ifs at h
  · exact String.ofList_inj.1 (Segment.rule.inj h)
  · exact String.ofList_inj.1 (Segment.script.inj h)

theorem joinLiterals_cons {segment : Segment} (h : segment.IsBody) (rest : List Segment) :
    joinLiterals (segment :: rest) = segment :: joinLiterals rest := by
  cases segment <;> first | exact h.elim | simp [joinLiterals]

theorem scan_of_inBraces (h : InBraces body cs after) :
    scan cs = (ofBody body :: (scan after).1, true) := by
  have hplaceholder : placeholder? cs = some (ofBody body, after) :=
    placeholder?_eq_some_iff.2 ⟨.braces body, .braces h, by simp, rfl⟩
  have hscan : scanFrom true 0 [] cs =
      (referencesFrom 0 [] [] ++ ofBody body :: (scanFrom true 0 [] after).1, true) :=
    scanFrom_placeholder hplaceholder (by decide)
  rw [scan, hscan]
  simp [referencesFrom, ofText, joinLiterals_cons (isBody_ofBody body), scan]

end Segment

theorem Stage.segments_of_inBraces (hputs : binding.PassesOver (wrapped s))
    (h : InBraces body (wrapped s) after) :
    (Stage.parse content (wrapped s)).segments = Segment.ofBody body :: (Segment.scan after).1 := by
  have hsplit := Stage.splitPuts_eq_self (Stage.passesOver_binding_iff.1 hputs)
  have hdetect := congrArg Prod.snd (detect_of_not_hasPrefix content (hasPrefix_wrapped s))
  have hbody := Segment.isBody_ofBody body
  simp only [Stage.parse, hsplit, trim_wrapped, hdetect, Segment.scan_of_inBraces h]
  split
  next heq => simp at heq
  next text heq =>
    obtain ⟨hliteral, -⟩ := List.cons.inj heq
    rw [hliteral] at hbody
    exact hbody.elim
  next => rfl

/-! ## The whole text as one placeholder -/

theorem Segment.exists_wrapped_of_mem (h : Segment.ofBody s ∈ (Stage.parse content cs).segments) :
    ∃ body, wrapped body <:+: (Stage.splitPuts cs).2 ∧
      ¬ ['\x7d', '\x7d'] <:+: body ++ ['\x7d'] ∧ Text.trim body = Text.trim s := by
  have hbody := Segment.isBody_ofBody s
  obtain ⟨tail, after, htail, hplaceholder⟩ :=
    Stage.exists_placeholder?_of_mem_segments content hbody h
  obtain ⟨hole, hstands, -, hsegment⟩ := Segment.placeholder?_eq_some_iff.1 hplaceholder
  cases hstands with
  | lookup =>
      rw [← hsegment] at hbody
      exact hbody.elim
  | @braces body _ _ hbraces =>
      obtain ⟨rfl, hfirst⟩ := hbraces
      have hfront : wrapped body <:+: '\x7b' :: '\x7b' :: body ++ '\x7d' :: '\x7d' :: after :=
        ⟨[], after, by simp [wrapped]⟩
      exact ⟨body, hfront.trans htail, hfirst, Segment.trim_eq_of_ofBody_eq hsegment⟩
  | group =>
      rw [← hsegment] at hbody
      exact hbody.elim

/-- Nothing but blanks can be cut off, and a text in braces neither starts nor ends with one. -/
theorem eq_of_wrapped_isInfix (hpart : wrapped body <:+: wrapped s)
    (hsolids : solids body = solids s) : body = s := by
  obtain ⟨front, back, hwhole⟩ := hpart
  have hcount := congrArg solids hwhole
  rw [solids_append, solids_append, solids_wrapped, solids_wrapped] at hcount
  have hfront : front = [] := by
    cases front with
    | nil => rfl
    | cons c front =>
        obtain ⟨rfl, -⟩ := List.cons.inj hwhole
        rw [solids_cons (by decide)] at hcount
        omega
  have hback : back = [] := by
    rcases List.eq_nil_or_concat back with hnil | ⟨before, d, rfl⟩
    · exact hnil
    · have hconcat : front ++ wrapped body ++ before ++ [d] =
          '\x7b' :: '\x7b' :: s ++ ['\x7d'] ++ ['\x7d'] := by simpa [wrapped] using hwhole
      obtain rfl := List.singleton_inj.1 (List.append_inj' hconcat rfl).2
      have hbrace : solids ['\x7d'] = 1 := by decide
      rw [List.concat_eq_append, solids_append, hbrace] at hcount
      omega
  simpa [hfront, hback, wrapped] using hwhole

theorem Stage.of_segments_eq (h : (Stage.parse content (wrapped s)).segments = [Segment.ofBody s]) :
    binding.PassesOver (wrapped s) ∧ ¬ ['\x7d', '\x7d'] <:+: s ++ ['\x7d'] := by
  have hmem : Segment.ofBody s ∈ (Stage.parse content (wrapped s)).segments := by simp [h]
  obtain ⟨body, hpart, hfirst, htrim⟩ := Segment.exists_wrapped_of_mem hmem
  have hsolids : solids body = solids s := by rw [← solids_trim body, htrim, solids_trim]
  rcases Stage.splitPuts_eq_self_or_solids_lt (wrapped s) with hputs | hlt
  · rw [Stage.splitPuts_eq_self (Stage.passesOver_binding_iff.1 hputs)] at hpart
    obtain rfl := eq_of_wrapped_isInfix hpart hsolids
    exact ⟨hputs, hfirst⟩
  · have hle : solids (wrapped body) ≤ solids (Stage.splitPuts (wrapped s)).2 :=
      hpart.sublist.countP_le
    rw [solids_wrapped] at hle hlt
    omega

/-- The search for the closing brace comes to the end of a balanced text, and a placeholder to
the first pair of closing braces. -/
theorem segments_wrapped (content : Content) (s : List Char) :
    (Items .braces s → afterBalanced? .script '\x7b' '\x7d' 0 0 (wrapped s) = some []) ∧
    (Stage.binding.PassesOver (wrapped s) → ∃ body after, InBraces body (wrapped s) after ∧
      (Stage.parse content (wrapped s)).segments =
        Segment.ofBody body :: (Segment.scan after).1) ∧
    ((Stage.parse content (wrapped s)).segments = [Segment.ofBody s] ↔
      Stage.binding.PassesOver (wrapped s) ∧ ¬ ['\x7d', '\x7d'] <:+: s ++ ['\x7d']) := by
  refine ⟨fun hitems => ?balanced, fun hputs => ?first, ?whole⟩
  case balanced =>
    have hall := (isBalanced_nested (k := 2) hitems (by decide)).afterBalanced?_append []
    rwa [List.append_nil] at hall
  case first =>
    obtain ⟨body, after, hbraces⟩ := exists_inBraces s
    exact ⟨body, after, hbraces, Stage.segments_of_inBraces hputs hbraces⟩
  case whole =>
    refine ⟨Stage.of_segments_eq, fun h => ?_⟩
    rw [Stage.segments_of_inBraces h.1 (inBraces_wrapped h.2)]
    rfl

/-- Something stands between the braces of a snippet and those around it. -/
theorem segments_wrapped_field :
    let s := "#\x7ba:1\x7d.a".toList
    Items .braces s ∧ afterBalanced? .script '\x7b' '\x7d' 0 0 (wrapped s) = some [] ∧
      Stage.binding.PassesOver (wrapped s) ∧
      (Stage.parse .markup (wrapped s)).segments = [.script "#\x7ba:1\x7d.a"] := by
  intro s
  have hmap : Items .braces "a:1".toList :=
    .plain (by decide) (.plain (by decide) (.plain (by decide) .nil))
  have hitems : Items .braces s :=
    .plain (by decide) (.balanced hmap (.plain (by decide) (.plain (by decide) .nil)))
  have hputs : Stage.binding.PassesOver (wrapped s) :=
    Stage.passesOver_binding_of_not_mentionsPut (by decide)
  obtain ⟨hbalanced, -, hwhole⟩ := segments_wrapped .markup s
  exact ⟨hitems, hbalanced hitems, hputs, hwhole.2 ⟨hputs, by decide⟩⟩

/-- The closing brace of a snippet and one of those around it are a pair. -/
theorem not_segments_wrapped : ¬ ∀ content s, Items .braces s → Text.trim s ≠ [] →
    (Stage.parse content (wrapped s)).segments = [Segment.ofBody s] := by
  intro h
  have hmap : Items .braces "a:1".toList :=
    .plain (by decide) (.plain (by decide) (.plain (by decide) .nil))
  have hitems : Items .braces "#\x7ba:1\x7d".toList := .plain (by decide) (.balanced hmap .nil)
  have hpair := (Stage.of_segments_eq (h .markup _ hitems (by decide))).2
  exact hpair (by decide)

end BookRules.Rule
