import BookRules.Proofs.Rule.LastStep
import BookRules.Proofs.Select.Composition

/-!
# Navigation, element by element

What a step leads to is asked of every element on its own, and whether its selector can be read
does not depend on the element.  So a step is faulty for all elements or for none.  A chain
without a faulty step leads from each element to what it leads to from that element alone.  A
chain with one leads to nothing: either an element comes to the faulty step and the whole
fragment fails, or nothing is left before it and the fault is never seen.

Rows are selected by one function and their fields read by another, and each of them takes the
rule apart on its own: the chain loses its last step, the selector is cut at its last `@`.  A word
behind the rule with an `@` in front is one more step of the chain and stands behind the last `@`
of the selector.  So both functions come to the same elements, and the field is what the word takes
from the rows.
-/

namespace BookRules.Select.CssRule

open BookRules.Markup (Element)
open BookRules.Rule

variable {scope : List Element} {chain : List String} {rule step selector : String}

/-! ## One step -/

/-- The selector that a step asks for, without its index filter; children and texts are found
without one. -/
def asked? (step : List Char) : Option String :=
  let step := Text.trim step
  if step.isEmpty || step == "children".toList then none
  else
    let (kind, name) := (Text.cutAt? ['.'] step).getD ([], step)
    match String.ofList kind with
    | "class" =>
      match Text.words name with
      | [] => none
      | classes => some (String.ofList (classes.flatMap fun c => '.' :: escapeName c))
    | "tag" => some (String.ofList name)
    | "id" => some (String.ofList ('#' :: escapeName name))
    | "text" => none
    | _ => some (String.ofList step)

/-- The selector of the step cannot be read. -/
def IsFaulty (step : String) : Prop :=
  ∃ selector ∈ asked? (IndexFilter.split step.toList).1, Css.parse? selector = none

instance (step : String) : Decidable (IsFaulty step) :=
  decidable_of_iff
    (((asked? (IndexFilter.split step.toList).1).any fun s => (Css.parse? s).isNone) = true)
    (by simp [IsFaulty, Option.any_eq_true])

/-- A step does something with what its selector matches, or with the element itself. -/
theorem exists_located (e : Element) (cs : List Char) :
    ∃ (pick : List Element → List Element) (direct : List Element),
      located e cs = (asked? cs).elim (.ok direct) fun selector => pick <$> matching [e] selector := by
  have hsame : ∀ selector, matching [e] selector = id <$> matching [e] selector :=
    fun _ => (id_map _).symm
  unfold located asked?
  dsimp only
  split_ifs
  · exact ⟨id, e.childElements, rfl⟩
  · generalize (Text.cutAt? ['.'] (Text.trim cs)).getD ([], Text.trim cs) = cut
    generalize String.ofList cut.1 = kind
    split
    next =>
      generalize Text.words cut.2 = classes
      cases classes with
      | nil => exact ⟨id, [], rfl⟩
      | cons => exact ⟨id, [], hsame _⟩
    next => exact ⟨id, [], hsame _⟩
    next => exact ⟨List.take 1, [], rfl⟩
    next => exact ⟨id, _, rfl⟩
    next => exact ⟨id, [], by simp⟩

/-- The items that a filter keeps; without a filter all of them. -/
def narrowed (filter? : Option IndexFilter) (found : List Element) : List Element :=
  filter?.elim found fun filter => filter.apply found

theorem resolve_eq (step : String) (e : Element) :
    resolve step e = narrowed (IndexFilter.split step.toList).2 <$>
      located e (IndexFilter.split step.toList).1 := by
  unfold resolve
  generalize IndexFilter.split step.toList = parts
  obtain ⟨cs, filter?⟩ := parts
  dsimp only
  cases located e cs with
  | error => rfl
  | ok found => cases filter? <;> rfl

/-- What a step leads to from one element, nothing when it fails. -/
def landing (step : String) (e : Element) : List Element :=
  orNothing (resolve step e)

theorem exists_resolve_eq_error (h : IsFaulty step) :
    ∃ fault, ∀ e, resolve step e = .error fault := by
  obtain ⟨selector, hasked, hparse⟩ := h
  refine ⟨.invalidSelector selector, fun e => ?_⟩
  obtain ⟨pick, direct, hlocated⟩ := exists_located e (IndexFilter.split step.toList).1
  have hmatching : matching [e] selector = .error (.invalidSelector selector) := by
    simp [matching, hparse]
  rw [resolve_eq, hlocated, Option.mem_def.1 hasked, Option.elim_some, hmatching]
  rfl

theorem resolve_eq_ok (h : ¬ IsFaulty step) (e : Element) :
    resolve step e = .ok (landing step e) := by
  obtain ⟨pick, direct, hlocated⟩ := exists_located e (IndexFilter.split step.toList).1
  suffices hfound : ∃ found, resolve step e = .ok found by
    obtain ⟨found, hfound⟩ := hfound
    rw [landing, hfound, orNothing]
  rw [resolve_eq, hlocated]
  cases hasked : asked? (IndexFilter.split step.toList).1 with
  | none => exact ⟨_, rfl⟩
  | some selector =>
      cases hparse : Css.parse? selector with
      | none => exact absurd ⟨selector, hasked, hparse⟩ h
      | some selectors =>
          have hmatching : matching [e] selector = .ok ([e].flatMap (Css.select selectors)) := by
            simp [matching, hparse]
          rw [Option.elim_some, hmatching]
          exact ⟨_, rfl⟩

/-! ## A chain of steps -/

theorem follow_eq_mapM (step : String) (scope : List Element) :
    follow step scope = List.flatten <$> scope.mapM (resolve step) := by
  induction scope with
  | nil => rfl
  | cons e rest ih =>
      rw [follow, ih, List.mapM_cons]
      cases resolve step e with
      | error => rfl
      | ok found => cases rest.mapM (resolve step) <;> rfl

theorem follow_of_isFaulty (h : IsFaulty step) (hscope : scope ≠ []) :
    ∃ fault, follow step scope = .error fault := by
  obtain ⟨fault, hfault⟩ := exists_resolve_eq_error h
  obtain ⟨e, rest, rfl⟩ := List.exists_cons_of_ne_nil hscope
  exact ⟨fault, by rw [follow, hfault]; rfl⟩

theorem follow_of_not_isFaulty (h : ¬ IsFaulty step) (scope : List Element) :
    follow step scope = .ok (scope.flatMap (landing step)) := by
  induction scope with
  | nil => rfl
  | cons e rest ih =>
      rw [follow, ih, resolve_eq_ok h]
      rfl

/-- What a chain of steps leads to from one element. -/
def reached : List String → Element → List Element
  | [], e => [e]
  | step :: rest, e => (landing step e).flatMap (reached rest)

theorem navigate_append (p q : List String) (scope : List Element) :
    navigate (p ++ q) scope = navigate p scope >>= navigate q :=
  List.foldlM_append

theorem navigate_nil (chain : List String) : navigate chain [] = .ok [] := by
  induction chain with
  | nil => rfl
  | cons step chain ih => exact ih

/-- Without a faulty step the elements are followed one by one. -/
theorem navigate_of_not_isFaulty (h : ∀ step ∈ chain, ¬ IsFaulty step) (scope : List Element) :
    navigate chain scope = .ok (scope.flatMap (reached chain)) := by
  induction chain generalizing scope with
  | nil =>
      have hstay : scope.flatMap (reached []) = scope := by simp [reached]
      rw [hstay]
      rfl
  | cons step chain ih =>
      rw [List.forall_mem_cons] at h
      have hrest := ih h.2 (scope.flatMap (landing step))
      rw [List.flatMap_assoc] at hrest
      rw [navigate, List.foldlM_cons, follow_of_not_isFaulty h.1]
      exact hrest

/-- A faulty step is reached, or nothing is left in front of it. -/
theorem orNothing_navigate_of_isFaulty (h : ∃ step ∈ chain, IsFaulty step)
    (scope : List Element) : orNothing (navigate chain scope) = [] := by
  induction chain generalizing scope with
  | nil => simp at h
  | cons step chain ih =>
      rw [navigate, List.foldlM_cons]
      by_cases hstep : IsFaulty step
      · by_cases hscope : scope = []
        · rw [hscope]
          change orNothing (navigate chain []) = []
          rw [navigate_nil, orNothing]
        · obtain ⟨fault, hfault⟩ := follow_of_isFaulty hstep hscope
          rw [hfault]
          rfl
      · have hrest : ∃ step ∈ chain, IsFaulty step := by simpa [hstep] using h
        rw [follow_of_not_isFaulty hstep]
        exact ih hrest _

/-! ## Rules of one fragment -/

/-- What a chain gives for two lists of elements is put together from what it gives for each. -/
theorem orNothing_navigate_append (chain : List String) (s t : List Element) :
    orNothing (navigate chain (s ++ t)) =
      orNothing (navigate chain s) ++ orNothing (navigate chain t) := by
  by_cases h : ∃ step ∈ chain, IsFaulty step
  · simp only [orNothing_navigate_of_isFaulty h, List.append_nil]
  · have hsound : ∀ step ∈ chain, ¬ IsFaulty step := by simpa using h
    simp only [navigate_of_not_isFaulty hsound, orNothing, List.flatMap_append]

theorem orNothing_matching_append (selector : String) (s t : List Element) :
    orNothing (matching (s ++ t) selector) =
      orNothing (matching s selector) ++ orNothing (matching t selector) := by
  unfold matching
  cases Css.parse? selector with
  | none => rfl
  | some selectors => exact List.flatMap_append

theorem orNothing_fragmentElements_append (literal : Bool) (fragment : String)
    (s t : List Element) :
    orNothing (fragmentElements literal (s ++ t) fragment) =
      orNothing (fragmentElements literal s fragment) ++
        orNothing (fragmentElements literal t fragment) := by
  cases literal with
  | true =>
      simp only [fragmentElements, if_true]
      exact orNothing_matching_append _ s t
  | false =>
      simp only [fragmentElements, Bool.false_eq_true, if_false]
      exact orNothing_navigate_append _ s t

/-- A single fragment is all there is to merge. -/
theorem exists_fragment_of_isSingle
    (h : (split .rule Combinator.tokens (body rule).2).isSingle = true) :
    ∃ fragment, ∀ scope, elements scope rule =
      orNothing (fragmentElements (body rule).1 scope fragment) := by
  have hlength : (split .rule Combinator.tokens (body rule).2).fragments.length = 1 := by
    simpa [Fragments.isSingle] using h
  obtain ⟨fragment, hfragment⟩ := List.length_eq_one_iff.1 hlength
  refine ⟨fragment, fun scope => ?_⟩
  have helements : elements scope rule =
      (split .rule Combinator.tokens (body rule).2).kind.merge
        (fun fragment => orNothing (fragmentElements (body rule).1 scope fragment))
        (split .rule Combinator.tokens (body rule).2).fragments := rfl
  rw [helements, hfragment, Combinator.merge_singleton]

/-- Navigation maps every element to what it leads to and puts the results one after the other:
over two lists of elements, along two chains in a row, and within a step. -/
theorem navigation_maps_and_flattens (s t : List Element) :
    (∀ rule : String, (split .rule Combinator.tokens (body rule).2).isSingle = true →
      elements (s ++ t) rule = elements s rule ++ elements t rule) ∧
    (∀ p q : List String, navigate (p ++ q) s = navigate p s >>= navigate q) ∧
    (∀ step : String, navigate [step] s = List.flatten <$> s.mapM fun e =>
      narrowed (IndexFilter.split step.toList).2 <$>
        located e (IndexFilter.split step.toList).1) ∧
    ∀ chain : List String,
      ((∀ step ∈ chain, ¬ IsFaulty step) →
        navigate chain s = .ok (s.flatMap (reached chain))) ∧
      ((∃ step ∈ chain, IsFaulty step) → orNothing (navigate chain s) = []) := by
  refine ⟨fun rule hsingle => ?_, fun p q => navigate_append p q s, fun step => ?_, fun chain =>
    ⟨fun h => navigate_of_not_isFaulty h s, fun h => orNothing_navigate_of_isFaulty h s⟩⟩
  · obtain ⟨fragment, hfragment⟩ := exists_fragment_of_isSingle hsingle
    simp only [hfragment, orNothing_fragmentElements_append]
  · have hone : navigate [step] s = follow step s := by simp [navigate]
    rw [hone, follow_eq_mapM]
    simp only [funext (resolve_eq step)]

/-- A step with an index filter, and a chain that comes to a selector that cannot be read. -/
theorem navigation_maps_and_flattens_faulty :
    let s := [paragraphPage]
    (split .rule Combinator.tokens (body "tag.p@div[").2).isSingle = true ∧
    elements (s ++ s) "tag.p@div[" = elements s "tag.p@div[" ++ elements s "tag.p@div[" ∧
    (∀ step ∈ ["tag.p.0", "children"], ¬ IsFaulty step) ∧
    navigate ["tag.p.0", "children"] s = .ok (s.flatMap (reached ["tag.p.0", "children"])) ∧
    (∃ step ∈ ["tag.p", "div["], IsFaulty step) ∧
    orNothing (navigate ["tag.p", "div["] s) = [] := by
  intro s
  have hsingle : (split .rule Combinator.tokens (body "tag.p@div[").2).isSingle = true := by
    decide +kernel
  have hsound : ∀ step ∈ ["tag.p.0", "children"], ¬ IsFaulty step := by decide +kernel
  have hfaulty : ∃ step ∈ ["tag.p", "div["], IsFaulty step := by decide +kernel
  obtain ⟨hlists, -, -, hchains⟩ := navigation_maps_and_flattens s s
  exact ⟨hsingle, hlists _ hsingle, hsound, (hchains _).1 hsound, hfaulty, (hchains _).2 hfaulty⟩

/-! ## A word behind a chain -/

variable {word : String}

theorem apply_nil (extraction : Extraction) : extraction.apply [] = [] := by
  cases extraction <;> rfl

theorem orNothing_map (extraction : Extraction) (found : Except RuleError (List Element)) :
    orNothing (extraction.apply <$> found) = extraction.apply (orNothing found) := by
  cases found with
  | error => exact (apply_nil extraction).symm
  | ok elements => rfl

theorem steps_trimmed (rule : String) : steps (Text.trimmed rule) = steps rule := by
  rw [steps, split_trimmed, steps]

/-- The word is no part of the mark. -/
theorem not_isMarked_append_word (hrule : Text.trim rule.toList ≠ []) (hmark : ¬ IsMarked rule)
    (word : String) : ¬ IsMarked (rule ++ "@" ++ word) := by
  have hnone : Text.stripFrontNoCase? literalMark.toList rule.toList = none := by
    simpa [IsMarked] using hmark
  have hsign : (Text.lowerAscii literalMark.toList)[rule.toList.length]? ≠ some '@'.toLower := by
    have hne : rule.toList ≠ [] := by
      intro hnil
      rw [hnil] at hrule
      exact hrule rfl
    obtain ⟨c, rest, hcs⟩ := List.exists_cons_of_ne_nil hne
    have hlater : '@' ∉ (Text.lowerAscii literalMark.toList).tail := by decide
    rw [hcs]
    exact fun hsome => hlater (List.mem_of_getElem? hsome)
  simp [IsMarked, Text.stripFrontNoCase?_append_cons_of_ne hsign hnone]

theorem elements_eq_navigate (hmark : ¬ IsMarked rule) (hoperand : IsLastOperand .rule rule)
    (scope : List Element) : elements scope rule = orNothing (navigate (steps rule) scope) := by
  rw [elements_of_not_isMarked hmark, hoperand.split_eq, Combinator.merge_singleton]
  simp only [fragmentElements, Bool.false_eq_true, if_false, steps_trimmed]

theorem strings_append_word_of_not_isMarked (hword : IsWord word) (hmark : ¬ IsMarked rule)
    (hoperand : IsLastOperand .rule rule) (hcloses : ClosesItself .rule {} rule.toList)
    (hstep : ∃ step ∈ steps rule, step ≠ "") (scope : List Element) :
    strings scope (rule ++ "@" ++ word) =
      (Extraction.ofWord word).apply (elements scope rule) := by
  have hlonger : ¬ IsMarked (rule ++ "@" ++ word) :=
    not_isMarked_append_word hoperand.nonblank hmark word
  have hchain : steps (rule ++ "@" ++ word) = steps rule ++ [word] :=
    fragments_split_append_word hword hcloses hstep
  rw [strings_of_not_isMarked hlonger, (hoperand.append_word hword).split_eq,
    Combinator.merge_singleton, elements_eq_navigate hmark hoperand, ← orNothing_map]
  simp only [fragmentStrings, Bool.false_eq_true, if_false, steps_trimmed, hchain,
    List.dropLast_concat, List.getLast?_concat, Option.getD_some, bind_pure_comp]

/-! ## A word behind a selector -/

theorem splitLiteral_append_word (hword : IsWord word) (selector : String) :
    splitLiteral (Text.trimmed (selector ++ "@" ++ word)) =
      (Text.trimmed selector, Extraction.ofWord word) := by
  have hbody : (Text.trimmed (selector ++ "@" ++ word)).toList =
      Text.trimStart selector.toList ++ '@' :: word.toList := by
    rw [Text.trimmed, String.toList_ofList]
    exact hword.trim_append_word selector
  have hinside :
      (word.toList.any fun c => c == ']' || c == '\'' || c == '"' || c == ')') = false := by
    rw [List.any_eq_false]
    intro c hc
    have hordinary := (hword.2 c hc).1
    simp only [isOrdinary, List.contains_cons, Bool.and_eq_true, Bool.not_eq_true',
      Bool.or_eq_false_iff, beq_eq_false_iff_ne] at hordinary
    simp [hordinary]
  unfold splitLiteral
  rw [hbody, Text.cutAtLast?_append_cons hword.at_not_mem]
  simp [hinside, Text.trim_trimStart, Text.trimmed]

theorem elements_eq_matching (hoperand : IsLastOperand .rule selector) (scope : List Element) :
    elements scope (literalMark ++ selector) =
      orNothing (matching scope (Text.trimmed selector)) := by
  rw [elements_literalMark_append, hoperand.split_eq, Combinator.merge_singleton]
  simp only [fragmentElements, if_true, Text.trimmed_trimmed]

theorem strings_literalMark_append_word (hword : IsWord word)
    (hoperand : IsLastOperand .rule selector) (scope : List Element) :
    strings scope (literalMark ++ selector ++ "@" ++ word) =
      (Extraction.ofWord word).apply (elements scope (literalMark ++ selector)) := by
  have hnonempty : (Text.trimmed selector).isEmpty = false := by
    simpa [Text.trimmed] using hoperand.nonblank
  have hbody : literalMark ++ selector ++ "@" ++ word = literalMark ++ (selector ++ "@" ++ word) := by
    simp only [String.append_assoc]
  rw [hbody, strings_literalMark_append, (hoperand.append_word hword).split_eq,
    Combinator.merge_singleton, elements_eq_matching hoperand, ← orNothing_map]
  simp only [fragmentStrings, if_true, splitLiteral_append_word hword, hnonempty,
    Bool.false_eq_true, if_false, bind_pure_comp]

/-! ## Rows and their fields -/

/-- A word behind a rule takes from the elements that the rule selects, in their order; with a
selector that cannot be read there are no elements and no texts. -/
theorem words_take_from_rows (scope : List Element) {word : String} (hword : IsWord word) :
    (∀ rule : String, ¬ IsMarked rule → IsLastOperand .rule rule →
      ClosesItself .rule {} rule.toList → (∃ step ∈ steps rule, step ≠ "") →
      strings scope (rule ++ "@" ++ word) =
          (Extraction.ofWord word).apply (elements scope rule) ∧
        ((∃ step ∈ steps rule, IsFaulty step) →
          elements scope rule = [] ∧ strings scope (rule ++ "@" ++ word) = [])) ∧
    ∀ selector : String, IsLastOperand .rule selector →
      strings scope (literalMark ++ selector ++ "@" ++ word) =
          (Extraction.ofWord word).apply (elements scope (literalMark ++ selector)) ∧
        (Css.parse? (Text.trimmed selector) = none →
          elements scope (literalMark ++ selector) = [] ∧
            strings scope (literalMark ++ selector ++ "@" ++ word) = []) := by
  constructor
  · intro rule hmark hoperand hcloses hstep
    have hstrings := strings_append_word_of_not_isMarked hword hmark hoperand hcloses hstep scope
    refine ⟨hstrings, fun hfaulty => ?_⟩
    have hrows : elements scope rule = [] := by
      rw [elements_eq_navigate hmark hoperand]
      exact orNothing_navigate_of_isFaulty hfaulty scope
    rw [hstrings, hrows]
    exact ⟨rfl, apply_nil _⟩
  · intro selector hoperand
    have hstrings := strings_literalMark_append_word hword hoperand scope
    refine ⟨hstrings, fun hparse => ?_⟩
    have hrows : elements scope (literalMark ++ selector) = [] := by
      rw [elements_eq_matching hoperand, matching, hparse]
      rfl
    rw [hstrings, hrows]
    exact ⟨rfl, apply_nil _⟩

/-- Separators in quotes and brackets, a blank step and an `@` at the end; and selectors that
cannot be read. -/
theorem words_take_from_rows_hidden :
    let page := [paragraphPage]
    let word := "own-Text_1"
    let chain := " tag.p@ @p[title='a&&b@c']@"
    let broken := "tag.p@p:"
    let selector := " p:not([title='a||b@c'])"
    IsWord word ∧
    ((∀ rule ∈ [chain, broken], ¬ IsMarked rule ∧ IsLastOperand .rule rule ∧
        ClosesItself .rule {} rule.toList ∧ ∃ step ∈ steps rule, step ≠ "") ∧
      strings page (chain ++ "@" ++ word) =
        (Extraction.ofWord word).apply (elements page chain) ∧
      (∃ step ∈ steps broken, IsFaulty step) ∧ strings page (broken ++ "@" ++ word) = []) ∧
    (IsLastOperand .rule selector ∧ IsLastOperand .rule ">" ∧
      strings page (literalMark ++ selector ++ "@" ++ word) =
        (Extraction.ofWord word).apply (elements page (literalMark ++ selector)) ∧
      Css.parse? (Text.trimmed ">") = none ∧
      strings page (literalMark ++ ">" ++ "@" ++ word) = []) := by
  intro page word chain broken selector
  have hletters : ∀ c ∈ word.toList, c.isAlphanum = true ∨ c = '-' ∨ c = '_' := by decide
  have hword : IsWord word :=
    ⟨by decide, fun c hc => isWordSign_of_isAlphanum (hletters c hc)⟩
  have hrules : ∀ rule ∈ [chain, broken], ¬ IsMarked rule ∧ IsLastOperand .rule rule ∧
      ClosesItself .rule {} rule.toList ∧ ∃ step ∈ steps rule, step ≠ "" := by decide +kernel
  have hselector : IsLastOperand .rule selector := by decide +kernel
  have hbroken : IsLastOperand .rule ">" := by decide +kernel
  have hfaulty : ∃ step ∈ steps broken, IsFaulty step := by decide +kernel
  have hparse : Css.parse? (Text.trimmed ">") = none := by decide +kernel
  obtain ⟨hchains, hselectors⟩ := words_take_from_rows page hword
  obtain ⟨hmark, hoperand, hcloses, hstep⟩ := hrules chain (by simp)
  obtain ⟨hmark', hoperand', hcloses', hstep'⟩ := hrules broken (by simp)
  exact ⟨hword,
    ⟨hrules, (hchains chain hmark hoperand hcloses hstep).1, hfaulty,
      ((hchains broken hmark' hoperand' hcloses' hstep').2 hfaulty).2⟩,
    hselector, hbroken, (hselectors selector hselector).1, hparse,
    ((hselectors ">" hbroken).2 hparse).2⟩

end BookRules.Select.CssRule
