import BookRules.Proofs.Select.PathPredicates
import BookRules.Proofs.Select.PathSteps

/-!
# Paths put together from steps

The steps of a path are read one by one, and the reading of one step depends neither on its
neighbours nor on the blanks around it, since no predicate reaches into them.  So the
selector of a path is put together from the selectors of its steps as the path is from the
steps, and only the number of matches to leave out goes from one step to the next.
-/

namespace BookRules.Select.XPathRule

open Text (trim trimEnd isBlank)

variable {cs front back compound found body : List Char} {skipped : Option Nat} {path : String}
  {segment last : Segment} {steps : List Segment}

/-! ## Reading one step -/

/-- What a step contributes to the selector, and the number of matches it leaves out. -/
structure IsReadAs (cs compound : List Char) (skipped : Option Nat) : Prop where
  compound_eq : compound? (splitSkip cs).2 = some compound
  skip_eq : (splitSkip cs).1 = skipped

theorem not_mem_of_blank {c : Char} (hc : isBlank c = false) (h : ∀ d ∈ cs, isBlank d = true) :
    c ∉ cs := by
  intro hmem
  simp [h c hmem] at hc

theorem splitSkip_append_append (hfront : ∀ c ∈ front, isBlank c = true)
    (hback : ∀ c ∈ back, isBlank c = true) (cs : List Char) :
    splitSkip (front ++ cs ++ back) = ((splitSkip cs).1, front ++ (splitSkip cs).2 ++ back) := by
  have hbracket : isBlank '[' = false := by decide
  have hfront' := not_mem_of_blank hbracket hfront
  have hback' := not_mem_of_blank hbracket hback
  have hends := skipTest_endsBefore_blank hback
  have hfirst : Text.firstSpan? skipTest back = none :=
    (Text.firstSpan?_eq_none_iff skipTest_standsIn.opensWith.takesOff).2
      (skipTest_standsIn.opensWith.passesOver hback')
  have hself : Text.replaceSpans withoutSkip back = back :=
    Text.replaceSpans_eq_self (withoutSkip_standsIn.opensWith.passesOver hback')
  apply Prod.ext
  · rw [splitSkip_fst, splitSkip_fst, List.append_assoc,
      skipTest_standsIn.opensWith.firstSpan?_append hfront', Text.firstSpan?_append hends, hfirst,
      Option.or_none]
  · rw [splitSkip_snd, splitSkip_snd, List.append_assoc,
      withoutSkip_standsIn.opensWith.replaceSpans_append hfront',
      Text.replaceSpans_append withoutSkip_standsIn.opensWith.takesOff (withoutSkip_endsBefore hends), hself,
      List.append_assoc]

theorem compound?_append_append (hfront : ∀ c ∈ front, isBlank c = true)
    (hback : ∀ c ∈ back, isBlank c = true) (cs : List Char) :
    compound? (front ++ cs ++ back) = compound? cs := by
  have hcolon : ∀ {part : List Char}, (∀ c ∈ part, isBlank c = true) → ∀ c ∈ part, c ∉ [':', ':'] := by
    intro part hpart c hc hmem
    obtain rfl : c = ':' := by simpa using hmem
    exact not_mem_of_blank (by decide) hpart hc
  unfold compound?
  rw [Text.occursIn_append_append (hcolon hfront) (hcolon hback), Text.trim_append_blank hback,
    Text.trim_blank_append hfront]

theorem isReadAs_append_append_iff (hfront : ∀ c ∈ front, isBlank c = true)
    (hback : ∀ c ∈ back, isBlank c = true) :
    IsReadAs (front ++ cs ++ back) compound skipped ↔ IsReadAs cs compound skipped := by
  have hsplit := splitSkip_append_append hfront hback cs
  constructor
  · intro h
    refine ⟨?_, ?_⟩
    · rw [← h.compound_eq, hsplit, compound?_append_append hfront hback]
    · rw [← h.skip_eq, hsplit]
  · intro h
    refine ⟨?_, ?_⟩
    · rw [hsplit, compound?_append_append hfront hback, h.compound_eq]
    · rw [hsplit, h.skip_eq]

/-! ## Reading a path with its steps known -/

theorem selectorOf_cons (h : IsReadAs segment.text compound skipped) (path : String) (first : Bool)
    (skip : Nat) (rest : List Segment) :
    selectorOf path first skip (segment :: rest) =
      (selectorOf path false (skipped.getD skip) rest).map fun found =>
        ((if first then [] else if segment.anyDepth then [' '] else " > ".toList) ++ compound ++
          found.1, found.2) := by
  rw [selectorOf]
  simp only [h.compound_eq, h.skip_eq]
  cases selectorOf path false (skipped.getD skip) rest <;> rfl

theorem isReadAs_of_selectorOf {skip total : Nat}
    (h : selectorOf path true skip [segment] = .ok (found, total)) :
    IsReadAs segment.text found (splitSkip segment.text).1 ∧
      total = (splitSkip segment.text).1.getD skip := by
  unfold selectorOf at h
  cases hcompound : compound? (splitSkip segment.text).2 with
  | none => simp [hcompound] at h
  | some compound =>
      simp only [hcompound, selectorOf] at h
      obtain ⟨rfl, rfl⟩ := Prod.mk.inj (Except.ok.inj h)
      exact ⟨⟨by simpa using hcompound, rfl⟩, rfl⟩

/-- A location path read from its steps. -/
def ofSteps (path : String) (extract? : Option String) (steps : List Segment) :
    Except RuleError Location :=
  match selectorOf path true 0 steps with
  | .error e => .error e
  | .ok (selector, skip) =>
    if (trim selector).isEmpty then .error (.xpathWithoutElements path)
    else .ok { selector := String.ofList selector, extract?, skip }

section Body

variable (hbody : relative (trim path.toList) = body) (hne : body ≠ [])
  (hsegments : segments body = steps ++ [last])

include hbody hne hsegments

theorem locate_plain (hlast : extraction? last.text = none) :
    locate path = ofSteps path none (steps ++ [last]) := by
  have hextract : ((steps ++ [last]).getLast?.bind fun segment => extraction? segment.text) =
      none := by
    simp [hlast]
  simp only [locate, hbody, List.isEmpty_eq_false_iff.2 hne, hsegments, hextract]
  rfl

theorem locate_extraction {extract : String} (hlast : extraction? last.text = some extract) :
    locate path = ofSteps path (some extract) steps := by
  have hextract : ((steps ++ [last]).getLast?.bind fun segment => extraction? segment.text) =
      some extract := by
    simp [hlast]
  have hsteps : (steps ++ [last]).dropLast = steps := List.dropLast_concat
  simp only [locate, hbody, List.isEmpty_eq_false_iff.2 hne, hsegments, hextract, hsteps]
  rfl

end Body

theorem ofSteps_eq_ok {total : Nat} (h : selectorOf path true 0 steps = .ok (found, total))
    (hne : trim found ≠ []) (extract? : Option String) :
    ofSteps path extract? steps =
      .ok { selector := String.ofList found, extract? := extract?, skip := total } := by
  unfold ofSteps
  simp [h, hne]

theorem selectorOf_of_ofSteps {location : Location} {extract? : Option String}
    (h : ofSteps path extract? steps = .ok location) :
    selectorOf path true 0 steps = .ok (location.selector.toList, location.skip) ∧
      trim location.selector.toList ≠ [] := by
  unfold ofSteps at h
  cases hsteps : selectorOf path true 0 steps with
  | error e => simp [hsteps] at h
  | ok found =>
      obtain ⟨selector, skip⟩ := found
      by_cases hnil : trim selector = []
      · simp [hsteps, hnil] at h
      · simp only [hsteps, List.isEmpty_iff, hnil, if_false, Except.ok.injEq] at h
        subst h
        exact ⟨by simp, by simpa using hnil⟩

/-! ## Steps that are read by themselves -/

/-- A step of a path, and the location it is by itself. -/
structure Step where
  text : String
  alone : Location
  notBlank : ¬ ∀ c ∈ text.toList, isBlank c = true
  closed : Nesting.afterAll {} text.toList = {}
  hidesSlashes : Nesting.HidesSlashes {} text.toList
  locate_eq : locate text = .ok alone

theorem hidesSlashes_trim (h : Nesting.HidesSlashes {} cs) : Nesting.HidesSlashes {} (trim cs) := by
  obtain ⟨front, back, hfront, -, hcs⟩ := Text.exists_blank_append_trim_append cs
  rw [← hcs, Nesting.hidesSlashes_append_iff, Nesting.hidesSlashes_append_iff,
    Nesting.afterAll_of_isBlank hfront] at h
  exact h.1.2

theorem relative_eq_self (h : Nesting.HidesSlashes {} cs) : relative cs = cs := by
  have htop : Nesting.isTop {} = true := rfl
  have hdot : Nesting.after {} '.' = {} := rfl
  unfold relative
  split
  · simp [Nesting.HidesSlashes, hdot, htop] at h
  · simp [Nesting.HidesSlashes, htop] at h
  · simp [Nesting.HidesSlashes, hdot, htop] at h
  · simp [Nesting.HidesSlashes, htop] at h
  · rfl

theorem segments_step (hne : cs ≠ []) (h : Nesting.HidesSlashes {} cs) :
    segments cs = [⟨false, cs⟩] :=
  segmentsFrom_pathText (List.forall_mem_nil _) hne h false

namespace Step

def selector (step : Step) : String :=
  step.alone.selector

/-- The step holds a predicate that leaves matches out. -/
def skips (step : Step) : Bool :=
  (Text.firstSpan? skipTest step.text.toList).isSome

def skip? (step : Step) : Option Nat :=
  if step.skips then some step.alone.skip else none

theorem isClosed (step : Step) : IsClosed step.text.toList where
  nonempty hnil := step.notBlank (by simp [hnil])
  closed := step.closed
  hidesSlashes := step.hidesSlashes

/-- By itself a step is no extraction, and its reading is that of its text between blanks. -/
theorem reads (step : Step) : extraction? (trim step.text.toList) = none ∧
    selectorOf step.text true 0 [⟨false, trim step.text.toList⟩] =
      .ok (step.selector.toList, step.alone.skip) ∧ trim step.selector.toList ≠ [] := by
  have hslashes := hidesSlashes_trim step.hidesSlashes
  have hne : trim step.text.toList ≠ [] := fun hnil => step.notBlank (Text.trim_eq_nil_iff.1 hnil)
  have hbody := relative_eq_self hslashes
  have hsegments : segments (trim step.text.toList) = [] ++ [⟨false, trim step.text.toList⟩] :=
    segments_step hne hslashes
  have halone := step.locate_eq
  cases hlast : extraction? (trim step.text.toList) with
  | some extract =>
      rw [locate_extraction hbody hne hsegments hlast] at halone
      obtain ⟨hnothing, hsome⟩ := selectorOf_of_ofSteps halone
      rw [selectorOf] at hnothing
      rw [← (Prod.mk.inj (Except.ok.inj hnothing)).1] at hsome
      exact absurd rfl hsome
  | none =>
      rw [locate_plain hbody hne hsegments hlast] at halone
      exact ⟨rfl, selectorOf_of_ofSteps halone⟩

theorem skips_eq (step : Step) : step.skips = (splitSkip step.text.toList).1.isSome := by
  rw [splitSkip_fst, Option.isSome_map, skips]

theorem isReadAs (step : Step) : IsReadAs step.text.toList step.selector.toList step.skip? := by
  obtain ⟨front, back, hfront, hback, hcs⟩ :=
    Text.exists_blank_append_trim_append step.text.toList
  obtain ⟨-, hselector, -⟩ := step.reads
  obtain ⟨hread, hskip⟩ := isReadAs_of_selectorOf hselector
  have htext := (isReadAs_append_append_iff hfront hback).2 hread
  rw [hcs] at htext
  refine ⟨htext.compound_eq, ?_⟩
  rw [← htext.skip_eq] at hskip
  unfold skip?
  rw [skips_eq]
  cases hsplit : (splitSkip step.text.toList).1 with
  | none => rfl
  | some skip => simp [hskip, hsplit]

end Step

/-! ## Paths and selectors side by side -/

/-- What the steps are shown as, with a sign for each separator. -/
def joined (shown : Step → String) (sign : Separator → String)
    (front : List (Step × Separator)) (last : Step) : String :=
  front.foldr (fun part more => shown part.1 ++ sign part.2 ++ more) (shown last)

/-- The number of matches left out at the end: the last step that says one decides. -/
def skipAfter (before : Nat) (steps : List Step) : Nat :=
  ((steps.filter Step.skips).getLast?.map fun step => step.alone.skip).getD before

/-- What a path may end in. -/
inductive Extraction
  | ofText
  | ofNode
  | ofAttribute (name : String) (noSlash : '/' ∉ name.toList)
      (noBlankEnd : trimEnd name.toList = name.toList)

namespace Extraction

def text : Extraction → String
  | ofText => "text()"
  | ofNode => "node()"
  | ofAttribute name _ _ => "@" ++ name

def word : Extraction → String
  | ofText => "text"
  | ofNode => "html"
  | ofAttribute name _ _ => name

theorem extraction?_text (extraction : Extraction) :
    extraction? extraction.text.toList = some extraction.word := by
  cases extraction with
  | ofText => rfl
  | ofNode => rfl
  | ofAttribute name _ _ =>
      unfold extraction?
      simp [text, word]

theorem hidesSlashes_text (extraction : Extraction) :
    Nesting.HidesSlashes {} extraction.text.toList := by
  apply Nesting.hidesSlashes_of_not_mem
  cases extraction with
  | ofText => decide
  | ofNode => decide
  | ofAttribute name noSlash _ => simp [text, noSlash]

theorem trimEnd_text (extraction : Extraction) :
    trimEnd extraction.text.toList = extraction.text.toList ∧ extraction.text.toList ≠ [] := by
  cases extraction with
  | ofText => decide
  | ofNode => decide
  | ofAttribute name _ noBlankEnd =>
      have hat : isBlank '@' = false := by decide
      simp [text, Text.trimEnd_cons hat, noBlankEnd]

end Extraction

section Joined

variable (front : List (Step × Separator)) (last : Step)

/-- The texts of the steps, as the scan of a path cuts them out. -/
def stepTexts (front : List (Step × Separator)) : List (List Char × Separator) :=
  front.map fun part => (part.1.text.toList, part.2)

theorem isClosed_of_mem_stepTexts : ∀ part ∈ stepTexts front, IsClosed part.1 := by
  intro part hpart
  obtain ⟨⟨step, separator⟩, -, rfl⟩ := List.mem_map.1 hpart
  exact step.isClosed

theorem toList_joined_text :
    (joined Step.text Separator.text front last).toList =
      pathText (stepTexts front) last.text.toList := by
  induction front with
  | nil => rfl
  | cons part front ih =>
      have hjoined : joined Step.text Separator.text (part :: front) last =
          part.1.text ++ part.2.text ++ joined Step.text Separator.text front last := rfl
      rw [hjoined, String.toList_append, String.toList_append, ih]
      simp [pathText, stepTexts]

theorem skipAfter_cons (before : Nat) (step : Step) (steps : List Step) :
    skipAfter before (step :: steps) = skipAfter (step.skip?.getD before) steps := by
  by_cases hskips : step.skips = true
  · simp only [skipAfter, List.filter_cons, hskips, if_true, List.getLast?_cons, Step.skip?,
      Option.getD_some, Option.map_some]
    cases (steps.filter Step.skips).getLast? <;> rfl
  · simp [skipAfter, hskips, Step.skip?]

theorem Separator.toList_between (separator : Separator) :
    (if separator.anyDepth then [' '] else " > ".toList) = separator.between.toList := by
  cases separator <;> rfl

theorem selectorOf_segmentsOf (hlast : IsReadAs cs last.selector.toList last.skip?)
    (path : String) (first anyDepth : Bool) (before : Nat) :
    selectorOf path first before (segmentsOf anyDepth (stepTexts front) cs) =
      .ok ((if first then [] else if anyDepth then [' '] else " > ".toList) ++
          (joined Step.selector Separator.between front last).toList,
        skipAfter before (front.map Prod.fst ++ [last])) := by
  induction front generalizing first anyDepth before with
  | nil =>
      have hsegments : segmentsOf anyDepth (stepTexts []) cs = [⟨anyDepth, cs⟩] := rfl
      rw [hsegments, selectorOf_cons hlast, selectorOf, List.map_nil, List.nil_append,
        skipAfter_cons]
      simp [Except.map, joined, skipAfter]
  | cons part front ih =>
      obtain ⟨step, separator⟩ := part
      have hsegments : segmentsOf anyDepth (stepTexts ((step, separator) :: front)) cs =
          ⟨anyDepth, step.text.toList⟩ :: segmentsOf separator.anyDepth (stepTexts front) cs := rfl
      rw [hsegments, selectorOf_cons step.isReadAs, ih, Separator.toList_between, List.map_cons,
        List.cons_append, skipAfter_cons]
      simp [Except.map, joined]

theorem trim_joined_selector : trim (joined Step.selector Separator.between front last).toList ≠ [] := by
  intro hnil
  rw [Text.trim_eq_nil_iff] at hnil
  cases front with
  | nil => exact last.reads.2.2 (Text.trim_eq_nil_iff.2 hnil)
  | cons part front =>
      have hjoined : joined Step.selector Separator.between (part :: front) last =
          part.1.selector ++ part.2.between ++ joined Step.selector Separator.between front last :=
        rfl
      rw [hjoined, String.toList_append, String.toList_append] at hnil
      exact part.1.reads.2.2 (Text.trim_eq_nil_iff.2 fun c hc => hnil c (by simp [hc]))

theorem relative_trim_pathText {parts : List (List Char × Separator)} (h : trimEnd cs ≠ []) :
    relative (trim ("//".toList ++ pathText parts cs)) = pathText parts (trimEnd cs) := by
  have hslash : isBlank '/' = false := by decide
  have hend : trimEnd (pathText parts cs) = pathText parts (trimEnd cs) := Text.trimEnd_append h _
  have hcons : "//".toList ++ pathText parts cs = '/' :: '/' :: pathText parts cs := rfl
  rw [hcons, Text.trim_cons hslash, Text.trimEnd_cons hslash, hend]
  rfl

theorem exists_segmentsOf_eq (anyDepth : Bool) (parts : List (List Char × Separator))
    (cs : List Char) : ∃ before depth, segmentsOf anyDepth parts cs = before ++ [⟨depth, cs⟩] := by
  induction parts generalizing anyDepth with
  | nil => exact ⟨[], anyDepth, rfl⟩
  | cons part parts ih =>
      obtain ⟨before, depth, hparts⟩ := ih part.2.anyDepth
      exact ⟨⟨anyDepth, part.1⟩ :: before, depth, by simp [segmentsOf, hparts]⟩

theorem segmentsOf_concat (anyDepth : Bool) (parts : List (List Char × Separator))
    (step : List Char) (separator : Separator) (cs : List Char) :
    segmentsOf anyDepth (parts ++ [(step, separator)]) cs =
      segmentsOf anyDepth parts step ++ [⟨separator.anyDepth, cs⟩] := by
  induction parts generalizing anyDepth with
  | nil => rfl
  | cons part parts ih => simp [segmentsOf, ih]

/-- Blanks in front of a text that is no extraction do not make it one. -/
theorem extraction?_trimEnd (h : extraction? (trim cs) = none) : extraction? (trimEnd cs) = none := by
  rw [← Text.trimStart_trimEnd] at h
  cases hcs : trimEnd cs with
  | nil => rfl
  | cons c rest =>
      by_cases hblank : isBlank c = true
      · have hsigns : isBlank 't' = false ∧ isBlank 'n' = false ∧ isBlank '@' = false := by decide
        have hne : c ≠ 't' ∧ c ≠ 'n' ∧ c ≠ '@' := by
          refine ⟨?_, ?_, ?_⟩ <;> rintro rfl <;> simp [hsigns] at hblank
        unfold extraction?
        simp [hne]
      · have hstart : Text.trimStart (c :: rest) = c :: rest := List.dropWhile_cons_of_neg hblank
        rwa [hcs, hstart] at h

/-- The blanks behind the last step are not in the way. -/
theorem locate_steps : locate ("//" ++ joined Step.text Separator.text front last) =
    .ok { selector := joined Step.selector Separator.between front last
          extract? := none
          skip := skipAfter 0 (front.map Prod.fst ++ [last]) } := by
  obtain ⟨blank, hblank, hcs⟩ := Text.exists_trimEnd_append_blank last.text.toList
  have hend : trimEnd last.text.toList ≠ [] := fun hnil =>
    last.notBlank (Text.trimEnd_eq_nil_iff.1 hnil)
  have hlast : IsReadAs (trimEnd last.text.toList) last.selector.toList last.skip? := by
    have hread := last.isReadAs
    rw [← hcs] at hread
    exact (isReadAs_append_append_iff (List.forall_mem_nil _) hblank).1 hread
  have hslashes : Nesting.HidesSlashes {} (trimEnd last.text.toList) := by
    have htext := last.hidesSlashes
    rw [← hcs, Nesting.hidesSlashes_append_iff] at htext
    exact htext.1
  have hbody : relative (trim ("//" ++ joined Step.text Separator.text front last).toList) =
      pathText (stepTexts front) (trimEnd last.text.toList) := by
    rw [String.toList_append, toList_joined_text, relative_trim_pathText hend]
  have hsegments := segmentsFrom_pathText (isClosed_of_mem_stepTexts front) hend hslashes false
  have hselector := selectorOf_segmentsOf front last hlast
    ("//" ++ joined Step.text Separator.text front last) true false 0
  obtain ⟨before, depth, hbefore⟩ :=
    exists_segmentsOf_eq false (stepTexts front) (trimEnd last.text.toList)
  rw [hbefore] at hsegments hselector
  rw [locate_plain hbody (by simp [pathText, hend]) hsegments (extraction?_trimEnd last.reads.1),
    ofSteps_eq_ok hselector (trim_joined_selector front last)]
  simp

theorem locate_steps_extraction (extraction : Extraction) :
    locate ("//" ++ joined Step.text Separator.text front last ++ "/" ++ extraction.text) =
      .ok { selector := joined Step.selector Separator.between front last
            extract? := some extraction.word
            skip := skipAfter 0 (front.map Prod.fst ++ [last]) } := by
  let path := "//" ++ joined Step.text Separator.text front last ++ "/" ++ extraction.text
  let parts := stepTexts front ++ [(last.text.toList, Separator.child)]
  obtain ⟨htrim, hne⟩ := extraction.trimEnd_text
  have hparts : ∀ part ∈ parts, IsClosed part.1 := by
    intro part hpart
    rcases List.mem_append.1 hpart with hpart | hpart
    · exact isClosed_of_mem_stepTexts front part hpart
    · rw [List.mem_singleton.1 hpart]
      exact last.isClosed
  have htext : path.toList = "//".toList ++ pathText parts extraction.text.toList := by
    rw [String.toList_append, String.toList_append, String.toList_append, toList_joined_text]
    simp [parts, pathText, Separator.text]
  have hbody : relative (trim path.toList) = pathText parts extraction.text.toList := by
    rw [htext, relative_trim_pathText (htrim.symm ▸ hne), htrim]
  have hsegments := segmentsFrom_pathText hparts hne extraction.hidesSlashes_text false
  rw [segmentsOf_concat] at hsegments
  have hselector := selectorOf_segmentsOf front last last.isReadAs path true false 0
  rw [locate_extraction hbody (by simp [pathText, hne]) hsegments extraction.extraction?_text,
    ofSteps_eq_ok hselector (trim_joined_selector front last)]
  simp

end Joined

/-- Steps and separators in a row are the selectors of the steps in a row, and an extraction
behind them changes nothing else. -/
theorem locate_joined (front : List (Step × Separator)) (last : Step) :
    let path := "//" ++ joined Step.text Separator.text front last
    let location : Location := {
      selector := joined Step.selector Separator.between front last
      extract? := none
      skip := skipAfter 0 (front.map Prod.fst ++ [last]) }
    locate path = .ok location ∧
      ∀ extraction : Extraction, locate (path ++ "/" ++ extraction.text) =
        .ok { location with extract? := some extraction.word } := by
  intro path location
  exact ⟨locate_steps front last, locate_steps_extraction front last⟩

theorem isReadAs_later : IsReadAs "li[position()>2]".toList "li".toList (some 2) := by
  have htwo : isDigitChar '2' = true := Unicode.isDecimal_eq_isDigit (by decide)
  have hbracket : isDigitChar ']' = false := Unicode.isDecimal_eq_isDigit (by decide)
  have hword : Text.stripFront? "position".toList (spaces "position()>2]".toList) =
      some "()>2]".toList := by decide
  have hsign : (call? "()>2]".toList).bind (fun sign => this? '>' (spaces sign)) =
      some ['2', ']'] := by decide
  have hspaces : spaces ['2', ']'] = ['2', ']'] := by decide
  have hnumber : closedNumber? ['2', ']'] = some (['2'], []) := by
    simp [closedNumber?, hspaces, digits?_eq, htwo, hbracket]
    decide
  have hskip : skipTest ('[' :: "position()>2]".toList) = some (['2'], []) := by
    rw [skipTest_eq, this?_eq_some_iff.2 rfl, Option.bind_some, hword, Option.bind_some,
      ← Option.bind_assoc, hsign, Option.bind_some, hnumber]
  have hwithout : withoutSkip ('[' :: "position()>2]".toList) = some ([], []) := by
    rw [withoutSkip, hskip, Option.map_some]
  have htext : "li[position()>2]".toList = ['l', 'i'] ++ '[' :: "position()>2]".toList := by decide
  have hfront : '[' ∉ ['l', 'i'] := by decide
  refine ⟨?_, ?_⟩
  · rw [splitSkip_snd, htext, withoutSkip_standsIn.opensWith.replaceSpans_append hfront,
      Text.replaceSpans_span hwithout List.nil_suffix]
    decide
  · rw [splitSkip_fst, htext, skipTest_standsIn.opensWith.firstSpan?_append hfront,
      Text.firstSpan?_span hskip]
    decide

/-- A step that leaves two matches out. -/
def later : Step where
  text := "li[position()>2]"
  alone := { selector := "li", extract? := none, skip := 2 }
  notBlank := by decide
  closed := rfl
  hidesSlashes := by decide
  locate_eq := by
    have hbody : relative (trim "li[position()>2]".toList) = "li[position()>2]".toList := by decide
    have hsegments : segments "li[position()>2]".toList =
        [] ++ [⟨false, "li[position()>2]".toList⟩] := by decide
    have hselector : selectorOf "li[position()>2]" true 0 [⟨false, "li[position()>2]".toList⟩] = _ :=
      selectorOf_cons isReadAs_later "li[position()>2]" true 0 []
    rw [locate_plain hbody (by decide) hsegments (by decide)]
    exact ofSteps_eq_ok hselector (by decide) none

/-- A step with a slash in quotes. -/
def quotedSlash : Step where
  text := " a'/' "
  alone := { selector := "a'/'", extract? := none, skip := 0 }
  notBlank := by decide
  closed := rfl
  hidesSlashes := by decide
  locate_eq := by decide

theorem locate_joined_quotedSlash :
    locate "//li[position()>2]// a'/' /@href" =
      .ok { selector := "li a'/'", extract? := some "href", skip := 2 } := by
  have hlater : later.skips = true := by
    have hsplit : (splitSkip later.text.toList).1 = some 2 := isReadAs_later.skip_eq
    rw [later.skips_eq, hsplit, Option.isSome_some]
  have hquoted : quotedSlash.skips = false := by decide
  have hskip : skipAfter 0 [later, quotedSlash] = 2 := by
    simp only [skipAfter, List.filter_cons, hlater, hquoted]
    rfl
  have hpath := (locate_joined [(later, .descendant)] quotedSlash).2
    (.ofAttribute "href" (by decide) (by decide))
  simp only [List.map_cons, List.map_nil, List.singleton_append, hskip] at hpath
  exact hpath

end BookRules.Select.XPathRule
