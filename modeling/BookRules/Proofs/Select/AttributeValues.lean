import BookRules.Proofs.Select.JoinedPaths
import BookRules.Proofs.Select.PathPredicates

/-!
# Values in tests of attributes

A test of an attribute against a value becomes a test in the syntax of selectors, with the
value as it is.  The tests that stand for themselves, of positions and of the presence of an
attribute, are then looked for in the whole step, the value included, and what looks like
one of them in the value is replaced there.  Each replacement takes an opening bracket or an
`@` away, so a value is kept exactly where none of these tests can be read in it.
-/

namespace BookRules.Select.XPathRule

open Rule (isQuote)
open Text (trim isBlank Recogniser passAll)

variable {cs rest after out wanted element name value : List Char} {c : Char}

/-! ## A step with one test -/

structure IsElementName (element : List Char) : Prop where
  nonempty : element ≠ []
  plain : ∀ c ∈ element, isBlank c = false ∧ c ∉ "/[]()@|'\"*".toList

structure IsAttributeName (name : List Char) : Prop where
  starts : ∃ c rest, name = c :: rest ∧ (c.isAlpha || c == '_') = true
  letters : ∀ c ∈ name, isNameChar c = true ∧ isBlank c = false
  other : name ≠ "class".toList ∧ name ≠ "id".toList

/-- A value in quotes, with a bracket behind it. -/
def inQuotes (front : List Char) (quote : Char) (value : List Char) : List Char :=
  front ++ quote :: (value ++ [quote, ']'])

/-- A step that tests an attribute against a value. -/
def attributeStep (element name value : List Char) : List Char :=
  inQuotes (element ++ '[' :: '@' :: name ++ ['=']) '\'' value

/-- The test in the syntax of selectors. -/
def attributeSelector (element name value : List Char) : List Char :=
  inQuotes (element ++ '[' :: name ++ ['=']) '"' value

theorem IsElementName.not_mem (helement : IsElementName element)
    (hc : c ∈ "/[]()@|'\"*".toList) : c ∉ element :=
  fun hmem => (helement.plain c hmem).2 hc

theorem IsAttributeName.not_mem (hname : IsAttributeName name)
    (hc : c ∈ "/[]()@|'\"*=:".toList) : c ∉ name := by
  have hsigns : ∀ d ∈ "/[]()@|'\"*=:".toList, isNameChar d = false := by decide
  intro hmem
  have hletter := (hname.letters c hmem).1
  rw [hsigns c hc] at hletter
  exact Bool.false_ne_true hletter

section InQuotes

variable {front : List Char} {quote : Char} {test : Recogniser}
  (hstands : Recogniser.StandsIn test '[' ']')
  (hends : ∀ back, Recogniser.EndsBefore test (quote :: back))
  (hfront : ']' ∉ front) (hquote : isQuote quote = true)

include hstands hends hfront hquote

/-- What a test finds in a step, it finds in the value. -/
theorem replaceSpans_inQuotes (value : List Char) :
    Text.replaceSpans test (inQuotes front quote value) =
      inQuotes front quote (Text.replaceSpans test value) := by
  have htakes := hstands.opensWith.takesOff
  have hsign : quote ≠ '[' ∧ '[' ∉ [quote, ']'] := by
    rcases eq_of_isQuote hquote with rfl | rfl <;> decide
  rw [inQuotes, Text.replaceSpans_append htakes (hends _),
    Text.replaceSpans_eq_self (hstands.passesOver hfront),
    Text.replaceSpans_pass (hstands.opensWith.eq_none hsign.1 _),
    Text.replaceSpans_append htakes (hends _),
    Text.replaceSpans_eq_self (hstands.opensWith.passesOver hsign.2), inQuotes]

theorem firstSpan?_inQuotes (value : List Char) :
    Text.firstSpan? test (inQuotes front quote value) = Text.firstSpan? test value := by
  have htakes := hstands.opensWith.takesOff
  have hsign : quote ≠ '[' ∧ '[' ∉ [quote, ']'] := by
    rcases eq_of_isQuote hquote with rfl | rfl <;> decide
  rw [inQuotes, Text.firstSpan?_append (hends _),
    (Text.firstSpan?_eq_none_iff htakes).2 (hstands.passesOver hfront),
    Text.firstSpan?_pass (hstands.opensWith.eq_none hsign.1 _), Text.firstSpan?_append (hends _),
    (Text.firstSpan?_eq_none_iff htakes).2 (hstands.opensWith.passesOver hsign.2),
    Option.none_or, Option.or_none]

end InQuotes

/-! ## The test of the value itself -/

theorem name?_of_isAttributeName (hname : IsAttributeName name) (rest : List Char) :
    name? (name ++ '=' :: rest) = some (name, '=' :: rest) := by
  obtain ⟨c, more, rfl, hc⟩ := hname.starts
  have hequals : isNameChar '=' = false := by decide
  have hmore : ∀ d ∈ more, isNameChar d = true := fun d hd =>
    (hname.letters d (List.mem_cons_of_mem c hd)).1
  rw [List.cons_append, name?_cons, if_pos hc, takeWhile_append_sign hequals,
    dropWhile_append_sign hequals, List.takeWhile_eq_self_iff.2 hmore,
    List.dropWhile_eq_nil_iff.2 hmore, List.nil_append]

/-- The name that is asked for is not the front of a longer one. -/
theorem named?_eq_none (hname : IsAttributeName name) (hne : name ≠ wanted)
    (hwanted : ∀ c ∈ wanted, isNameChar c = true) (rest : List Char) :
    named? wanted ('[' :: '@' :: name ++ '=' :: rest) = none := by
  rw [Option.eq_none_iff_forall_ne_some]
  rintro ⟨value, after⟩ hsome
  obtain ⟨more, quoted, hcs, hequals, -⟩ := exists_of_named? hsome
  have htext : name ++ '=' :: rest = wanted ++ more := by simpa using hcs
  have hsign : isNameChar '=' = false := by decide
  have hletters : name.takeWhile isNameChar = name :=
    List.takeWhile_eq_self_iff.2 fun c hc => (hname.letters c hc).1
  have hsplit : name = wanted ++ more.takeWhile isNameChar := by
    have hword := congrArg (List.takeWhile isNameChar) htext
    rwa [takeWhile_append_sign hsign, hletters, List.takeWhile_append_of_pos hwanted] at hword
  cases more with
  | nil => exact hne (by simpa using hsplit)
  | cons d more =>
      by_cases hd : isNameChar d = true
      · rw [List.takeWhile_cons_of_pos hd] at hsplit
        have hblank : isBlank d = false := (hname.letters d (by simp [hsplit])).2
        have hspaces : spaces (d :: more) = d :: more :=
          List.dropWhile_cons_of_neg (by simp [hblank])
        rw [hspaces] at hequals
        rw [(List.cons.inj hequals).1, hsign] at hd
        exact Bool.false_ne_true hd
      · rw [List.takeWhile_cons_of_neg hd, List.append_nil] at hsplit
        exact hne hsplit

theorem IsValueTest.passesOver_attributeStep {test : Recogniser} (htest : IsValueTest test)
    (helement : IsElementName element) (hname : IsAttributeName name)
    (hhere : ∀ rest, test ('[' :: '@' :: name ++ '=' :: rest) = none)
    (hvalue : ∀ c ∈ value, isQuote c = false) :
    test.PassesOver (attributeStep element name value) := by
  have htext : attributeStep element name value = element ++ '[' ::
      (('@' :: name ++ ['=', '\'']) ++ (value ++ ['\'', ']'])) := by
    simp [attributeStep, inQuotes]
  have hbracket : '[' ∉ name := hname.not_mem (by decide)
  have hfront : '[' ∉ '@' :: name ++ ['=', '\''] := by simp [hbracket]
  have hcount : (value ++ ['\'', ']']).countP isQuote < 2 := by
    rw [List.countP_append, List.countP_eq_zero.2 (by simpa using hvalue)]
    decide
  rw [htext]
  apply htest.opensWith.passesOver_append (helement.not_mem (by decide))
  rw [Recogniser.passesOver_cons_iff]
  refine ⟨?_, htest.opensWith.passesOver_append hfront (htest.passesOver hcount)⟩
  simpa using hhere ('\'' :: (value ++ ['\'', ']']))

theorem equalsTest_attributeStep (hname : IsAttributeName name)
    (hvalue : ∀ c ∈ value, isQuote c = false) :
    equalsTest ('[' :: '@' :: name ++ '=' :: '\'' :: (value ++ ['\'', ']'])) =
      some (valueTest name ['='] value, []) := by
  have hstop : ∀ c ∈ value, (!isQuote c) = true := by simpa using hvalue
  have hquoted : quotedText? ('\'' :: (value ++ ['\'', ']'])) = some (value, [']']) := by
    have hquote : isQuote '\'' = true := rfl
    simp [quotedText?, one?, hquote, List.dropWhile_append_of_pos hstop,
      List.takeWhile_append_of_pos hstop]
  have hspaces : spaces ('\'' :: (value ++ ['\'', ']'])) = '\'' :: (value ++ ['\'', ']']) := rfl
  have hequals : this? '=' (spaces ('=' :: '\'' :: (value ++ ['\'', ']']))) =
      some ('\'' :: (value ++ ['\'', ']'])) := rfl
  have hfront : bracketName? ('[' :: '@' :: name ++ '=' :: '\'' :: (value ++ ['\'', ']'])) =
      some (name, '=' :: '\'' :: (value ++ ['\'', ']'])) := name?_of_isAttributeName hname _
  simp only [equalsTest, attributeEquals?, Option.bind_eq_bind, hfront, Option.bind_some, hequals,
    hspaces, hquoted]
  rfl

theorem replaceSpans_equalsTest (helement : IsElementName element) (hname : IsAttributeName name)
    (hvalue : ∀ c ∈ value, isQuote c = false) :
    Text.replaceSpans equalsTest (attributeStep element name value) =
      attributeSelector element name value := by
  have htext : attributeStep element name value = element ++
      '[' :: ('@' :: name ++ '=' :: '\'' :: (value ++ ['\'', ']'])) := by
    simp [attributeStep, inQuotes]
  have hbracket : '[' ∉ element := helement.not_mem (by decide)
  have hread : equalsTest ('[' :: ('@' :: name ++ '=' :: '\'' :: (value ++ ['\'', ']']))) =
      some (valueTest name ['='] value, []) := equalsTest_attributeStep hname hvalue
  rw [htext, isValueTest_equalsTest.opensWith.replaceSpans_append hbracket,
    Text.replaceSpans_span hread List.nil_suffix]
  simp [attributeSelector, inQuotes, valueTest, Text.replaceSpans, Text.replaceSpansFrom]

/-- The tests that ask for no value, in their order. -/
def plainTests : List Recogniser :=
  [presenceTest, lastTest, positionTest]

/-- A step as a selector holds what no selector can. -/
def isLeftOver (cs : List Char) : Bool :=
  (Text.replaceSpans knownTest cs).any fun c => c == '(' || c == ')' || c == '@' || c == '|'

theorem compound?_eq (htrim : trim cs = cs) (hstar : ∀ rest, cs ≠ '*' :: '[' :: rest) :
    compound? cs =
      if Text.occursIn [':', ':'] cs then none
      else if isLeftOver (passAll ([classTest, idTest, containsTest, equalsTest] ++ plainTests) cs)
        then none
        else some (passAll ([classTest, idTest, containsTest, equalsTest] ++ plainTests) cs) := by
  -- `hstar` decides which branch is taken
  simp only [compound?, htrim]
  rfl

theorem plainTests_standIn : ∀ test ∈ plainTests, Recogniser.StandsIn test '[' ']' := by
  simp [plainTests, presenceTest_standsIn, lastTest_standsIn, positionTest_standsIn]

theorem plainTests_endBefore {quote : Char} (hquote : isQuote quote = true) (back : List Char) :
    ∀ test ∈ plainTests, Recogniser.EndsBefore test (quote :: back) := by
  simp [plainTests, presenceTest_endsBefore hquote, lastTest_endsBefore hquote,
    positionTest_endsBefore hquote]

theorem passAll_inQuotes {front : List Char} {quote : Char} {tests : List Recogniser}
    (hstand : ∀ test ∈ tests, Recogniser.StandsIn test '[' ']')
    (hend : ∀ back, ∀ test ∈ tests, Recogniser.EndsBefore test (quote :: back))
    (hfront : ']' ∉ front) (hquote : isQuote quote = true) (value : List Char) :
    passAll tests (inQuotes front quote value) = inQuotes front quote (passAll tests value) := by
  induction tests generalizing value with
  | nil => rfl
  | cons test tests ih =>
      rw [List.forall_mem_cons] at hstand
      rw [Text.passAll_cons, Text.passAll_cons,
        replaceSpans_inQuotes hstand.1 (fun back => (List.forall_mem_cons.1 (hend back)).1) hfront hquote,
        ih hstand.2 (fun back => (List.forall_mem_cons.1 (hend back)).2)]

/-! ## What is left over -/

theorem exists_of_knownTest (h : knownTest cs = some (out, after)) :
    out = [] ∧ ∃ rest, cs = ':' :: rest ∧ after <:+ rest := by
  unfold knownTest at h
  cases hlast : Text.stripFront? ":last-of-type".toList cs with
  | some rest =>
      simp only [hlast, Option.some.injEq, Prod.mk.injEq] at h
      obtain ⟨rfl, rfl⟩ := h
      have hcs : cs = ':' :: ("last-of-type".toList ++ rest) :=
        (Text.stripFront?_eq_some_iff.1 hlast).symm
      exact ⟨rfl, _, hcs, List.suffix_append _ rest⟩
  | none =>
      simp only [hlast, Option.bind_eq_bind, Option.pure_def, Option.bind_eq_some_iff,
        this?_eq_some_iff, Option.some.injEq, Prod.mk.injEq, Prod.exists] at h
      obtain ⟨rest, hnth, digits, closing, hdigits, _, rfl, rfl, rfl⟩ := h
      have hcs : cs = ':' :: ("nth-of-type(".toList ++ rest) :=
        (Text.stripFront?_eq_some_iff.1 hnth).symm
      exact ⟨rfl, _, hcs, ((List.suffix_cons ')' _).trans (digits?_isSuffix hdigits)).trans
        (List.suffix_append _ rest)⟩

theorem knownTest_opensWith : Recogniser.OpensWith knownTest ':' := by
  intro out cs after h
  exact (exists_of_knownTest h).2

theorem isLeftOver_attributeSelector (helement : IsElementName element)
    (hname : IsAttributeName name) (value : List Char) :
    isLeftOver (attributeSelector element name value) = isLeftOver value := by
  have hquote : isQuote '"' = true := rfl
  have htakes := knownTest_opensWith.takesOff
  have hends := knownTest_endsBefore hquote
  have hcolon : ':' ∉ ['"', ']'] := by decide
  have hsigns : ∀ c ∈ "()@|".toList, c ∈ "/[]()@|'\"*".toList ∧ c ∈ "/[]()@|'\"*=:".toList ∧
      c ≠ '[' ∧ c ≠ '=' := by decide
  have hfree : ∀ c ∈ "()@|".toList, c ∉ element ++ '[' :: name ++ ['='] := by
    intro c hc
    obtain ⟨hc₁, hc₂, hne⟩ := hsigns c hc
    simp [helement.not_mem hc₁, hname.not_mem hc₂, hne]
  have hfront : ∀ c ∈ Text.replaceSpans knownTest (element ++ '[' :: name ++ ['=']),
      (c == '(' || c == ')' || c == '@' || c == '|') = false := by
    intro c hc
    have hmem := (Text.replaceSpans_sublist htakes
      (fun out cs after h => (exists_of_knownTest h).1) _).subset hc
    have hne : c ∉ "()@|".toList := fun hsign => hfree c hsign hmem
    simpa [and_assoc] using hne
  unfold isLeftOver attributeSelector inQuotes
  rw [Text.replaceSpans_append htakes (hends _),
    Text.replaceSpans_pass (knownTest_opensWith.eq_none (by decide) _),
    Text.replaceSpans_append htakes (hends _),
    Text.replaceSpans_eq_self (knownTest_opensWith.passesOver hcolon), List.any_append,
    List.any_eq_false.2 (by simpa using hfront)]
  simp

theorem occursIn_attributeStep (hname : IsAttributeName name) (element value : List Char) :
    Text.occursIn [':', ':'] (attributeStep element name value) =
      (Text.occursIn [':', ':'] element || Text.occursIn [':', ':'] value) := by
  have htext : attributeStep element name value = element ++ '[' ::
      (('@' :: name ++ ['=']) ++ '\'' :: (value ++ '\'' :: [']'])) := by
    simp [attributeStep, inQuotes]
  have hcolon : ':' ∉ name := hname.not_mem (by decide)
  have hname' : Text.occursIn [':', ':'] ('@' :: name ++ ['=']) = false :=
    Text.occursIn_eq_false (c := ':') (by decide) (by simp [hcolon])
  have hend : Text.occursIn [':', ':'] [']'] = false := by decide
  rw [htext, Text.occursIn_append_cons (c := '[') (by decide),
    Text.occursIn_append_cons (c := '\'') (by decide),
    Text.occursIn_append_cons (c := '\'') (by decide), hname', hend, Bool.false_or, Bool.or_false]

theorem trim_attributeStep (helement : IsElementName element) (name value : List Char) :
    trim (attributeStep element name value) = attributeStep element name value := by
  obtain ⟨c, more, rfl⟩ := List.exists_cons_of_ne_nil helement.nonempty
  have hc : isBlank c = false := (helement.plain c (by simp)).1
  have htext : attributeStep (c :: more) name value =
      c :: (more ++ '[' :: '@' :: name ++ ['='] ++ '\'' :: value ++ ['\'']) ++ [']'] := by
    simp [attributeStep, inQuotes]
  rw [htext, Text.trim_cons_concat hc (by decide)]

/-- Of the tests with a value only the last one reads the step. -/
theorem passAll_attributeStep (helement : IsElementName element) (hname : IsAttributeName name)
    (hvalue : ∀ c ∈ value, isQuote c = false) :
    passAll ([classTest, idTest, containsTest, equalsTest] ++ plainTests)
        (attributeStep element name value) =
      attributeSelector element name (passAll plainTests value) := by
  have hquote : isQuote '"' = true := rfl
  have hbracket : ']' ∉ element ++ '[' :: name ++ ['='] := by
    simp [helement.not_mem (c := ']') (by decide), hname.not_mem (c := ']') (by decide)]
  have hnamed : ∀ word ∈ ["class".toList, "id".toList], ∀ c ∈ word, isNameChar c = true := by decide
  have hclass : classTest.PassesOver (attributeStep element name value) := by
    refine (isValueTest_of_named classTest_eq).passesOver_attributeStep helement hname (fun rest => ?_) hvalue
    rw [classTest_eq, named?_eq_none hname hname.other.1 (hnamed _ (by simp)), Option.map_none]
  have hid : idTest.PassesOver (attributeStep element name value) := by
    refine (isValueTest_of_named idTest_eq).passesOver_attributeStep helement hname (fun rest => ?_) hvalue
    rw [idTest_eq, named?_eq_none hname hname.other.2 (hnamed _ (by simp)), Option.map_none]
  have hcontains : containsTest.PassesOver (attributeStep element name value) :=
    isValueTest_containsTest.passesOver_attributeStep helement hname (fun rest => rfl) hvalue
  simp only [List.cons_append, List.nil_append, Text.passAll_cons,
    Text.replaceSpans_eq_self hclass, Text.replaceSpans_eq_self hid,
    Text.replaceSpans_eq_self hcontains, replaceSpans_equalsTest helement hname hvalue]
  exact passAll_inQuotes plainTests_standIn (plainTests_endBefore hquote) hbracket hquote value

theorem compound?_attributeStep (helement : IsElementName element) (hname : IsAttributeName name)
    (hvalue : ∀ c ∈ value, isQuote c = false) :
    compound? (attributeStep element name value) =
      if Text.occursIn [':', ':'] element || Text.occursIn [':', ':'] value ||
          isLeftOver (passAll plainTests value) then none
      else some (attributeSelector element name (passAll plainTests value)) := by
  have hstar : ∀ rest, attributeStep element name value ≠ '*' :: '[' :: rest := by
    intro rest heq
    obtain ⟨c, more, rfl⟩ := List.exists_cons_of_ne_nil helement.nonempty
    obtain ⟨rfl, -⟩ := List.cons.inj heq
    exact helement.not_mem (by decide) (List.mem_cons_self)
  rw [compound?_eq (trim_attributeStep helement name value) hstar,
    passAll_attributeStep helement hname hvalue, occursIn_attributeStep hname,
    isLeftOver_attributeSelector helement hname]
  cases Text.occursIn [':', ':'] element || Text.occursIn [':', ':'] value <;> rfl

/-! ## The path of such a step -/

theorem hidesSlashes_attributeStep (helement : IsElementName element) (hname : IsAttributeName name)
    (hvalue : ∀ c ∈ value, isQuote c = false) :
    Nesting.HidesSlashes {} (attributeStep element name value) := by
  have hslash : '/' ∉ element ++ '[' :: '@' :: name ++ ['='] := by
    simp [helement.not_mem (c := '/') (by decide), hname.not_mem (c := '/') (by decide)]
  have hplain : ∀ c ∈ element ++ '[' :: '@' :: name ++ ['='], isQuote c = false := by
    intro c hc
    by_contra hquote
    rw [Bool.not_eq_false] at hquote
    rcases eq_of_isQuote hquote with rfl | rfl
    · simp [helement.not_mem (c := '\'') (by decide), hname.not_mem (c := '\'') (by decide)] at hc
    · simp [helement.not_mem (c := '"') (by decide), hname.not_mem (c := '"') (by decide)] at hc
  have hquote : (Nesting.afterAll {} (element ++ '[' :: '@' :: name ++ ['='])).quote? = none :=
    Nesting.quote?_afterAll rfl hplain
  have hinside : '\'' ∉ value := fun hmem => Bool.false_ne_true (hvalue '\'' hmem).symm
  have hopened : ∀ nesting : Nesting, nesting.quote? = none →
      (nesting.after '\'').quote? = some '\'' := by
    intro nesting hnone
    simp [Nesting.after, hnone, isQuote]
  rw [attributeStep, inQuotes, Nesting.hidesSlashes_append_iff]
  refine ⟨Nesting.hidesSlashes_of_not_mem hslash _, by simp, ?_⟩
  rw [Nesting.hidesSlashes_append_iff]
  exact ⟨Nesting.hidesSlashes_of_quote (hopened _ hquote) hinside,
    Nesting.hidesSlashes_of_not_mem (by decide) _⟩

theorem extraction?_attributeStep (helement : IsElementName element) (name value : List Char) :
    extraction? (attributeStep element name value) = none := by
  have hbracket : '[' ∈ attributeStep element name value := by simp [attributeStep, inQuotes]
  have htext : attributeStep element name value ≠ "text()".toList := by
    intro heq
    rw [heq] at hbracket
    exact absurd hbracket (by decide)
  have hnode : attributeStep element name value ≠ "node()".toList := by
    intro heq
    rw [heq] at hbracket
    exact absurd hbracket (by decide)
  obtain ⟨c, more, rfl⟩ := List.exists_cons_of_ne_nil helement.nonempty
  have hat : c ≠ '@' := by
    rintro rfl
    exact helement.not_mem (by decide) List.mem_cons_self
  unfold extraction?
  rw [if_neg htext, if_neg hnode]
  simp [attributeStep, inQuotes, hat]

theorem splitSkip_attributeStep (helement : IsElementName element) (hname : IsAttributeName name)
    (value : List Char) :
    splitSkip (attributeStep element name value) =
      ((Text.firstSpan? skipTest value).map skipNumber,
        attributeStep element name (Text.replaceSpans withoutSkip value)) := by
  have hquote : isQuote '\'' = true := rfl
  have hfront : ']' ∉ element ++ '[' :: '@' :: name ++ ['='] := by
    simp [helement.not_mem (c := ']') (by decide), hname.not_mem (c := ']') (by decide)]
  have hends := skipTest_endsBefore hquote
  apply Prod.ext
  · rw [splitSkip_fst, attributeStep, firstSpan?_inQuotes skipTest_standsIn hends hfront hquote]
  · rw [splitSkip_snd, attributeStep, replaceSpans_inQuotes withoutSkip_standsIn
      (fun back => withoutSkip_endsBefore (hends back)) hfront hquote, attributeStep]

/-- The tests that can be read in a value. -/
def valueTests : List Recogniser :=
  withoutSkip :: plainTests

/-- The number of matches a value leaves out. -/
def leftOut (value : List Char) : Nat :=
  ((Text.firstSpan? skipTest value).map skipNumber).getD 0

/-- The step holds more than a selector can. -/
def holdsMore (element value : List Char) : Bool :=
  Text.occursIn [':', ':'] element || Text.occursIn [':', ':'] (Text.replaceSpans withoutSkip value)
    || isLeftOver (passAll valueTests value)

def attributePath (element name value : String) : String :=
  "//" ++ element ++ "[@" ++ name ++ "='" ++ value ++ "']"

/-- The test in the syntax of selectors. -/
def attributeTest (element name value : String) : String :=
  element ++ "[" ++ name ++ "=\"" ++ value ++ "\"]"

theorem relative_attributePath (element name value : String) :
    relative (trim (attributePath element name value).toList) =
      attributeStep element.toList name.toList value.toList := by
  have htext : (attributePath element name value).toList =
      '/' :: ('/' :: element.toList ++ '[' :: '@' :: name.toList ++
        '=' :: '\'' :: value.toList ++ ['\'']) ++ [']'] := by
    simp [attributePath]
  rw [htext, Text.trim_cons_concat (by decide) (by decide)]
  simp [relative, attributeStep, inQuotes]

theorem trim_attributeSelector_ne_nil (element name value : List Char) :
    trim (attributeSelector element name value) ≠ [] := by
  rw [ne_eq, Text.trim_eq_nil_iff]
  intro hall
  have hbracket : isBlank '[' = true := hall '[' (by simp [attributeSelector, inQuotes])
  exact absurd hbracket (by decide)

theorem ofList_attributeSelector (element name : String) (value : List Char) :
    String.ofList (attributeSelector element.toList name.toList value) =
      attributeTest element name (String.ofList value) := by
  rw [← String.toList_inj]
  simp [attributeTest, attributeSelector, inQuotes]

/-- The number of matches is taken off first, and the other tests are replaced then. -/
theorem compound?_withoutSkip (helement : IsElementName element) (hname : IsAttributeName name)
    (hvalue : ∀ c ∈ value, isQuote c = false) :
    compound? (attributeStep element name (Text.replaceSpans withoutSkip value)) =
      if holdsMore element value then none
      else some (attributeSelector element name (passAll valueTests value)) := by
  have hpart := Text.replaceSpans_sublist withoutSkip_standsIn.opensWith.takesOff
    (fun out cs after h => eq_nil_of_withoutSkip h) value
  exact compound?_attributeStep helement hname fun c hc => hvalue c (hpart.subset hc)

theorem locate_attributePath {element name value : String} (helement : IsElementName element.toList)
    (hname : IsAttributeName name.toList) (hvalue : ∀ c ∈ value.toList, isQuote c = false) :
    locate (attributePath element name value) =
      if holdsMore element.toList value.toList then
        .error (.xpathStep (String.ofList (attributeStep element.toList name.toList
          (Text.replaceSpans withoutSkip value.toList))) (attributePath element name value))
      else
        .ok { selector := attributeTest element name (String.ofList (passAll valueTests value.toList))
              extract? := none
              skip := leftOut value.toList } := by
  let path := attributePath element name value
  let step := attributeStep element.toList name.toList value.toList
  have hne : step ≠ [] := by simp [step, attributeStep, inQuotes]
  have hsegments : segments step = [] ++ [⟨false, step⟩] :=
    segments_step hne (hidesSlashes_attributeStep helement hname hvalue)
  have hsplit : splitSkip step = _ := splitSkip_attributeStep helement hname value.toList
  have hcompound := compound?_withoutSkip helement hname hvalue
  rw [locate_plain (relative_attributePath element name value) hne hsegments
    (extraction?_attributeStep helement _ _), List.nil_append]
  by_cases hmore : holdsMore element.toList value.toList = true
  · have hselector : selectorOf path true 0 [⟨false, step⟩] = .error (.xpathStep
        (String.ofList (attributeStep element.toList name.toList
          (Text.replaceSpans withoutSkip value.toList))) path) := by
      simp only [selectorOf, hsplit, hcompound, if_pos hmore]
    rw [if_pos hmore, ofSteps, hselector]
  · have hreads : IsReadAs step (attributeSelector element.toList name.toList
        (passAll valueTests value.toList)) ((Text.firstSpan? skipTest value.toList).map skipNumber) := by
      refine ⟨?_, by rw [hsplit]⟩
      rw [hsplit, hcompound, if_neg hmore]
    have hselector : selectorOf path true 0 [⟨false, step⟩] = _ :=
      selectorOf_cons hreads path true 0 []
    have hblank := trim_attributeSelector_ne_nil element.toList name.toList
      (passAll valueTests value.toList)
    rw [if_neg hmore, ofSteps_eq_ok hselector (by simpa using hblank), ← ofList_attributeSelector]
    simp [leftOut]

/-! ## Values that are kept -/

/-- The signs that tests take away: an opening bracket or an `@`. -/
def isTestSign (c : Char) : Bool :=
  c == '[' || c == '@'

theorem isTestSign_of_isDigitChar (h : isDigitChar c = true) : isTestSign c = false := by
  have hsigns : isDigitChar '[' = false ∧ isDigitChar '@' = false :=
    ⟨Unicode.isDecimal_eq_isDigit (by decide), Unicode.isDecimal_eq_isDigit (by decide)⟩
  have hne : c ≠ '[' ∧ c ≠ '@' := by
    constructor
    · rintro rfl
      simp [hsigns.1] at h
    · rintro rfl
      simp [hsigns.2] at h
  simp [isTestSign, hne]

/-- A replacement without the signs loses the bracket of its span. -/
theorem loses_of_forall_out {test : Recogniser} (hstands : Recogniser.StandsIn test '[' ']')
    (hout : ∀ out cs after, test.Reads out cs after → ∀ c ∈ out, isTestSign c = false) :
    test.Loses isTestSign := by
  intro out cs after hreads
  obtain ⟨rest, rfl, hsuffix⟩ := hstands out cs after hreads
  have hnone : out.countP isTestSign = 0 :=
    List.countP_eq_zero.2 fun c hc => by simp [hout out _ after hreads c hc]
  have hafter : after.countP isTestSign ≤ rest.countP isTestSign :=
    ((List.suffix_cons ']' after).trans hsuffix).sublist.countP_le
  rw [hnone, List.countP_cons_of_pos (by rfl)]
  omega

theorem presenceTest_loses : Recogniser.Loses presenceTest isTestSign := by
  intro out cs after h
  obtain ⟨name, rest, rfl, hname, rfl⟩ := exists_of_presenceTest h
  have hcount := congrArg (List.countP isTestSign) (append_of_name? hname)
  have hclose : isTestSign ']' = false := by decide
  have hopen : isTestSign '[' = true := by decide
  have hat : isTestSign '@' = true := by decide
  simp [hclose, hopen, hat] at hcount ⊢
  omega

theorem valueTests_lose : ∀ test ∈ valueTests,
    Text.TakesOff test.Reads ∧ test.Loses isTestSign := by
  have hskip : withoutSkip.Loses isTestSign := by
    refine loses_of_forall_out withoutSkip_standsIn fun out cs after h => ?_
    rw [eq_nil_of_withoutSkip h]
    simp
  have hlast : Recogniser.Loses lastTest isTestSign := by
    refine loses_of_forall_out lastTest_standsIn fun out cs after h => ?_
    obtain ⟨_, _, _, _, _, _, _, hout⟩ := exists_of_lastTest h
    rw [hout]
    decide
  have hposition : Recogniser.Loses positionTest isTestSign := by
    refine loses_of_forall_out positionTest_standsIn fun out cs after h => ?_
    obtain ⟨_, digits, _, _, hdigits, _, hout⟩ := exists_of_positionTest h
    have hopen : ∀ c ∈ ":nth-of-type(".toList, isTestSign c = false := by decide
    have hclose : ∀ c ∈ [')'], isTestSign c = false := by decide
    intro c hc
    rw [hout] at hc
    unfold nthOfType at hc
    rw [List.mem_append, List.mem_append] at hc
    rcases hc with (hc | hc) | hc
    · exact hopen c hc
    · exact isTestSign_of_isDigitChar (isDigitChar_of_digits? hdigits c hc)
    · exact hclose c hc
  intro test htest
  simp only [valueTests, plainTests, List.mem_cons, List.not_mem_nil, or_false] at htest
  rcases htest with rfl | rfl | rfl | rfl
  · exact ⟨withoutSkip_standsIn.opensWith.takesOff, hskip⟩
  · exact ⟨presenceTest_standsIn.opensWith.takesOff, presenceTest_loses⟩
  · exact ⟨lastTest_standsIn.opensWith.takesOff, hlast⟩
  · exact ⟨positionTest_standsIn.opensWith.takesOff, hposition⟩

/-- Whatever the path of the test is read as, the value is in it as it is. -/
def TranslatesVerbatim (element name value : String) : Prop :=
  ∀ location, locate (attributePath element name value) = .ok location →
    location = { selector := attributeTest element name value, extract? := none, skip := 0 }

theorem attributeTest_injective {value other : String}
    (h : attributeTest element' name' value = attributeTest element' name' other) : value = other := by
  simpa [attributeTest, ← String.toList_inj] using h

theorem leftOut_eq_zero (h : withoutSkip.PassesOver value) : leftOut value = 0 := by
  have hpasses : skipTest.PassesOver value := fun tail htail =>
    withoutSkip_eq_none_iff.1 (h tail htail)
  rw [leftOut, (Text.firstSpan?_eq_none_iff skipTest_standsIn.opensWith.takesOff).2 hpasses]
  rfl

/-- What the path of a test is read as, and that the value is kept exactly where no test can be
read in it. -/
theorem attribute_value_kept_iff {element name value : String}
    (helement : IsElementName element.toList) (hname : IsAttributeName name.toList)
    (hvalue : ∀ c ∈ value.toList, isQuote c = false) :
    locate (attributePath element name value) =
      (if holdsMore element.toList value.toList then
        .error (.xpathStep (String.ofList (attributeStep element.toList name.toList
          (Text.replaceSpans withoutSkip value.toList))) (attributePath element name value))
      else
        .ok { selector := attributeTest element name (String.ofList (passAll valueTests value.toList))
              extract? := none
              skip := leftOut value.toList }) ∧
    (TranslatesVerbatim element name value ↔
      (holdsMore element.toList value.toList = false →
        ∀ test ∈ valueTests, test.PassesOver value.toList)) := by
  have hlocate := locate_attributePath helement hname hvalue
  refine ⟨hlocate, ?_⟩
  unfold TranslatesVerbatim
  rw [hlocate, ← Text.passAll_eq_self_iff valueTests_lose]
  by_cases hmore : holdsMore element.toList value.toList = true
  · simp [hmore]
  · rw [if_neg hmore]
    constructor
    · intro hverbatim _
      have hselector := congrArg Location.selector (hverbatim _ rfl)
      simpa using congrArg String.toList (attributeTest_injective hselector)
    · intro hself location hok
      have hpasses := hself (by simpa using hmore)
      obtain rfl := Except.ok.inj hok
      have hskip : withoutSkip.PassesOver value.toList :=
        (Text.passAll_eq_self_iff valueTests_lose).1 hpasses withoutSkip (by simp [valueTests])
      rw [hpasses, leftOut_eq_zero hskip, String.ofList_toList]

theorem attribute_value_kept_iff_slash : IsElementName "a".toList ∧ IsAttributeName "title".toList ∧
    (∀ c ∈ "x/y".toList, isQuote c = false) ∧ TranslatesVerbatim "a" "title" "x/y" ∧
      locate "//a[@title='x/y']" =
        .ok { selector := "a[title=\"x/y\"]", extract? := none, skip := 0 } := by
  have helement : IsElementName "a".toList := ⟨by decide, by decide⟩
  have hname : IsAttributeName "title".toList :=
    ⟨⟨'t', "itle".toList, by decide, by decide⟩, by decide, by decide⟩
  have hvalue : ∀ c ∈ "x/y".toList, isQuote c = false := by decide
  have hself : passAll valueTests "x/y".toList = "x/y".toList := by decide
  obtain ⟨hlocate, hkept⟩ := attribute_value_kept_iff helement hname hvalue
  have hmore : holdsMore "a".toList "x/y".toList = false := by decide
  have hverbatim := hkept.2 fun _ => (Text.passAll_eq_self_iff valueTests_lose).1 hself
  rw [hmore, if_neg Bool.false_ne_true] at hlocate
  rw [hverbatim _ hlocate] at hlocate
  exact ⟨helement, hname, hvalue, hverbatim, hlocate⟩

/-- A value that looks like the test of a position becomes one. -/
theorem not_translatesVerbatim : ¬ ∀ element name value : String, IsElementName element.toList →
    IsAttributeName name.toList → (∀ c ∈ value.toList, isQuote c = false) →
      TranslatesVerbatim element name value := by
  intro hall
  have helement : IsElementName "a".toList := ⟨by decide, by decide⟩
  have hname : IsAttributeName "title".toList :=
    ⟨⟨'t', "itle".toList, by decide, by decide⟩, by decide, by decide⟩
  have hvalue : ∀ c ∈ "[last()]".toList, isQuote c = false := by decide
  have hmore : holdsMore "a".toList "[last()]".toList = false := by decide
  have hlocate := locate_attributePath helement hname hvalue
  rw [hmore, if_neg Bool.false_ne_true] at hlocate
  have hverbatim := hall "a" "title" "[last()]" helement hname hvalue _ hlocate
  exact absurd (congrArg Location.selector hverbatim) (by decide)

end BookRules.Select.XPathRule
