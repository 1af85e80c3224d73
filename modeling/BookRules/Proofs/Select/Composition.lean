import BookRules.Proofs.Rule.Balancing
import BookRules.Proofs.Rule.Splitting
import BookRules.Select.JsonRule
import BookRules.Select.XPathRule

/-!
# Combinators in selectors

In every selector a rule with a combinator gives what the combinator makes of the
answers to its two operands.  Each selector splits its rule, evaluates the fragments
one by one and merges, so this follows from how a rule of two operands splits.  Two
selectors need more.  A rule for pages may start with the mark for selectors, which
holds for all of its fragments, whatever the case of its letters.  And a template in a
rule for JSON holds rules of its own; they are shorter than the rule around them, so
how deep the evaluation may still go makes no difference.
-/

namespace BookRules.Select

open BookRules.Markup (Element)
open BookRules.Rule

/-- The selector gives for two operands with a combinator between them what the
combinator makes of its answers to each. -/
def Composes {α : Type} (select : String → List α) (name a b : String) : Prop :=
  select (a ++ name ++ b) = (Combinator.ofToken name).join (select a) (select b)

variable {name a b : String}

/-- What splits its rules, evaluates the fragments and merges composes. -/
theorem composes_of_merge {α : Type} {dialect : Dialect} {select : String → List α}
    (eval : String → List α)
    (hselect : ∀ rule ∈ [a, b, a ++ name ++ b],
      select rule = (split dialect Combinator.tokens rule).kind.merge eval
        (split dialect Combinator.tokens rule).fragments)
    (hname : name ∈ Combinator.tokens) (ha : IsOperand dialect name a)
    (hb : IsOperand dialect name b) : Composes select name a b := by
  unfold Composes
  rw [hselect a (by simp), hselect b (by simp), hselect (a ++ name ++ b) (by simp),
    split_operands hname ha hb.isLastOperand, ha.isLastOperand.split_eq,
    hb.isLastOperand.split_eq, Combinator.merge_pair, Combinator.merge_singleton,
    Combinator.merge_singleton]

/-! ## Rules for pages -/

namespace CssRule

/-- The rule starts with the mark for selectors, in letters of either case. -/
def IsMarked (rule : String) : Prop :=
  (Text.stripFrontNoCase? literalMark.toList rule.toList).isSome = true

instance (rule : String) : Decidable (IsMarked rule) :=
  inferInstanceAs (Decidable (_ = true))

theorem body_of_not_isMarked {rule : String} (h : ¬ IsMarked rule) :
    body rule = (false, Text.trimmed rule) := by
  unfold body
  cases hstrip : Text.stripFrontNoCase? literalMark.toList rule.toList with
  | none => rfl
  | some rest => simp [IsMarked, hstrip] at h

theorem body_literalMark_append (rule : String) :
    body (literalMark ++ rule) = (true, Text.trimmed rule) := by
  have hstrip : Text.stripFrontNoCase? literalMark.toList (literalMark ++ rule).toList =
      some rule.toList := by
    simp [Text.stripFrontNoCase?]
  unfold body
  rw [hstrip]
  rfl

/-- A combinator behind an operand does not make a mark of its front. -/
theorem not_isMarked_append (hname : name ∈ Combinator.tokens) (ha : ¬ IsMarked a) (b : String) :
    ¬ IsMarked (a ++ name ++ b) := by
  obtain ⟨c, more, hcs, hc⟩ : ∃ c more, name.toList = c :: more ∧
      c.toLower ∉ Text.lowerAscii literalMark.toList := by
    simp only [Combinator.tokens, List.mem_cons, List.not_mem_nil, or_false] at hname
    rcases hname with rfl | rfl | rfl
    · exact ⟨'&', ['&'], rfl, by decide⟩
    · exact ⟨'|', ['|'], rfl, by decide⟩
    · exact ⟨'%', ['%'], rfl, by decide⟩
  have hnone : Text.stripFrontNoCase? literalMark.toList a.toList = none := by
    simpa [IsMarked] using ha
  simp [IsMarked, hcs, Text.stripFrontNoCase?_append_cons hc hnone]

theorem strings_of_not_isMarked {rule : String} (h : ¬ IsMarked rule) (scope : List Element) :
    strings scope rule = (split .rule Combinator.tokens rule).kind.merge
      (fun fragment => orNothing (fragmentStrings false scope fragment))
      (split .rule Combinator.tokens rule).fragments := by
  simp only [strings, body_of_not_isMarked h, split_trimmed]

theorem elements_of_not_isMarked {rule : String} (h : ¬ IsMarked rule) (scope : List Element) :
    elements scope rule = (split .rule Combinator.tokens rule).kind.merge
      (fun fragment => orNothing (fragmentElements false scope fragment))
      (split .rule Combinator.tokens rule).fragments := by
  simp only [elements, body_of_not_isMarked h, split_trimmed]

theorem strings_literalMark_append (scope : List Element) (rule : String) :
    strings scope (literalMark ++ rule) = (split .rule Combinator.tokens rule).kind.merge
      (fun fragment => orNothing (fragmentStrings true scope fragment))
      (split .rule Combinator.tokens rule).fragments := by
  simp only [strings, body_literalMark_append, split_trimmed]

theorem elements_literalMark_append (scope : List Element) (rule : String) :
    elements scope (literalMark ++ rule) = (split .rule Combinator.tokens rule).kind.merge
      (fun fragment => orNothing (fragmentElements true scope fragment))
      (split .rule Combinator.tokens rule).fragments := by
  simp only [elements, body_literalMark_append, split_trimmed]

end CssRule

/-! ## Rules for JSON -/

namespace JsonRule

/-- Fuel above the length of a rule makes no difference. -/
theorem stringsWith_eq_of_length_lt (doc : Json) {fuel other : Nat} {rule : String}
    (hfuel : rule.length < fuel) (hother : rule.length < other) :
    stringsWith doc fuel rule = stringsWith doc other rule := by
  induction fuel generalizing other rule with
  | zero => simp at hfuel
  | succ fuel ih =>
      cases other with
      | zero => simp at hother
      | succ other =>
          apply Combinator.merge_congr
          intro fragment hfragment
          have hshort : fragment.length ≤ rule.length :=
            length_le_of_mem_split combinatorTokens_subset_separators hfragment
          have hinner : ∀ path : String, path.length < fragment.length →
              some ("\n".intercalate (stringsWith doc fuel path)) =
                some ("\n".intercalate (stringsWith doc other path)) := by
            intro path hpath
            have hsame : stringsWith doc fuel path = stringsWith doc other path :=
              ih (by omega) (by omega)
            rw [hsame]
          rw [substitute_congr hinner]

/-- The texts of one fragment: the template filled in, or the matches of the path. -/
def fragmentStrings (doc : Json) (fragment : String) : List String :=
  match (substitute fragment templateMark fun path =>
      some ("\n".intercalate (strings doc path))).1 with
  | some text => [text]
  | none => (flatMatches doc fragment).filterMap Json.shown?

theorem strings_eq_merge (doc : Json) (rule : String) :
    strings doc rule = (split .script Combinator.tokens rule).kind.merge (fragmentStrings doc)
      (split .script Combinator.tokens rule).fragments := by
  apply Combinator.merge_congr
  intro fragment hfragment
  have hshort : fragment.length ≤ rule.length :=
    length_le_of_mem_split combinatorTokens_subset_separators hfragment
  have hinner : ∀ path : String, path.length < fragment.length →
      some ("\n".intercalate (stringsWith doc rule.length path)) =
        some ("\n".intercalate (strings doc path)) := by
    intro path hpath
    rw [strings, stringsWith_eq_of_length_lt doc (by omega) (Nat.lt_succ_self path.length)]
  unfold fragmentStrings
  rewrite [substitute_congr hinner]
  rfl

end JsonRule

/-! ## All selectors -/

def paragraphPage : Element where
  tag := ⟨.html, "body", []⟩
  children := [.element ⟨.html, "p", []⟩ [.text "x"]]
  above := []

/-- The mark counts in letters of either case: in front of the first operand it makes
selectors of both, so the second operand is not read as it is read alone. -/
theorem not_composes_of_upper_mark :
    ¬ ∀ (scope : List Element) (name a b : String), name ∈ Combinator.tokens →
      IsOperand .rule name a → IsOperand .rule name b →
      ¬ CssRule.literalMark.toList <+: a.toList → ¬ CssRule.literalMark.toList <+: b.toList →
      Composes (CssRule.strings scope) name a b := by
  intro hall
  have hcomposes := hall [paragraphPage] "&&" "@CSS:p@text" "tag.p@text" (by decide)
    (by decide +kernel) (by decide +kernel) (by decide) (by decide)
  have htogether : CssRule.strings [paragraphPage] "@CSS:p@text&&tag.p@text" = ["x"] := by
    decide +kernel
  have hfirst : CssRule.strings [paragraphPage] "@CSS:p@text" = ["x"] := by decide +kernel
  have hsecond : CssRule.strings [paragraphPage] "tag.p@text" = ["x"] := by decide +kernel
  have hdouble : CssRule.strings [paragraphPage] "@CSS:p@text&&tag.p@text" = ["x", "x"] := by
    rw [Composes, hfirst, hsecond] at hcomposes
    exact hcomposes
  rw [htogether] at hdouble
  simp at hdouble

/-- Every selector composes; rules for pages with the mark in front of the whole rule
and of each operand compose too. -/
theorem composes_in_every_selector (scope : List Element) (doc : Json)
    (hname : name ∈ Combinator.tokens) :
    (IsOperand .rule name a → IsOperand .rule name b →
      (¬ CssRule.IsMarked a → ¬ CssRule.IsMarked b →
        Composes (CssRule.strings scope) name a b ∧
        Composes (CssRule.elements scope) name a b) ∧
      Composes (fun rule => CssRule.strings scope (CssRule.literalMark ++ rule)) name a b ∧
      Composes (fun rule => CssRule.elements scope (CssRule.literalMark ++ rule)) name a b ∧
      Composes (XPathRule.strings scope) name a b ∧
      Composes (XPathRule.elements scope) name a b) ∧
    (IsOperand .script name a → IsOperand .script name b →
      Composes (JsonRule.strings doc) name a b ∧ Composes (JsonRule.values doc) name a b) := by
  constructor
  · intro ha hb
    refine ⟨fun hmarkA hmarkB => ?_, ?_, ?_, ?_, ?_⟩
    · have hmark : ∀ rule ∈ [a, b, a ++ name ++ b], ¬ CssRule.IsMarked rule := by
        simpa using ⟨hmarkA, hmarkB, CssRule.not_isMarked_append hname hmarkA b⟩
      constructor
      · exact composes_of_merge _
          (fun rule hrule => CssRule.strings_of_not_isMarked (hmark rule hrule) scope) hname ha hb
      · exact composes_of_merge _
          (fun rule hrule => CssRule.elements_of_not_isMarked (hmark rule hrule) scope) hname ha hb
    · exact composes_of_merge _
        (fun rule _ => CssRule.strings_literalMark_append scope rule) hname ha hb
    · exact composes_of_merge _
        (fun rule _ => CssRule.elements_literalMark_append scope rule) hname ha hb
    · exact composes_of_merge (XPathRule.fragmentStrings scope) (fun _ _ => rfl) hname ha hb
    · exact composes_of_merge (XPathRule.fragmentElements scope) (fun _ _ => rfl) hname ha hb
  · intro ha hb
    constructor
    · exact composes_of_merge _ (fun rule _ => JsonRule.strings_eq_merge doc rule) hname ha hb
    · exact composes_of_merge (JsonRule.flatMatches doc) (fun _ _ => rfl) hname ha hb

/-- Operands with combinators that quotes and brackets hide. -/
theorem composes_in_every_selector_hidden :
    "%%" ∈ Combinator.tokens ∧
    IsOperand .rule "%%" " p[title='a%%b']@text " ∧ IsOperand .rule "%%" "tag.p@text" ∧
    ¬ CssRule.IsMarked " p[title='a%%b']@text " ∧ ¬ CssRule.IsMarked "tag.p@text" ∧
    Composes (CssRule.strings [paragraphPage]) "%%" " p[title='a%%b']@text " "tag.p@text" ∧
    IsOperand .script "||" "$.a['b||c']" ∧ IsOperand .script "||" "\x7b$.a\x7d" ∧
    Composes (JsonRule.strings (.object [("a", .string "v")])) "||" "$.a['b||c']"
      "\x7b$.a\x7d" := by
  have hpercent : "%%" ∈ Combinator.tokens := by decide
  have ha : IsOperand .rule "%%" " p[title='a%%b']@text " := by decide +kernel
  have hb : IsOperand .rule "%%" "tag.p@text" := by decide +kernel
  have hmarkA : ¬ CssRule.IsMarked " p[title='a%%b']@text " := by decide
  have hmarkB : ¬ CssRule.IsMarked "tag.p@text" := by decide
  have hc : IsOperand .script "||" "$.a['b||c']" := by decide +kernel
  have hd : IsOperand .script "||" "\x7b$.a\x7d" := by decide +kernel
  have hpages :=
    ((composes_in_every_selector [paragraphPage] .null hpercent).1 ha hb).1 hmarkA hmarkB
  have hjson :=
    (composes_in_every_selector [] (.object [("a", .string "v")]) (by decide)).2 hc hd
  exact ⟨hpercent, ha, hb, hmarkA, hmarkB, hpages.1, hc, hd, hjson.1⟩

end BookRules.Select
