import BookRules.Proofs.Json.QuotedNames

/-!
# Filters on texts

A filter compares the member of a name with a text in single quotes.  Its text passes through
four readers, each of which looks for signs of its own: brackets that close the step,
parentheses around the condition, the signs of a comparison, quotes around the constant.  The
quotes hide the text from the first, and the comparison is found in front of it, so the text may
hold all these signs.

A filter for the same text selects the items that have it as the member; one for another text
selects the items that have some other value there, and no item without the member.
-/

namespace BookRules.Json

open BookRules.Rule (isQuote)

variable {fuel : Nat} {k v : String} {cs side : List Char} {doc item value : Json}
  {op : Comparison}

/-! ## Texts of filters -/

/-- A name that can stand in a condition as it is. -/
structure IsConditionName (name : List Char) : Prop extends IsDotName name where
  noClosing : ']' ∉ name
  noQuote : ∀ c ∈ name, isQuote c = false
  noComparison : ∀ c ∈ name, isComparisonChar c = false

/-- A text that can stand in single quotes in a condition as it is. -/
structure IsConditionText (text : List Char) : Prop where
  noQuote : '\'' ∉ text
  noBackslash : '\\' ∉ text
  oneLine : '\n' ∉ text

def Comparison.signs : Comparison → List Char
  | .eq => ['=', '=']
  | .ne => ['!', '=']
  | .lt => ['<']
  | .le => ['<', '=']
  | .gt => ['>']
  | .ge => ['>', '=']

/-- The condition that compares the member of a name with a constant. -/
def memberCondition (op : Comparison) (k side : List Char) : List Char :=
  '@' :: '.' :: k ++ ' ' :: (op.signs ++ ' ' :: side)

/-- The condition that compares the member of a name with a text. -/
def textCondition (op : Comparison) (k v : List Char) : List Char :=
  '@' :: '.' :: k ++ ' ' :: (op.signs ++ ' ' :: '\'' :: v ++ ['\''])

/-- A constant that can stand in a condition as it is. -/
structure IsSide (side : List Char) : Prop where
  trimmed : Text.trim side = side
  nonempty : side ≠ []
  oneLine : '\n' ∉ side
  inside : StaysInside side

theorem isSide_quoted {text : List Char} (h : IsConditionText text) :
    IsSide ('\'' :: text ++ ['\'']) where
  trimmed := Text.trim_cons_concat (by decide) (by decide) text
  nonempty := List.cons_ne_nil _ _
  oneLine := by simp [h.oneLine]
  inside := staysInside_quoted rfl fun _ hc =>
    ⟨fun heq => h.noQuote (heq ▸ hc), fun heq => h.noBackslash (heq ▸ hc)⟩

/-! ## Reading -/

/-- The first signs of a comparison in a text are where it is taken apart. -/
theorem comparison?_append (hpath : ∀ c ∈ cs, isComparisonChar c = false)
    {right : List Char} (hright : rightSide? (' ' :: right) = some side) :
    comparison? ('@' :: cs ++ (op.signs ++ ' ' :: right)) =
      some (Text.trimEnd ('@' :: cs), op, side) := by
  have hall : ∀ c ∈ '@' :: cs, (!isComparisonChar c) = true := by
    rw [List.forall_mem_cons]
    exact ⟨rfl, fun c hc => by rw [hpath c hc]; rfl⟩
  have hfront : ('@' :: cs ++ (op.signs ++ ' ' :: right)).takeWhile (fun c => !isComparisonChar c) =
      '@' :: cs := by
    rw [List.takeWhile_append_of_pos hall]
    cases op <;> simp [Comparison.signs, isComparisonChar]
  have hback : ('@' :: cs ++ (op.signs ++ ' ' :: right)).dropWhile (fun c => !isComparisonChar c) =
      op.signs ++ ' ' :: right := by
    rw [List.dropWhile_append_of_pos hall]
    cases op <;> rfl
  unfold comparison?
  dsimp only
  rw [hfront, hback]
  -- one sign is followed by the blank here, so it is not taken for the first of two
  cases op <;> simp [Comparison.signs, hright]

theorem conditionText_parentheses (cs : List Char) :
    conditionText ('(' :: cs ++ [')']) = Text.trim cs := by
  unfold conditionText
  rw [Text.trim_cons_concat (by decide) (by decide)]
  simp

theorem trim_memberCondition (op : Comparison) (k : List Char) (hside : IsSide side) :
    Text.trim (memberCondition op k side) = memberCondition op k side := by
  have hends : memberCondition op k side =
      '@' :: ('.' :: k ++ ' ' :: (op.signs ++ [' '])) ++ side := by
    simp [memberCondition]
  have hstart : Text.trimStart ('@' :: ('.' :: k ++ ' ' :: (op.signs ++ [' ']))) =
      '@' :: ('.' :: k ++ ' ' :: (op.signs ++ [' '])) :=
    List.dropWhile_cons_of_neg (by decide)
  rw [hends, Text.trim_append hside.trimmed hside.nonempty, hstart]

theorem comparison?_memberCondition (hk : IsConditionName k.toList) (hside : IsSide side) :
    comparison? (memberCondition op k.toList side) = some ('@' :: '.' :: k.toList, op, side) := by
  have hright : rightSide? (' ' :: side) = some side := by
    have htrim : Text.trim (' ' :: side) = side := by
      rw [← List.singleton_append, Text.trim_blank_append (List.forall_mem_singleton.2 rfl),
        hside.trimmed]
    unfold rightSide?
    rw [htrim]
    simp [hside.oneLine, hside.nonempty]
  have hpath : ∀ c ∈ '.' :: k.toList ++ [' '], isComparisonChar c = false := by
    intro c hc
    rcases List.mem_append.1 hc with hc | hc
    · rcases List.mem_cons.1 hc with rfl | hc
      · rfl
      · exact hk.noComparison c hc
    · rw [List.mem_singleton.1 hc]
      rfl
  have htext : memberCondition op k.toList side =
      '@' :: ('.' :: k.toList ++ [' ']) ++ (op.signs ++ ' ' :: side) := by
    simp [memberCondition]
  have hleft : Text.trimEnd ('@' :: ('.' :: k.toList ++ [' '])) = '@' :: '.' :: k.toList := by
    rw [← List.cons_append, Text.trimEnd_append_blank (List.forall_mem_singleton.2 rfl),
      Text.trimEnd_cons (by decide), Text.trimEnd_cons (by decide),
      Text.trimEnd_eq_self_of_trim hk.trimmed]
  rw [htext, comparison?_append hpath hright, hleft]

theorem condition_memberCondition (hk : IsConditionName k.toList) (hside : IsSide side)
    (hfuel : k.toList.length + 4 ≤ fuel) :
    condition (fuel + 1) ('(' :: memberCondition op k.toList side ++ [')']) =
      .ok (.compare [.child [k]] op (constant side)) := by
  have hpath := spellsPath_dotted hk.toIsDotName
  have hbody : pathBody ('@' :: '.' :: k.toList) = '.' :: k.toList := by
    rw [pathBody, Text.trim_cons (by decide), hpath.trimEnd_eq]
    rfl
  have hsteps : steps fuel ('.' :: k.toList) ('.' :: k.toList) = .ok [.child [k]] :=
    hpath.steps_eq (by rw [List.length_cons]; omega)
  unfold condition
  dsimp only
  rw [conditionText_parentheses, trim_memberCondition op k.toList hside,
    comparison?_memberCondition hk hside]
  dsimp only
  rw [hbody, hsteps]
  rfl

theorem staysInside_memberCondition (hk : IsConditionName k.toList) (hside : IsSide side) :
    StaysInside ('?' :: '(' :: memberCondition op k.toList side ++ [')']) := by
  -- brackets can stand in the constant only
  have hfront :
      StaysInside ('?' :: '(' :: '@' :: '.' :: k.toList ++ ' ' :: (op.signs ++ [' '])) := by
    refine staysInside_of_isNeutral ?_
    simp only [List.cons_append, List.forall_mem_cons, List.forall_mem_append]
    refine ⟨rfl, rfl, rfl, rfl, fun c hc => ?_, rfl, ?_, rfl, by simp⟩
    · have hopen : c ≠ '[' := fun heq => hk.noBracket (heq ▸ hc)
      have hclose : c ≠ ']' := fun heq => hk.noClosing (heq ▸ hc)
      simp [isNeutral, hk.noQuote c hc, hopen, hclose]
    · cases op <;> simp [Comparison.signs, isNeutral, isQuote]
  have hback : StaysInside [')'] := staysInside_of_isNeutral (List.forall_mem_singleton.2 rfl)
  have htext : '?' :: '(' :: memberCondition op k.toList side ++ [')'] =
      ('?' :: '(' :: '@' :: '.' :: k.toList ++ ' ' :: (op.signs ++ [' '])) ++ side ++ [')'] := by
    simp [memberCondition]
  rw [htext]
  exact (hfront.append hside.inside).append hback

theorem stepInside_condition (body raw : List Char) :
    stepInside fuel body ('?' :: raw) = do return .filter (← condition fuel raw) :=
  rfl

theorem parse_memberCondition (op : Comparison) {text : String} (hk : IsConditionName k.toList)
    (hside : IsSide side)
    (htext : text.toList =
      '$' :: '[' :: (('?' :: '(' :: memberCondition op k.toList side ++ [')']) ++ [']'])) :
    Path.parse text = .ok [.filter (.compare [.child [k]] op (constant side))] := by
  refine parse_bracket (staysInside_memberCondition hk hside) (fun fuel body hfuel => ?_) htext
  have hlength : k.toList.length + 5 ≤ fuel := by
    simp only [memberCondition, List.length_append, List.length_cons] at hfuel
    omega
  obtain ⟨fuel, rfl⟩ : ∃ n, fuel = n + 1 := ⟨fuel - 1, by omega⟩
  rw [Text.trim_cons_concat (by decide) (by decide)]
  rw [List.cons_append, stepInside_condition, condition_memberCondition hk hside (by omega)]
  rfl

theorem constant_quoted (v : String) : constant ('\'' :: v.toList ++ ['\'']) = .string v := by
  unfold constant
  rw [Text.trim_cons_concat (by decide) (by decide)]
  simp

theorem parse_textCondition (op : Comparison) {text : String} (hk : IsConditionName k.toList)
    (hv : IsConditionText v.toList)
    (htext : text.toList =
      '$' :: '[' :: (('?' :: '(' :: textCondition op k.toList v.toList ++ [')']) ++ [']'])) :
    Path.parse text = .ok [.filter (.compare [.child [k]] op (.string v))] := by
  rw [← constant_quoted v]
  refine parse_memberCondition op hk (isSide_quoted hv) ?_
  rw [htext]
  simp [textCondition, memberCondition]

/-! ## Comparing with a text -/

theorem holds_eq_string_iff : Comparison.eq.holds value (.string v) = true ↔ value = .string v := by
  cases value <;> simp [Comparison.holds, Comparison.order?, same]

theorem holds_ne_string_iff : Comparison.ne.holds value (.string v) = true ↔ value ≠ .string v := by
  rw [ne_eq, ← holds_eq_string_iff]
  simp [Comparison.holds]

/-- The item is an object and has the value as the member of the name. -/
def HasMember (item : Json) (name : String) (value : Json) : Prop :=
  ∃ members, item = .object members ∧ (name, value) ∈ members

theorem mem_query_child_iff (hitem : item.Distinct) :
    value ∈ query [.child [k]] item ↔ HasMember item k value := by
  constructor
  · intro hvalue
    cases item with
    | object members =>
        obtain ⟨hfound, hmissing⟩ := addresses_child (distinct_object.1 hitem).1 k
        by_cases hk : k ∈ members.map Prod.fst
        · obtain ⟨⟨name, found⟩, hmem, rfl⟩ := List.mem_map.1 hk
          rw [hfound found hmem, List.mem_singleton] at hvalue
          exact ⟨members, rfl, hvalue ▸ hmem⟩
        · rw [hmissing hk] at hvalue
          exact absurd hvalue List.not_mem_nil
    | _ => exact absurd hvalue List.not_mem_nil
  · rintro ⟨members, rfl, hmem⟩
    rw [(addresses_child (distinct_object.1 hitem).1 k).1 value hmem]
    exact List.mem_singleton_self value

theorem holds_compare_child_iff (hitem : item.Distinct) {constant : Json} :
    (Condition.compare [.child [k]] op constant).holds item = true ↔
      ∃ value, HasMember item k value ∧ op.holds value constant = true := by
  rw [Condition.holds, List.any_eq_true]
  exact exists_congr fun value => and_congr_left fun _ => mem_query_child_iff hitem

theorem query_filter_eq_take (condition : Condition) (doc : Json) :
    query [.filter condition] doc =
      (doc.children.filter condition.holds).take Limits.jsonMatches := by
  rw [query, applySteps_cons, applySteps, List.flatMap_singleton, Step.apply]

theorem query_filter (condition : Condition) (hsmall : doc.children.length ≤ Limits.jsonMatches) :
    query [.filter condition] doc = doc.children.filter condition.holds := by
  have hfew : (doc.children.filter condition.holds).length ≤ Limits.jsonMatches :=
    (List.length_filter_le _ _).trans hsmall
  rw [query_filter_eq_take, List.take_of_length_le hfew]

/-- The filter for a text selects the items that have the text as their member, and the filter
against it the items that have some other value there, both in order. -/
theorem text_filters_select_members (hk : IsConditionName k.toList)
    (hv : IsConditionText v.toList) (hdoc : doc.Distinct)
    (hsmall : doc.children.length ≤ Limits.jsonMatches) :
    (∃ path selects, Path.parse ("$[?(@." ++ k ++ " == '" ++ v ++ "')]") = .ok path ∧
      query path doc = doc.children.filter selects ∧
      ∀ item ∈ doc.children, selects item = true ↔ HasMember item k (.string v)) ∧
    ∃ path selects, Path.parse ("$[?(@." ++ k ++ " != '" ++ v ++ "')]") = .ok path ∧
      query path doc = doc.children.filter selects ∧
      ∀ item ∈ doc.children, selects item = true ↔
        ∃ value, HasMember item k value ∧ value ≠ .string v := by
  have hitems : ∀ item ∈ doc.children, item.Distinct := (distinct_iff.1 hdoc).2
  constructor
  · refine ⟨_, _, parse_textCondition .eq hk hv ?_, query_filter _ hsmall, ?_⟩
    · simp [textCondition, Comparison.signs]
    · intro item hitem
      rw [holds_compare_child_iff (hitems item hitem)]
      simp only [holds_eq_string_iff, exists_eq_right]
  · refine ⟨_, _, parse_textCondition .ne hk hv ?_, query_filter _ hsmall, ?_⟩
    · simp [textCondition, Comparison.signs]
    · intro item hitem
      rw [holds_compare_child_iff (hitems item hitem)]
      simp only [holds_ne_string_iff]

/-- A text that holds signs of all kinds, a member that is no text, and an item without the
member. -/
theorem text_filters_select_members_signs :
    let alike := Json.object [("k", .string "]) != \"x")]
    let other := Json.object [("k", .null)]
    let doc := Json.array [alike, other, .null]
    (IsConditionName "k".toList ∧ IsConditionText "]) != \"x".toList ∧ doc.Distinct ∧
      doc.children.length ≤ Limits.jsonMatches) ∧
    (∃ path, Path.parse "$[?(@.k == ']) != \"x')]" = .ok path ∧ query path doc = [alike]) ∧
    ∃ path, Path.parse "$[?(@.k != ']) != \"x')]" = .ok path ∧ query path doc = [other] := by
  intro alike other doc
  have hk : IsConditionName "k".toList :=
    ⟨⟨by decide, by decide, by decide, by decide, by decide⟩, by decide,
      List.forall_mem_singleton.2 rfl, List.forall_mem_singleton.2 rfl⟩
  have hv : IsConditionText "]) != \"x".toList := ⟨by decide, by decide, by decide⟩
  have hdoc : doc.Distinct := by
    simp [doc, alike, other, distinct_array, distinct_object, distinct_null, distinct_string]
  have hsmall : doc.children.length ≤ Limits.jsonMatches := by decide
  obtain ⟨⟨path, selects, hparse, hquery, hselects⟩, path', selects', hparse', hquery',
    hselects'⟩ := text_filters_select_members hk hv hdoc hsmall
  simp only [doc, alike, other, children, List.forall_mem_cons, HasMember] at hselects hselects'
  refine ⟨⟨hk, hv, hdoc, hsmall⟩, ⟨path, hparse, ?_⟩, path', hparse', ?_⟩
  · rw [hquery]
    simp_all [doc, alike, other, children]
  · rw [hquery']
    simp_all [doc, alike, other, children]

end BookRules.Json
