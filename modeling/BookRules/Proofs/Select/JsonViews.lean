import BookRules.Proofs.Rule.Merging
import BookRules.Proofs.Rule.Placeholders
import BookRules.Proofs.Select.Composition

/-!
# Two views of a rule for JSON

A rule for JSON selects values, and it selects texts, which are those of the values other than
`null`.  The texts leave the nulls of every fragment out before the fragments are merged, while
the values keep them.  Where the fragments are put one behind the other that makes no difference.
But `||` takes a fragment of values that are all `null` and passes over one without texts, and
`%%` deals by places, which move when nulls in front are left out.
-/

namespace BookRules.Rule.Combinator

variable {ι α β : Type} {f : α → Option β} {eval : ι → List α} {xs : List ι} {kind : Combinator}
  {lists : List (List α)} {list : List α} {n i : Nat}

/-! ## Leaving items out -/

theorem merge_filterMap_of_concat (hor : kind ≠ .or) (hcombine : kind ≠ .combine) :
    kind.merge (fun x => (eval x).filterMap f) xs = (kind.merge eval xs).filterMap f := by
  have hconcat : xs.flatMap (fun x => (eval x).filterMap f) = (xs.flatMap eval).filterMap f :=
    List.filterMap_flatMap.symm
  cases kind with
  | none => exact hconcat
  | and => exact hconcat
  | chain => exact hconcat
  | or => exact absurd rfl hor
  | combine => exact absurd rfl hcombine

theorem merge_or_eq_nil_iff : merge .or eval xs = [] ↔ ∀ x ∈ xs, eval x = [] := by
  unfold merge mergeCounting
  rcases firstNonempty_cases eval xs with ⟨front, x, back, rfl, -, hx, hfound⟩ | ⟨hall, hfound⟩
  · rw [hfound]
    exact iff_of_false hx fun hall => hx (hall x (by simp))
  · rw [hfound]
    exact iff_of_true rfl hall

theorem merge_or_cons (x : ι) (xs : List ι) :
    merge .or eval (x :: xs) = if eval x = [] then merge .or eval xs else eval x := by
  unfold merge mergeCounting
  by_cases hx : eval x = [] <;> simp [firstNonempty, hx]

/-- The first answer with an item is the first with an item that stays, unless all of its items
are left out and items of a later answer are not. -/
theorem merge_or_filterMap_iff :
    merge .or (fun x => (eval x).filterMap f) xs = (merge .or eval xs).filterMap f ↔
      ((merge .or eval xs).filterMap f = [] → ∀ x ∈ xs, (eval x).filterMap f = []) := by
  induction xs with
  | nil => simp [merge, mergeCounting, firstNonempty]
  | cons x xs ih =>
      rw [merge_or_cons, merge_or_cons, List.forall_mem_cons]
      by_cases hx : eval x = []
      · simpa [hx] using ih
      · by_cases hleft : (eval x).filterMap f = []
        -- the answer is taken with nothing left of it, and without it the search goes on
        · rw [if_pos hleft, if_neg hx, hleft, merge_or_eq_nil_iff]
          simp
        · rw [if_neg hleft, if_neg hx]
          simp [hleft]

/-- In the first `n` rounds nothing stands behind an item that is left out. -/
def LeavesLast (f : α → Option β) (n : Nat) (list : List α) : Prop :=
  ∃ front back, list = front ++ back ∧ (∀ a ∈ front, (f a).isSome) ∧
    (n ≤ front.length ∨ ∀ a ∈ back, f a = Option.none)

theorem leavesLast_of_forall_isSome (h : ∀ a ∈ list, (f a).isSome) (n : Nat) :
    LeavesLast f n list :=
  ⟨list, [], (List.append_nil list).symm, h, Or.inr (by simp)⟩

theorem length_filterMap_of_forall_isSome (h : ∀ a ∈ list, (f a).isSome) :
    (list.filterMap f).length = list.length := by
  rw [List.filterMap_length_eq_length]
  exact h

theorem getElem?_filterMap_of_isSome (h : ∀ a ∈ list, (f a).isSome) (i : Nat) :
    (list.filterMap f)[i]? = list[i]?.bind f := by
  induction list generalizing i with
  | nil => rfl
  | cons a list ih =>
      rw [List.forall_mem_cons] at h
      obtain ⟨b, hb⟩ := Option.isSome_iff_exists.1 h.1
      rw [List.filterMap_cons_some hb]
      cases i with
      | zero => simp [hb]
      | succ i => exact ih h.2 i

theorem LeavesLast.getElem?_filterMap (h : LeavesLast f n list) (hi : i < n) :
    (list.filterMap f)[i]? = list[i]?.bind f := by
  obtain ⟨front, back, rfl, hfront, hback⟩ := h
  have hlength := length_filterMap_of_forall_isSome hfront
  rw [List.filterMap_append]
  by_cases hlt : i < front.length
  · rw [List.getElem?_append_left (by omega), List.getElem?_append_left hlt,
      getElem?_filterMap_of_isSome hfront]
  · rcases hback with hrounds | hnone
    · omega
    -- behind the front neither side has an item
    · have hempty : back.filterMap f = [] := List.filterMap_eq_nil_iff.2 hnone
      rw [hempty, List.append_nil, List.getElem?_eq_none (by omega),
        List.getElem?_append_right (by omega)]
      cases hitem : back[i - front.length]? with
      | none => rfl
      | some a => exact (hnone a (List.mem_of_getElem? hitem)).symm

/-- Dealing goes by places, and no place moves in the rounds that are dealt. -/
theorem interleave_filterMap (hfirst : ∀ a ∈ lists.headD [], (f a).isSome)
    (hlists : ∀ list ∈ lists, LeavesLast f (lists.headD []).length list) :
    interleave (lists.map (List.filterMap f)) = (interleave lists).filterMap f := by
  have hlength : ((lists.map (List.filterMap f)).headD []).length = (lists.headD []).length := by
    cases lists with
    | nil => rfl
    | cons first rest => exact length_filterMap_of_forall_isSome hfirst
  rw [interleave, interleave, rounds_eq_flatMap, rounds_eq_flatMap, hlength, List.filterMap_flatMap]
  apply List.flatMap_congr
  intro i hi
  rw [column, column, List.filterMap_map, List.filterMap_filterMap]
  apply List.filterMap_congr
  intro list hlist
  exact (hlists list hlist).getElem?_filterMap (List.mem_range.1 hi)

theorem merge_combine_filterMap (hfirst : ∀ a ∈ (xs.map eval).headD [], (f a).isSome)
    (hlists : ∀ list ∈ xs.map eval, LeavesLast f ((xs.map eval).headD []).length list) :
    merge .combine (fun x => (eval x).filterMap f) xs = (merge .combine eval xs).filterMap f := by
  have hdealt := interleave_filterMap hfirst hlists
  rw [List.map_map] at hdealt
  exact hdealt

theorem merge_or_filterMap_of_forall_isSome (h : ∀ x ∈ xs, ∀ a ∈ eval x, (f a).isSome) :
    merge .or (fun x => (eval x).filterMap f) xs = (merge .or eval xs).filterMap f := by
  induction xs with
  | nil => rfl
  | cons x xs ih =>
      rw [List.forall_mem_cons] at h
      have hnil : (eval x).filterMap f = [] ↔ eval x = [] := by
        rw [← List.length_eq_zero_iff, length_filterMap_of_forall_isSome h.1,
          List.length_eq_zero_iff]
      rw [merge_or_cons, merge_or_cons, ih h.2]
      by_cases hx : eval x = []
      · rw [if_pos (hnil.2 hx), if_pos hx]
      · rw [if_neg (hnil.not.2 hx), if_neg hx]

theorem merge_filterMap_of_forall_isSome (h : ∀ x ∈ xs, ∀ a ∈ eval x, (f a).isSome) :
    kind.merge (fun x => (eval x).filterMap f) xs = (kind.merge eval xs).filterMap f := by
  by_cases hor : kind = .or
  · subst hor
    exact merge_or_filterMap_of_forall_isSome h
  · by_cases hcombine : kind = .combine
    · subst hcombine
      have hlists : ∀ list ∈ xs.map eval, ∀ a ∈ list, (f a).isSome := List.forall_mem_map.2 h
      have hfirst : ∀ a ∈ (xs.map eval).headD [], (f a).isSome := by
        cases xs with
        | nil => simp
        | cons x xs => exact h x List.mem_cons_self
      exact merge_combine_filterMap hfirst fun list hlist =>
        leavesLast_of_forall_isSome (hlists list hlist) _
    · exact merge_filterMap_of_concat hor hcombine

end BookRules.Rule.Combinator

/-! ## Texts and values -/

namespace BookRules.Select.JsonRule

open BookRules.Rule

variable {doc : Json} {rule : String}

theorem shown?_eq_none_iff {value : Json} : value.shown? = none ↔ value = .null := by
  cases value <;> simp [Json.shown?]

theorem strings_of_not_template (doc : Json) (h : ¬ templateMark.toList <:+: rule.toList) :
    strings doc rule = (split .script Combinator.tokens rule).kind.merge
      (fun fragment => (flatMatches doc fragment).filterMap Json.shown?)
      (split .script Combinator.tokens rule).fragments := by
  rw [strings_eq_merge]
  apply Combinator.merge_congr
  intro fragment hfragment
  have hstands := isInfix_of_mem_split combinatorTokens_subset_separators hfragment
  have hfree : ¬ templateMark.toList <:+: fragment.toList := fun hmark => h (hmark.trans hstands)
  unfold fragmentStrings
  rw [substitute_of_not_isInfix hfree]

theorem isSome_shown?_of_not_mem {list : List Json} (h : .null ∉ list) :
    ∀ value ∈ list, (Json.shown? value).isSome := by
  intro value hvalue
  rw [Option.isSome_iff_ne_none, Ne, shown?_eq_none_iff]
  rintro rfl
  exact h hvalue

theorem filterMap_shown?_eq_nil_iff {list : List Json} :
    list.filterMap Json.shown? = [] ↔ ∀ value ∈ list, value = .null := by
  simp only [List.filterMap_eq_nil_iff, shown?_eq_none_iff]

/-- A rule without templates selects the texts of the fragments, merged.  They are the texts of
the values it selects where the fragments are put one behind the other, and where no fragment
matches a `null`.  With `||` they are so unless the values are all `null` and a fragment matches
something else, and with `%%` where nothing stands behind a `null` in the rounds that are
dealt. -/
theorem texts_of_selected_values (doc : Json) (hrule : ¬ templateMark.toList <:+: rule.toList) :
    let parts := split .script Combinator.tokens rule
    let found := parts.fragments.map (flatMatches doc)
    let texts := (values doc rule).filterMap Json.shown?
    strings doc rule = parts.kind.merge
        (fun fragment => (flatMatches doc fragment).filterMap Json.shown?) parts.fragments ∧
      (parts.kind ≠ .or → parts.kind ≠ .combine → strings doc rule = texts) ∧
      ((∀ list ∈ found, .null ∉ list) → strings doc rule = texts) ∧
      (parts.kind = .or → (strings doc rule = texts ↔
        ((∀ value ∈ values doc rule, value = .null) →
          ∀ list ∈ found, ∀ value ∈ list, value = .null))) ∧
      (parts.kind = .combine → .null ∉ found.headD [] →
        (∀ list ∈ found, Combinator.LeavesLast Json.shown? (found.headD []).length list) →
        strings doc rule = texts) := by
  intro parts found texts
  have hstrings : strings doc rule = parts.kind.merge
      (fun fragment => (flatMatches doc fragment).filterMap Json.shown?) parts.fragments :=
    strings_of_not_template doc hrule
  have htexts : texts = (parts.kind.merge (flatMatches doc) parts.fragments).filterMap
      Json.shown? := rfl
  refine ⟨hstrings, fun hor hcombine => ?_, fun hnull => ?_, fun hor => ?_,
    fun hcombine hfirst hlists => ?_⟩
  · rw [hstrings, htexts]
    exact Combinator.merge_filterMap_of_concat hor hcombine
  · rw [hstrings, htexts]
    refine Combinator.merge_filterMap_of_forall_isSome fun fragment hfragment => ?_
    exact isSome_shown?_of_not_mem (hnull _ (List.mem_map_of_mem hfragment))
  · have hvalues : values doc rule = Combinator.merge .or (flatMatches doc) parts.fragments :=
      congrArg (fun kind => Combinator.merge kind (flatMatches doc) parts.fragments) hor
    rw [hstrings, htexts, hvalues, hor, Combinator.merge_or_filterMap_iff]
    simp only [filterMap_shown?_eq_nil_iff, found, List.forall_mem_map]
  · rw [hstrings, htexts, hcombine]
    exact Combinator.merge_combine_filterMap (isSome_shown?_of_not_mem hfirst) hlists

/-- A member that is `null` in front of one that is not. -/
def nullFirst : Json :=
  .object [("a", .null), ("b", .string "x")]

theorem texts_of_selected_values_null :
    (¬ templateMark.toList <:+: "$.a&&$.b".toList ∧ ¬ templateMark.toList <:+: "$.a||$.b".toList) ∧
      strings nullFirst "$.a&&$.b" = (values nullFirst "$.a&&$.b").filterMap Json.shown? ∧
      (values nullFirst "$.a||$.b").filterMap Json.shown? = [] ∧
      strings nullFirst "$.a||$.b" = ["x"] := by
  have hand : ¬ templateMark.toList <:+: "$.a&&$.b".toList := by decide
  have hor : ¬ templateMark.toList <:+: "$.a||$.b".toList := by decide
  obtain ⟨-, hconcat, -⟩ := texts_of_selected_values nullFirst hand
  obtain ⟨hstrings, -⟩ := texts_of_selected_values nullFirst hor
  refine ⟨⟨hand, hor⟩, hconcat (by decide +kernel) (by decide +kernel), by decide +kernel, ?_⟩
  rw [hstrings]
  decide +kernel

theorem not_texts_of_selected_values :
    ¬ ∀ (doc : Json) (rule : String), ¬ templateMark.toList <:+: rule.toList →
      strings doc rule = (values doc rule).filterMap Json.shown? := by
  intro hall
  have hsame := hall nullFirst "$.a||$.b" (by decide)
  have hstrings : strings nullFirst "$.a||$.b" = ["x"] := by decide +kernel
  have hvalues : (values nullFirst "$.a||$.b").filterMap Json.shown? = [] := by decide +kernel
  rw [hstrings, hvalues] at hsame
  exact List.cons_ne_nil _ _ hsame

end BookRules.Select.JsonRule
