import BookRules.Text.Occurrence
import BookRules.Text.Span
import Mathlib.Data.List.Infix

/-!
# Fronts and stretches of texts

The searches for one text in another decide the library's relations: a text that
starts with a front has it as a prefix, and a needle occurs when it is a stretch
of the text.  Where nothing is recognised nothing is replaced.  The pieces between
separators hold no separator and nothing that is not in the text.
-/

namespace BookRules.Text

variable {front needle cs before after : List Char}

theorem stripFront?_eq_some_iff : stripFront? front cs = some after ↔ front ++ after = cs := by
  constructor
  · exact append_of_stripFront?
  · rintro rfl
    induction front with
    | nil => rfl
    | cons f front ih => simp [stripFront?, ih]

theorem stripFront?_eq_none_iff : stripFront? front cs = none ↔ ¬ front <+: cs := by
  rw [Option.eq_none_iff_forall_ne_some]
  constructor
  · rintro h ⟨after, hafter⟩
    exact h after (stripFront?_eq_some_iff.2 hafter)
  · intro h after hafter
    exact h ⟨after, stripFront?_eq_some_iff.1 hafter⟩

/-- A front that a character cannot be part of does not reach across it. -/
theorem isPrefix_append_cons_iff {c : Char} (hc : c ∉ needle) (after : List Char) :
    needle <+: before ++ c :: after ↔ needle <+: before := by
  constructor
  · intro hprefix
    rcases List.prefix_or_prefix_of_prefix hprefix (List.prefix_append before (c :: after)) with
      hshort | ⟨more, rfl⟩
    · exact hshort
    · rw [List.prefix_append_right_inj] at hprefix
      cases more with
      | nil => simp
      | cons d more =>
          obtain ⟨rfl, -⟩ := List.cons_prefix_cons.1 hprefix
          exact absurd (by simp) hc
  · exact fun hprefix => hprefix.trans (List.prefix_append before (c :: after))

/-- A needle does not reach across a character it does not hold. -/
theorem isInfix_append_cons {c : Char} (hc : c ∉ needle) (h : needle <:+: before ++ c :: after) :
    needle <:+: before ∨ needle <:+: after := by
  induction before with
  | nil =>
      rcases List.infix_cons_iff.1 h with hprefix | hlater
      · have hfront : needle <+: [] ++ c :: after := hprefix
        rw [isPrefix_append_cons_iff hc] at hfront
        exact Or.inl hfront.isInfix
      · exact Or.inr hlater
  | cons d before ih =>
      rcases List.infix_cons_iff.1 h with hprefix | hlater
      · have hfront : needle <+: d :: before ++ c :: after := hprefix
        rw [isPrefix_append_cons_iff hc] at hfront
        exact Or.inl hfront.isInfix
      · exact (ih hlater).imp_left fun hpart => hpart.trans (List.suffix_cons d before).isInfix

/-- A front is not completed by a character that it does not have at this place. -/
theorem stripFrontNoCase?_append_cons_of_ne {c : Char}
    (hc : (lowerAscii needle)[before.length]? ≠ some c.toLower)
    (h : stripFrontNoCase? needle before = none) (after : List Char) :
    stripFrontNoCase? needle (before ++ c :: after) = none := by
  unfold stripFrontNoCase? at h ⊢
  rw [if_neg]
  intro heq
  by_cases hlong : needle.length ≤ before.length
  · rw [List.take_append_of_le_length hlong] at heq
    simp [heq] at h
  · apply hc
    rw [heq, lowerAscii, List.getElem?_map, List.getElem?_take_of_lt (by omega),
      List.getElem?_append_right le_rfl, Nat.sub_self]
    rfl

theorem stripFrontNoCase?_append_cons {c : Char} (hc : c.toLower ∉ lowerAscii needle)
    (h : stripFrontNoCase? needle before = none) (after : List Char) :
    stripFrontNoCase? needle (before ++ c :: after) = none :=
  stripFrontNoCase?_append_cons_of_ne (fun hsome => hc (List.mem_of_getElem? hsome)) h after

/-- The text around an occurrence is the text without it. -/
theorem append_of_cutAt? (h : cutAt? needle cs = some (before, after)) :
    before ++ needle ++ after = cs := by
  induction cs generalizing before with
  | nil =>
      unfold cutAt? at h
      split at h
      next hempty =>
        simp only [Option.some.injEq, Prod.mk.injEq] at h
        obtain ⟨rfl, rfl⟩ := h
        simpa using hempty
      next => simp at h
  | cons c rest ih =>
      unfold cutAt? at h
      split at h
      next after' hfront =>
        simp only [Option.some.injEq, Prod.mk.injEq] at h
        obtain ⟨rfl, rfl⟩ := h
        simpa using append_of_stripFront? hfront
      next hfront =>
        obtain ⟨⟨b, a⟩, hrest, heq⟩ := Option.map_eq_some_iff.1 h
        simp only [Prod.mk.injEq] at heq
        obtain ⟨rfl, rfl⟩ := heq
        simpa using ih hrest

theorem cutAtLast?_append_cons {c : Char} (hc : c ∉ after) (before : List Char) :
    cutAtLast? c (before ++ c :: after) = some (before, after) := by
  have hpass : ∀ d ∈ after.reverse, (d != c) = true := by
    intro d hd
    rw [bne_iff_ne]
    rintro rfl
    exact hc (List.mem_reverse.1 hd)
  have hspan : (before ++ c :: after).reverse.span (· != c) =
      (after.reverse, c :: before.reverse) := by
    rw [List.span_eq_takeWhile_dropWhile, List.reverse_append, List.reverse_cons,
      List.append_assoc, List.singleton_append, List.takeWhile_append_of_pos hpass,
      List.dropWhile_append_of_pos hpass]
    simp
  rw [cutAtLast?, hspan]
  simp

theorem occursIn_iff_isInfix : occursIn needle cs = true ↔ needle <:+: cs := by
  constructor
  · intro h
    obtain ⟨⟨before, after⟩, hcut⟩ := Option.isSome_iff_exists.1 h
    exact ⟨before, after, append_of_cutAt? hcut⟩
  · induction cs with
    | nil =>
        intro h
        have hnil : needle = [] := List.infix_nil.1 h
        simp [occursIn, cutAt?, hnil]
    | cons c rest ih =>
        intro h
        unfold occursIn cutAt?
        cases hfront : stripFront? needle (c :: rest) with
        | some after => rfl
        | none =>
            have hrest : needle <:+: rest := by
              rcases List.infix_cons_iff.1 h with hhead | htail
              · exact absurd hhead (stripFront?_eq_none_iff.1 hfront)
              · exact htail
            have hsome : (cutAt? needle rest).isSome = true := ih hrest
            simpa using hsome

/-- A needle stands on one side of a character it does not hold. -/
theorem occursIn_append_cons {c : Char} (hc : c ∉ needle) (before after : List Char) :
    occursIn needle (before ++ c :: after) = (occursIn needle before || occursIn needle after) := by
  rw [Bool.eq_iff_iff, Bool.or_eq_true, occursIn_iff_isInfix, occursIn_iff_isInfix,
    occursIn_iff_isInfix]
  constructor
  · exact isInfix_append_cons hc
  · rintro (hbefore | hafter)
    · exact hbefore.trans ⟨[], c :: after, by simp⟩
    · exact hafter.trans ⟨before ++ [c], [], by simp⟩

theorem occursIn_eq_false {c : Char} (hc : c ∈ needle) (hcs : c ∉ cs) :
    occursIn needle cs = false := by
  rw [Bool.eq_false_iff, ne_eq, occursIn_iff_isInfix]
  exact fun hpart => hcs (hpart.subset hc)

/-- What holds no character of a needle adds no occurrence of it. -/
theorem occursIn_append_append (hfront : ∀ c ∈ front, c ∉ needle) (hback : ∀ c ∈ after, c ∉ needle)
    (cs : List Char) : occursIn needle (front ++ cs ++ after) = occursIn needle cs := by
  have hnil : ∀ part : List Char, (∀ c ∈ part, c ∉ needle) → needle <:+: part → needle = [] := by
    intro part hfree hpart
    rw [List.eq_nil_iff_forall_not_mem]
    exact fun c hc => hfree c (hpart.subset hc) hc
  have hleft : needle <:+: front ++ cs → needle <:+: cs := by
    intro h
    rcases List.eq_nil_or_concat front with rfl | ⟨rest, c, rfl⟩
    · exact h
    · rw [List.concat_eq_append, List.append_assoc] at h
      rcases isInfix_append_cons (hfront c (by simp)) h with hrest | hcs
      · rw [hnil rest (fun d hd => hfront d (by simp [hd])) hrest]
        exact List.nil_infix
      · exact hcs
  have hright : needle <:+: front ++ cs ++ after → needle <:+: front ++ cs := by
    intro h
    cases after with
    | nil => simpa using h
    | cons c rest =>
        rcases isInfix_append_cons (hback c (by simp)) h with hcs | hrest
        · exact hcs
        · rw [hnil rest (fun d hd => hback d (by simp [hd])) hrest]
          exact List.nil_infix
  rw [Bool.eq_iff_iff, occursIn_iff_isInfix, occursIn_iff_isInfix]
  exact ⟨fun h => hleft (hright h), fun h => h.trans ⟨front, after, rfl⟩⟩

/-- A text that a needle does not occur in is one piece. -/
theorem splitAllFrom_eq (h : ¬ needle <:+: cs) (piece : List Char) :
    splitAllFrom needle 0 piece cs = [piece.reverse ++ cs] := by
  induction cs generalizing piece with
  | nil => simp [splitAllFrom]
  | cons c rest ih =>
      have hhere : ¬ needle.isPrefixOf (c :: rest) = true :=
        fun hprefix => h (List.isPrefixOf_iff_prefix.1 hprefix).isInfix
      have hrest : ¬ needle <:+: rest :=
        fun hoccurs => h (hoccurs.trans (List.suffix_cons c rest).isInfix)
      rw [splitAllFrom, if_neg hhere]
      simpa using ih hrest (c :: piece)

theorem replaceSpans_eq_self {recognise : Recogniser}
    (h : ∀ tail, tail <:+ cs → recognise tail = none) : replaceSpans recognise cs = cs := by
  unfold replaceSpans
  induction cs with
  | nil => rfl
  | cons c rest ih =>
      have hrest : ∀ tail, tail <:+ rest → recognise tail = none :=
        fun tail htail => h tail (htail.trans (List.suffix_cons c rest))
      simp [replaceSpansFrom, h (c :: rest) List.suffix_rfl, ih hrest]

/-! ## Pieces between separators -/

section Separators

variable {between piece : List Char} {parts : List (List Char)} {c sep : Char}

theorem mem_intercalate_of_mem (hpart : piece ∈ parts) (hc : c ∈ piece) :
    c ∈ between.intercalate parts := by
  induction parts with
  | nil => simp at hpart
  | cons first rest ih =>
      cases rest with
      | nil => simp [List.mem_singleton.1 hpart ▸ hc]
      | cons next rest =>
          rw [List.intercalate_cons_cons]
          rcases List.mem_cons.1 hpart with rfl | hrest
          · simp [hc]
          · simp [ih hrest]

theorem mem_of_mem_intercalate (hc : c ∈ between.intercalate parts) :
    c ∈ between ∨ ∃ part ∈ parts, c ∈ part := by
  induction parts with
  | nil => simp at hc
  | cons first rest ih =>
      cases rest with
      | nil => exact .inr ⟨first, by simp, by simpa using hc⟩
      | cons next rest =>
          rw [List.intercalate_cons_cons, List.mem_append, List.mem_append] at hc
          rcases hc with (hfirst | hbetween) | hrest
          · exact .inr ⟨first, by simp, hfirst⟩
          · exact .inl hbetween
          · rcases ih hrest with hbetween | ⟨part, hpart, hmem⟩
            · exact .inl hbetween
            · exact .inr ⟨part, List.mem_cons_of_mem first hpart, hmem⟩

theorem not_mem_of_mem_splitOn (h : piece ∈ cs.splitOn sep) : sep ∉ piece := by
  induction cs generalizing piece with
  | nil => simp_all
  | cons c cs ih =>
      obtain ⟨first, rest, hcs⟩ := List.exists_cons_of_ne_nil (List.splitOn_ne_nil sep cs)
      rw [hcs, List.forall_mem_cons] at ih
      rw [List.splitOn_cons_eq_if_modifyHead, hcs] at h
      split at h
      next =>
        rcases List.mem_cons.1 h with rfl | hrest
        · exact List.not_mem_nil
        · exact (List.forall_mem_cons (p := (sep ∉ ·))).2 ih piece hrest
      next hother =>
        rw [List.modifyHead_cons, List.mem_cons] at h
        rcases h with rfl | hrest
        · have hc : c ≠ sep := by simpa using hother
          simp [ih.1, hc.symm]
        · exact ih.2 piece hrest

theorem mem_of_mem_splitOn (hpiece : piece ∈ cs.splitOn sep) (hc : c ∈ piece) : c ∈ cs := by
  have hwhole : [sep].intercalate (cs.splitOn sep) = cs := List.intercalate_splitOn sep
  rw [← hwhole]
  exact mem_intercalate_of_mem hpiece hc

end Separators

end BookRules.Text
