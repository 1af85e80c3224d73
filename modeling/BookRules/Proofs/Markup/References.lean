import BookRules.Markup.Paragraphs
import BookRules.Proofs.Text.Spans

/-!
# Character references

The references in the text of a chapter are replaced name by name, each time all over the text
that the names before it have left.  One pass over the text as it is written, from left to
right, comes to the same: a name runs from an ampersand to a semicolon and holds neither in
between, so no two names overlap, and where one is replaced no occurrence of a later name is
made or lost unless the character that is put in belongs to that name.  This happens for the
ampersand alone, and its name comes last.

So a reference to an ampersand is not read together with what follows it, and a text whose
special characters were written as references is given back.
-/

namespace BookRules.Markup.Paragraphs

/-- The character references, with what they stand for. -/
inductive IsReference : String → Char → Prop
  | space : IsReference "&nbsp;" ' '
  | less : IsReference "&lt;" '<'
  | greater : IsReference "&gt;" '>'
  | quote : IsReference "&quot;" '"'
  | apostropheNumber : IsReference "&#39;" '\''
  | apostrophe : IsReference "&apos;" '\''
  | ampersand : IsReference "&amp;" '&'

/-- What one pass over a text makes of it.  It never looks at what it has written. -/
inductive Decodes (isReference : String → Char → Prop) : List Char → List Char → Prop
  | nil : Decodes isReference [] []
  /-- The pass goes on behind the reference. -/
  | reference {name : String} {c : Char} {after out : List Char} (hname : isReference name c)
      (hrest : Decodes isReference after out) :
      Decodes isReference (name.toList ++ after) (c :: out)
  /-- No reference stands here. -/
  | other {c : Char} {rest out : List Char}
      (hnone : ∀ name d, isReference name d → ¬ name.toList <+: c :: rest)
      (hrest : Decodes isReference rest out) : Decodes isReference (c :: rest) (c :: out)

/-- Markup for a text in which no special character stands as it is. -/
inductive Escapes (special : List Char) : List Char → List Char → Prop
  | nil : Escapes special [] []
  | reference {name : String} {c : Char} {text markup : List Char} (hname : IsReference name c)
      (hrest : Escapes special text markup) :
      Escapes special (c :: text) (name.toList ++ markup)
  | plain {c : Char} {text markup : List Char} (hc : c ∉ special)
      (hrest : Escapes special text markup) : Escapes special (c :: text) (c :: markup)

variable {cs out after text markup special name other : List Char} {c : Char}
  {refs : List (String × Char)}

/-! ## Names -/

/-- An ampersand, a semicolon and what stands between them. -/
def IsName (name : List Char) : Prop :=
  ∃ inside, name = '&' :: inside ++ [';'] ∧ '&' ∉ inside ∧ ';' ∉ inside

theorem IsName.exists_cons (h : IsName name) : ∃ rest, name = '&' :: rest ∧ '&' ∉ rest := by
  obtain ⟨inside, rfl, hsign, -⟩ := h
  exact ⟨inside ++ [';'], rfl, by simp [hsign]⟩

/-- The semicolon ends a name. -/
theorem IsName.eq_of_isPrefix (hname : IsName name) (hother : IsName other)
    (h : name <+: other) : name = other := by
  have hclosing : ';' ∈ name := by
    obtain ⟨inside, rfl, -⟩ := hname
    simp
  obtain ⟨inside, rfl, -, hfree⟩ := hother
  rcases List.prefix_concat_iff.1 h with heq | hshort
  · exact heq
  · exact absurd (hshort.subset hclosing) (by simp [hfree])

theorem IsName.eq_of_isPrefix_append (hname : IsName name) (hother : IsName other)
    (h : name <+: other ++ after) : name = other := by
  rcases List.prefix_or_prefix_of_prefix h (List.prefix_append other after) with hshort | hlong
  · exact hname.eq_of_isPrefix hother hshort
  · exact (hother.eq_of_isPrefix hname hlong).symm

theorem IsName.not_isPrefix_cons {rest : List Char} (hname : IsName name) (hc : c ∉ name) :
    ¬ name <+: c :: rest := by
  obtain ⟨inside, rfl, -⟩ := hname
  intro h
  obtain ⟨rfl, -⟩ := List.cons_prefix_cons.1 h
  exact hc List.mem_cons_self

theorem IsName.replaceAll_append (hname : IsName name) (hother : IsName other)
    (hne : name ≠ other) (c : Char) (after : List Char) :
    Text.replaceAll name [c] (other ++ after) = other ++ Text.replaceAll name [c] after := by
  have hfront : ¬ name <+: other ++ after := fun h => hne (hname.eq_of_isPrefix_append hother h)
  obtain ⟨word, rfl, -⟩ := hname.exists_cons
  obtain ⟨rest, rfl, hrest⟩ := hother.exists_cons
  rw [List.cons_append] at hfront ⊢
  rw [Text.replaceAll_cons hfront, Text.replaceAll_append hrest, List.cons_append]

/-- Names that can be replaced one after the other: what is put in for one belongs to none of
those that come later. -/
structure InTurn (refs : List (String × Char)) : Prop where
  isName : ∀ r ∈ refs, IsName r.1.toList
  apart : refs.Pairwise fun r s => r.1.toList ≠ s.1.toList ∧ r.2 ∉ s.1.toList

theorem InTurn.tail {r : String × Char} (h : InTurn (r :: refs)) : InTurn refs where
  isName := fun s hs => h.isName s (List.mem_cons_of_mem r hs)
  apart := h.apart.of_cons

/-! ## One name after the other -/

/-- The references of a list. -/
def Listed (refs : List (String × Char)) (name : String) (c : Char) : Prop :=
  (name, c) ∈ refs

/-- When one name has been replaced, one pass for the others is left. -/
theorem Decodes.replaceAll {r : String × Char} (hrefs : InTurn (r :: refs))
    (h : Decodes (Listed (r :: refs)) cs out) :
    Decodes (Listed refs) (Text.replaceAll r.1.toList [r.2] cs) out := by
  have hname : IsName r.1.toList := hrefs.isName r List.mem_cons_self
  have hlater := (List.pairwise_cons.1 hrefs.apart).1
  obtain ⟨word, hword, -⟩ := hname.exists_cons
  have hfree : ∀ name d, Listed refs name d → r.2 ∉ name.toList :=
    fun name d hmem => (hlater (name, d) hmem).2
  -- a move of the pass for all the names is a move of the pass for the others, over what the
  -- replacement makes of the text
  induction h with
  | nil =>
      rw [hword, Text.replaceAll_nil]
      exact .nil
  | @reference name c after out hmem hrest ih =>
      rcases List.mem_cons.1 hmem with rfl | hmem
      · -- the character that is put in begins none of the other names
        rw [hword, Text.replaceAll_needle_append, ← hword]
        exact .other (fun other d hother =>
          (hrefs.tail.isName (other, d) hother).not_isPrefix_cons (hfree other d hother)) ih
      · rw [hname.replaceAll_append (hrefs.tail.isName _ hmem) (hlater _ hmem).1]
        exact .reference hmem ih
  | @other c rest out hnone hrest ih =>
      have hhere : ¬ '&' :: word <+: c :: rest := hword ▸ hnone r.1 r.2 List.mem_cons_self
      have hpass : Text.replaceAll r.1.toList [r.2] (c :: rest) =
          c :: Text.replaceAll r.1.toList [r.2] rest := by
        rw [hword, Text.replaceAll_cons hhere]
      rw [hpass]
      refine .other (fun name d hmem hfront => ?_) ih
      rw [← hpass, hword] at hfront
      exact hnone name d (List.mem_cons_of_mem r hmem)
        (Text.isPrefix_of_isPrefix_replaceAll (hfree name d hmem) hfront)

theorem Decodes.foldl_replaceAll (hrefs : InTurn refs) (h : Decodes (Listed refs) cs out) :
    refs.foldl (fun cs (name, c) => Text.replaceAll name.toList [c] cs) cs = out := by
  induction refs generalizing cs with
  | nil =>
      induction h with
      | nil => rfl
      | reference hmem => exact absurd hmem List.not_mem_nil
      | other _ _ ih => exact congrArg _ ih
  | cons r refs ih => exact ih hrefs.tail (h.replaceAll hrefs)

/-! ## The references of chapters -/

theorem inTurn_references : InTurn references where
  isName := by
    intro r hr
    simp only [references, List.mem_cons, List.not_mem_nil, or_false] at hr
    rcases hr with rfl | rfl | rfl | rfl | rfl | rfl | rfl
    · exact ⟨"nbsp".toList, by decide⟩
    · exact ⟨"lt".toList, by decide⟩
    · exact ⟨"gt".toList, by decide⟩
    · exact ⟨"quot".toList, by decide⟩
    · exact ⟨"#39".toList, by decide⟩
    · exact ⟨"apos".toList, by decide⟩
    · exact ⟨"amp".toList, by decide⟩
  apart := by decide

theorem isReference_eq_listed : IsReference = Listed references := by
  funext name c
  apply propext
  constructor
  · intro h
    cases h <;> simp [Listed, references]
  · intro h
    simp only [Listed, references, List.mem_cons, Prod.mk.injEq, List.not_mem_nil, or_false] at h
    rcases h with ⟨rfl, rfl⟩ | ⟨rfl, rfl⟩ | ⟨rfl, rfl⟩ | ⟨rfl, rfl⟩ | ⟨rfl, rfl⟩ | ⟨rfl, rfl⟩ |
      ⟨rfl, rfl⟩ <;> constructor

theorem IsReference.isName {name : String} (h : IsReference name c) : IsName name.toList := by
  rw [isReference_eq_listed] at h
  exact inTurn_references.isName (name, c) h

theorem Decodes.decode_eq (h : Decodes IsReference cs out) : decode cs = out := by
  rw [isReference_eq_listed] at h
  exact h.foldl_replaceAll inTurn_references

theorem exists_decodes (cs : List Char) : ∃ out, Decodes IsReference cs out := by
  induction hlength : cs.length using Nat.strongRecOn generalizing cs with
  | ind length ih =>
      by_cases hhere : ∃ name c, IsReference name c ∧ name.toList <+: cs
      · obtain ⟨name, c, hname, after, rfl⟩ := hhere
        obtain ⟨word, hword, -⟩ := hname.isName.exists_cons
        have hshort : after.length < length := by
          rw [← hlength, hword]
          simp only [List.length_append, List.length_cons]
          omega
        obtain ⟨out, hrest⟩ := ih after.length hshort after rfl
        exact ⟨c :: out, .reference hname hrest⟩
      · cases cs with
        | nil => exact ⟨[], .nil⟩
        | cons c rest =>
            obtain ⟨out, hrest⟩ := ih rest.length (by simp [← hlength]) rest rfl
            exact ⟨c :: out,
              .other (fun name d hname hfront => hhere ⟨name, d, hname, hfront⟩) hrest⟩

theorem decodes_iff : Decodes IsReference cs out ↔ out = decode cs := by
  constructor
  · exact fun h => h.decode_eq.symm
  · intro hout
    obtain ⟨decoded, h⟩ := exists_decodes cs
    rw [hout, h.decode_eq]
    exact h

/-! ## Escaped texts -/

theorem Escapes.decodes (hspecial : '&' ∈ special) (h : Escapes special text markup) :
    Decodes IsReference markup text := by
  induction h with
  | nil => exact .nil
  | reference hname _ ih => exact .reference hname ih
  | @plain c _ _ hc _ ih =>
      refine .other (fun name d hname hfront => ?_) ih
      obtain ⟨word, hword, -⟩ := hname.isName.exists_cons
      rw [hword] at hfront
      obtain ⟨rfl, -⟩ := List.cons_prefix_cons.1 hfront
      exact hc hspecial

theorem exists_escapes (text : List Char) :
    ∃ markup, Escapes ['&', '<', '>', '"', '\''] text markup := by
  induction text with
  | nil => exact ⟨[], .nil⟩
  | cons c text ih =>
      obtain ⟨markup, hrest⟩ := ih
      by_cases hc : c ∈ ['&', '<', '>', '"', '\'']
      · simp only [List.mem_cons, List.not_mem_nil, or_false] at hc
        rcases hc with rfl | rfl | rfl | rfl | rfl
        · exact ⟨_, .reference .ampersand hrest⟩
        · exact ⟨_, .reference .less hrest⟩
        · exact ⟨_, .reference .greater hrest⟩
        · exact ⟨_, .reference .quote hrest⟩
        · exact ⟨_, .reference .apostrophe hrest⟩
      · exact ⟨c :: markup, .plain hc hrest⟩

/-- The references are replaced as by one pass over the text, and a text with its ampersands,
angle brackets and quotes written as references, each of them in any way there is, is given
back. -/
theorem decode_in_one_pass (cs : List Char) :
    (∀ out, Decodes IsReference cs out ↔ out = decode cs) ∧
      (∃ markup, Escapes ['&', '<', '>', '"', '\''] cs markup) ∧
      ∀ markup, Escapes ['&', '<', '>', '"', '\''] cs markup → decode markup = cs := by
  refine ⟨fun out => decodes_iff, exists_escapes cs, fun markup h => ?_⟩
  have hdecodes : Decodes IsReference markup cs := h.decodes List.mem_cons_self
  exact hdecodes.decode_eq

/-- A reference between apostrophes, escaped once more: the two apostrophes are written in two
ways. -/
theorem decode_in_one_pass_escaped_reference :
    Escapes ['&', '<', '>', '"', '\''] "'&lt;'".toList "&#39;&amp;lt;&apos;".toList ∧
      decode "&#39;&amp;lt;&apos;".toList = "'&lt;'".toList ∧
      Decodes IsReference "'&lt;'".toList "'<'".toList := by
  have hescapes :
      Escapes ['&', '<', '>', '"', '\''] "'&lt;'".toList "&#39;&amp;lt;&apos;".toList :=
    .reference .apostropheNumber <| .reference .ampersand <| .plain (by decide) <|
      .plain (by decide) <| .plain (by decide) <| .reference .apostrophe .nil
  obtain ⟨hpass, -, hback⟩ := decode_in_one_pass "'&lt;'".toList
  exact ⟨hescapes, hback _ hescapes, (hpass _).2 (by decide)⟩

end BookRules.Markup.Paragraphs
