import BookRules.Proofs.Text.Cuttings

/-!
# Spans met from left to right

A pass over a text copies each character at which nothing is recognised and goes on behind
each span, so what it does to a text follows by induction along these two moves.  Where a
text has no part in what is recognised in front of it, a pass replaces the two parts one by
one.  Replacing every occurrence of a needle is a pass as well.
-/

namespace BookRules.Text

namespace Recogniser

/-- What is recognised in front of a text, and what is left of the text. -/
def Reads (recognise : Recogniser) (out cs after : List Char) : Prop :=
  recognise cs = some (out, after)

/-- A text has no part in what is recognised in front of it. -/
def EndsBefore (recognise : Recogniser) (back : List Char) : Prop :=
  ∀ front, recognise (front ++ back) =
    (recognise front).map fun found => (found.1, found.2 ++ back)

/-- Nothing is recognised at any place of a text. -/
def PassesOver (recognise : Recogniser) (cs : List Char) : Prop :=
  ∀ tail, tail <:+ cs → recognise tail = none

/-- What is recognised opens with a sign. -/
def OpensWith (recognise : Recogniser) (sign : Char) : Prop :=
  ∀ out cs after, recognise.Reads out cs after → ∃ rest, cs = sign :: rest ∧ after <:+ rest

/-- What is recognised stands between two signs. -/
def StandsIn (recognise : Recogniser) (opening closing : Char) : Prop :=
  ∀ out cs after, recognise.Reads out cs after →
    ∃ rest, cs = opening :: rest ∧ closing :: after <:+ rest

end Recogniser

variable {recognise : Recogniser} {cs front back rest out after : List Char}
  {c sign opening closing : Char}

theorem TakesOff.eq_none_nil (htakes : TakesOff recognise.Reads) : recognise [] = none := by
  rw [Option.eq_none_iff_forall_ne_some]
  rintro ⟨out, after⟩ hsome
  exact htakes.not_stands_nil hsome

theorem TakesOff.isSuffix (htakes : TakesOff recognise.Reads)
    (h : recognise (c :: rest) = some (out, after)) : after <:+ rest := by
  obtain ⟨d, more, hcons, hsuffix⟩ := htakes out (c :: rest) after h
  obtain ⟨-, rfl⟩ := List.cons.inj hcons
  exact hsuffix

namespace Recogniser

theorem passesOver_nil (htakes : TakesOff recognise.Reads) : recognise.PassesOver [] := by
  intro tail htail
  rw [List.suffix_nil.1 htail]
  exact htakes.eq_none_nil

theorem passesOver_cons_iff : recognise.PassesOver (c :: rest) ↔
    recognise (c :: rest) = none ∧ recognise.PassesOver rest := by
  constructor
  · intro h
    exact ⟨h (c :: rest) List.suffix_rfl,
      fun tail htail => h tail (htail.trans (List.suffix_cons c rest))⟩
  · rintro ⟨hhere, hlater⟩ tail htail
    rcases List.suffix_cons_iff.1 htail with rfl | htail
    · exact hhere
    · exact hlater tail htail

theorem OpensWith.takesOff (hopens : recognise.OpensWith sign) : TakesOff recognise.Reads := by
  intro out cs after hreads
  obtain ⟨rest, hcs, hsuffix⟩ := hopens out cs after hreads
  exact ⟨sign, rest, hcs, hsuffix⟩

theorem OpensWith.eq_none (hopens : recognise.OpensWith sign) (hc : c ≠ sign) (rest : List Char) :
    recognise (c :: rest) = none := by
  rw [Option.eq_none_iff_forall_ne_some]
  rintro ⟨out, after⟩ hsome
  obtain ⟨more, hcons, -⟩ := hopens out (c :: rest) after hsome
  exact hc (List.cons.inj hcons).1

theorem OpensWith.passesOver (hopens : recognise.OpensWith sign) (hcs : sign ∉ cs) :
    recognise.PassesOver cs := by
  induction cs with
  | nil => exact passesOver_nil hopens.takesOff
  | cons c rest ih =>
      rw [List.mem_cons, not_or] at hcs
      exact passesOver_cons_iff.2 ⟨hopens.eq_none (Ne.symm hcs.1) rest, ih hcs.2⟩

theorem OpensWith.passesOver_append (hopens : recognise.OpensWith sign) (hfront : sign ∉ front)
    (hback : recognise.PassesOver back) : recognise.PassesOver (front ++ back) := by
  induction front with
  | nil => exact hback
  | cons c rest ih =>
      rw [List.mem_cons, not_or] at hfront
      exact passesOver_cons_iff.2 ⟨hopens.eq_none (Ne.symm hfront.1) _, ih hfront.2⟩

theorem StandsIn.opensWith (hstands : recognise.StandsIn opening closing) :
    recognise.OpensWith opening := by
  intro out cs after hreads
  obtain ⟨rest, hcs, hsuffix⟩ := hstands out cs after hreads
  exact ⟨rest, hcs, (List.suffix_cons closing after).trans hsuffix⟩

/-- Without the closing sign nothing is recognised. -/
theorem StandsIn.passesOver (hstands : recognise.StandsIn opening closing) (hcs : closing ∉ cs) :
    recognise.PassesOver cs := by
  intro tail htail
  rw [Option.eq_none_iff_forall_ne_some]
  rintro ⟨out, after⟩ hsome
  obtain ⟨rest, rfl, hsuffix⟩ := hstands out tail after hsome
  have hmem : closing ∈ opening :: rest := List.mem_cons_of_mem _ (hsuffix.subset (by simp))
  exact hcs (htail.subset hmem)

end Recogniser

/-! ## The two moves of a pass -/

theorem replaceSpans_pass (h : recognise (c :: rest) = none) :
    replaceSpans recognise (c :: rest) = c :: replaceSpans recognise rest := by
  simp only [replaceSpans, replaceSpansFrom, h]

theorem replaceSpans_span (h : recognise (c :: rest) = some (out, after))
    (hsuffix : after <:+ rest) :
    replaceSpans recognise (c :: rest) = out ++ replaceSpans recognise after := by
  simp only [replaceSpans, replaceSpansFrom, h]
  rw [replaceSpansFrom_skip, drop_eq_of_isSuffix hsuffix]

theorem firstSpan?_pass (h : recognise (c :: rest) = none) :
    firstSpan? recognise (c :: rest) = firstSpan? recognise rest := by
  rw [firstSpan?, h]

theorem firstSpan?_span (h : recognise (c :: rest) = some (out, after)) :
    firstSpan? recognise (c :: rest) = some out := by
  rw [firstSpan?, h]

/-- Along the moves of a pass. -/
theorem TakesOff.induction (htakes : TakesOff recognise.Reads) {motive : List Char → Prop}
    (nil : motive [])
    (pass : ∀ c rest, recognise (c :: rest) = none → motive rest → motive (c :: rest))
    (span : ∀ c rest out after, recognise (c :: rest) = some (out, after) → after <:+ rest →
      motive after → motive (c :: rest))
    (cs : List Char) : motive cs := by
  induction hlength : cs.length using Nat.strongRecOn generalizing cs with
  | ind length ih =>
      subst hlength
      cases cs with
      | nil => exact nil
      | cons c rest =>
          cases hhere : recognise (c :: rest) with
          | none => exact pass c rest hhere (ih rest.length (by simp) rest rfl)
          | some found =>
              obtain ⟨out, after⟩ := found
              have hsuffix := htakes.isSuffix hhere
              have hshort : after.length < (c :: rest).length :=
                Nat.lt_succ_of_le hsuffix.length_le
              exact span c rest out after hhere hsuffix (ih after.length hshort after rfl)

/-- Spans that are replaced by nothing leave a part of the text. -/
theorem replaceSpans_sublist (htakes : TakesOff recognise.Reads)
    (hnil : ∀ out cs after, recognise.Reads out cs after → out = []) (cs : List Char) :
    (replaceSpans recognise cs).Sublist cs := by
  induction cs using htakes.induction with
  | nil => exact List.Sublist.refl []
  | pass c rest hhere ih =>
      rw [replaceSpans_pass hhere]
      exact ih.cons_cons c
  | span c rest out after hhere hsuffix ih =>
      rw [replaceSpans_span hhere hsuffix, hnil out (c :: rest) after hhere, List.nil_append]
      exact (ih.trans hsuffix.sublist).cons c

theorem firstSpan?_eq_none_iff (htakes : TakesOff recognise.Reads) :
    firstSpan? recognise cs = none ↔ recognise.PassesOver cs := by
  induction cs with
  | nil => exact iff_of_true rfl (Recogniser.passesOver_nil htakes)
  | cons c rest ih =>
      rw [Recogniser.passesOver_cons_iff]
      cases hhere : recognise (c :: rest) with
      | none => rw [firstSpan?_pass hhere, ih, eq_self, true_and]
      | some found => simp [firstSpan?, hhere]

/-! ## Two parts of a text -/

theorem Recogniser.EndsBefore.eq_none (hends : recognise.EndsBefore back)
    (h : recognise front = none) : recognise (front ++ back) = none := by
  rw [hends front, h, Option.map_none]

theorem Recogniser.EndsBefore.eq_some (hends : recognise.EndsBefore back)
    (h : recognise front = some (out, after)) :
    recognise (front ++ back) = some (out, after ++ back) := by
  rw [hends front, h, Option.map_some]

theorem replaceSpans_append (htakes : TakesOff recognise.Reads)
    (hends : recognise.EndsBefore back) (front : List Char) :
    replaceSpans recognise (front ++ back) =
      replaceSpans recognise front ++ replaceSpans recognise back := by
  induction front using htakes.induction with
  | nil => rfl
  | pass c rest hhere ih =>
      have hlonger : recognise (c :: (rest ++ back)) = none := hends.eq_none hhere
      rw [replaceSpans_pass hhere, List.cons_append, replaceSpans_pass hlonger, ih,
        List.cons_append]
  | span c rest out after hhere hsuffix ih =>
      have hlonger : recognise (c :: (rest ++ back)) = some (out, after ++ back) :=
        hends.eq_some hhere
      have hsuffix' : after ++ back <:+ rest ++ back := List.suffix_append_self_iff.2 hsuffix
      rw [replaceSpans_span hhere hsuffix, List.cons_append, replaceSpans_span hlonger hsuffix', ih,
        List.append_assoc]

theorem firstSpan?_append (hends : recognise.EndsBefore back) (front : List Char) :
    firstSpan? recognise (front ++ back) =
      (firstSpan? recognise front).or (firstSpan? recognise back) := by
  induction front with
  | nil => rfl
  | cons c rest ih =>
      cases hhere : recognise (c :: rest) with
      | none =>
          have hlonger : recognise (c :: (rest ++ back)) = none := hends.eq_none hhere
          rw [firstSpan?_pass hhere, List.cons_append, firstSpan?_pass hlonger, ih]
      | some found =>
          obtain ⟨out, after⟩ := found
          have hlonger : recognise (c :: (rest ++ back)) = some (out, after ++ back) :=
            hends.eq_some hhere
          rw [firstSpan?_span hhere, List.cons_append, firstSpan?_span hlonger, Option.some_or]

/-! ## Spans that lose a sign -/

/-- Every replacement has fewer signs than its span. -/
def Recogniser.Loses (recognise : Recogniser) (sign : Char → Bool) : Prop :=
  ∀ out cs after, recognise.Reads out cs after →
    out.countP sign + after.countP sign < cs.countP sign

theorem passesOver_or_countP_lt {sign : Char → Bool} (htakes : TakesOff recognise.Reads)
    (hloses : recognise.Loses sign) (cs : List Char) :
    recognise.PassesOver cs ∨ (replaceSpans recognise cs).countP sign < cs.countP sign := by
  induction cs using htakes.induction with
  | nil => exact Or.inl (Recogniser.passesOver_nil htakes)
  | pass c rest hhere ih =>
      rcases ih with hpasses | hlt
      · exact Or.inl (Recogniser.passesOver_cons_iff.2 ⟨hhere, hpasses⟩)
      · rw [replaceSpans_pass hhere, List.countP_cons, List.countP_cons]
        exact Or.inr (Nat.add_lt_add_right hlt _)
  | span c rest out after hhere hsuffix ih =>
      have hspan := hloses out (c :: rest) after hhere
      have hafter : (replaceSpans recognise after).countP sign ≤ after.countP sign := by
        rcases ih with hpasses | hlt
        · rw [replaceSpans_eq_self hpasses]
        · exact hlt.le
      rw [replaceSpans_span hhere hsuffix, List.countP_append]
      exact Or.inr (by omega)

/-- Passes for several recognisers, one after the other. -/
def passAll (tests : List Recogniser) (cs : List Char) : List Char :=
  tests.foldl (fun cs test => replaceSpans test cs) cs

theorem passAll_cons (test : Recogniser) (tests : List Recogniser) (cs : List Char) :
    passAll (test :: tests) cs = passAll tests (replaceSpans test cs) :=
  rfl

theorem passAll_eq_self {tests : List Recogniser} (h : ∀ test ∈ tests, test.PassesOver cs) :
    passAll tests cs = cs := by
  induction tests with
  | nil => rfl
  | cons test tests ih =>
      rw [List.forall_mem_cons] at h
      rw [passAll_cons, replaceSpans_eq_self h.1, ih h.2]

section Loses

variable {sign : Char → Bool} {tests : List Recogniser}
  (htests : ∀ test ∈ tests, TakesOff test.Reads ∧ test.Loses sign)

include htests

theorem passesOver_or_countP_passAll_lt (cs : List Char) :
    (∀ test ∈ tests, test.PassesOver cs) ∨
      (passAll tests cs).countP sign < cs.countP sign := by
  induction tests generalizing cs with
  | nil => simp
  | cons test tests ih =>
      rw [List.forall_mem_cons] at htests
      obtain ⟨⟨htakes, hloses⟩, hmore⟩ := htests
      have hlater := ih hmore (replaceSpans test cs)
      rw [passAll_cons]
      rcases passesOver_or_countP_lt htakes hloses cs with hpasses | hlt
      · rw [replaceSpans_eq_self hpasses] at hlater ⊢
        exact hlater.imp_left fun hall => List.forall_mem_cons.2 ⟨hpasses, hall⟩
      · rcases hlater with hall | hless
        · exact Or.inr (by rwa [passAll_eq_self hall])
        · exact Or.inr (hless.trans hlt)

/-- Passes change a text exactly where one of them finds a span in it. -/
theorem passAll_eq_self_iff :
    passAll tests cs = cs ↔ ∀ test ∈ tests, test.PassesOver cs := by
  constructor
  · intro hself
    rcases passesOver_or_countP_passAll_lt htests cs with hall | hlt
    · exact hall
    · rw [hself] at hlt
      exact absurd hlt (Nat.lt_irrefl _)
  · exact passAll_eq_self

end Loses

/-! ## A front without the sign -/

namespace Recogniser.OpensWith

variable (hopens : recognise.OpensWith sign) (hfront : sign ∉ front)

include hopens hfront

theorem replaceSpans_append (back : List Char) :
    replaceSpans recognise (front ++ back) = front ++ replaceSpans recognise back := by
  induction front with
  | nil => rfl
  | cons c rest ih =>
      rw [List.mem_cons, not_or] at hfront
      have hhere : recognise (c :: (rest ++ back)) = none := hopens.eq_none (Ne.symm hfront.1) _
      rw [List.cons_append, replaceSpans_pass hhere, ih hfront.2, List.cons_append]

theorem firstSpan?_append (back : List Char) :
    firstSpan? recognise (front ++ back) = firstSpan? recognise back := by
  induction front with
  | nil => rfl
  | cons c rest ih =>
      rw [List.mem_cons, not_or] at hfront
      have hhere : recognise (c :: (rest ++ back)) = none := hopens.eq_none (Ne.symm hfront.1) _
      rw [List.cons_append, firstSpan?_pass hhere, ih hfront.2]

end Recogniser.OpensWith

/-- A front without the sign that every replacement begins with was there before. -/
theorem isPrefix_of_isPrefix_replaceSpans (htakes : TakesOff recognise.Reads)
    (hout : ∀ out cs after, recognise.Reads out cs after → ∃ more, out = sign :: more)
    (hfront : sign ∉ front) (h : front <+: replaceSpans recognise cs) : front <+: cs := by
  induction cs using htakes.induction generalizing front with
  | nil => exact h
  | pass c rest hhere ih =>
      rw [replaceSpans_pass hhere] at h
      cases front with
      | nil => exact List.nil_prefix
      | cons d front =>
          obtain ⟨rfl, hrest⟩ := List.cons_prefix_cons.1 h
          rw [List.mem_cons, not_or] at hfront
          exact List.cons_prefix_cons.2 ⟨rfl, ih hfront.2 hrest⟩
  | span c rest out after hhere hsuffix ih =>
      obtain ⟨more, rfl⟩ := hout out (c :: rest) after hhere
      rw [replaceSpans_span hhere hsuffix] at h
      cases front with
      | nil => exact List.nil_prefix
      | cons d front =>
          obtain ⟨rfl, -⟩ := List.cons_prefix_cons.1 h
          exact absurd List.mem_cons_self hfront

/-! ## A needle that is replaced -/

section Needle

variable {needle word : List Char}

/-- A needle with what is put in its place. -/
def needleSpan (needle out : List Char) : Recogniser :=
  fun cs => (stripFront? needle cs).map fun after => (out, after)

theorem needleSpan_eq_some_iff {found : List Char} :
    needleSpan needle out cs = some (found, after) ↔ needle ++ after = cs ∧ found = out := by
  constructor
  · intro h
    obtain ⟨behind, hbehind, hpair⟩ := Option.map_eq_some_iff.1 h
    obtain ⟨rfl, rfl⟩ := Prod.mk.inj hpair
    exact ⟨stripFront?_eq_some_iff.1 hbehind, rfl⟩
  · rintro ⟨hcs, rfl⟩
    rw [needleSpan, stripFront?_eq_some_iff.2 hcs, Option.map_some]

theorem needleSpan_eq_none_iff : needleSpan needle out cs = none ↔ ¬ needle <+: cs := by
  rw [needleSpan, Option.map_eq_none_iff, stripFront?_eq_none_iff]

theorem opensWith_needleSpan (sign : Char) (word out : List Char) :
    (needleSpan (sign :: word) out).OpensWith sign := by
  intro found cs after hreads
  obtain ⟨rfl, -⟩ := needleSpan_eq_some_iff.1 hreads
  exact ⟨word ++ after, rfl, List.suffix_append word after⟩

theorem replaceAll_eq_replaceSpans (hneedle : needle ≠ []) (out cs : List Char) :
    replaceAll needle out cs = replaceSpans (needleSpan needle out) cs := by
  obtain ⟨cutting, hcuts⟩ := exists_cuts (takesOff_occurs hneedle) cs
  rw [replaceAll_eq_fill hneedle out hcuts]
  refine (hcuts.replaceSpans_eq (takesOff_occurs hneedle) fun cs found after => ?_).symm
  rw [needleSpan_eq_some_iff]
  simp [Occurs]

theorem replaceAll_nil (sign : Char) (word out : List Char) :
    replaceAll (sign :: word) out [] = [] :=
  rfl

theorem replaceAll_needle_append (cs : List Char) :
    replaceAll (sign :: word) out (sign :: word ++ cs) =
      out ++ replaceAll (sign :: word) out cs := by
  have hread : needleSpan (sign :: word) out (sign :: (word ++ cs)) = some (out, cs) :=
    needleSpan_eq_some_iff.2 ⟨rfl, rfl⟩
  rw [replaceAll_eq_replaceSpans (by simp), replaceAll_eq_replaceSpans (by simp), List.cons_append,
    replaceSpans_span hread (List.suffix_append word cs)]

theorem replaceAll_cons (h : ¬ sign :: word <+: c :: rest) :
    replaceAll (sign :: word) out (c :: rest) = c :: replaceAll (sign :: word) out rest := by
  rw [replaceAll_eq_replaceSpans (by simp), replaceAll_eq_replaceSpans (by simp),
    replaceSpans_pass (needleSpan_eq_none_iff.2 h)]

theorem replaceAll_append (hfront : sign ∉ front) (back : List Char) :
    replaceAll (sign :: word) out (front ++ back) =
      front ++ replaceAll (sign :: word) out back := by
  rw [replaceAll_eq_replaceSpans (by simp), replaceAll_eq_replaceSpans (by simp),
    (opensWith_needleSpan sign word out).replaceSpans_append hfront]

theorem isPrefix_of_isPrefix_replaceAll (hc : c ∉ front)
    (h : front <+: replaceAll (sign :: word) [c] cs) : front <+: cs := by
  rw [replaceAll_eq_replaceSpans (by simp)] at h
  refine isPrefix_of_isPrefix_replaceSpans (opensWith_needleSpan sign word [c]).takesOff
    (fun found cs after hreads => ⟨[], ?_⟩) hc h
  exact (needleSpan_eq_some_iff.1 hreads).2

end Needle

end BookRules.Text
