import BookRules.Proofs.Rule.Templates
import Mathlib.Data.List.Chain
import Mathlib.Data.List.Forall2

/-!
# The segments of a stage

A text is cut at its placeholders, and what stands in front of the first `##` outside them is
cut at its references to groups.  The segments of the text are the pieces in order: each stands
for a stretch of the text, no literal is empty, and no two literals stand side by side.

What stands in front of the first `##` decides the mode.  The scan finds the first place where
a hole stands, so it is enough to look for a hole with no `##` in front of it.
-/

namespace BookRules.Rule

open Text (Cutting Cuts IsGap)

namespace Hole

variable {hole : Hole} {cs after back gap : List Char}

def IsGroup (hole : Hole) : Prop :=
  ∃ digits, hole = .group digits

/-- A placeholder in braces. -/
def Placed (hole : Hole) (cs after : List Char) : Prop :=
  Stands hole cs after ∧ ¬ hole.IsGroup

/-- A reference to a group. -/
def Refers (hole : Hole) (cs after : List Char) : Prop :=
  Stands hole cs after ∧ hole.IsGroup

theorem takesOff_placed : Text.TakesOff Placed :=
  fun hole cs after h => takesOff_stands hole cs after h.1

theorem takesOff_refers : Text.TakesOff Refers :=
  fun hole cs after h => takesOff_stands hole cs after h.1

theorem noDecimal_nil : NoDecimal [] := by
  simp [NoDecimal]

theorem IsNumber.alone {digits : List Char} (h : IsNumber digits after) : IsNumber digits [] :=
  ⟨h.1, h.2.imp_right fun hone => ⟨hone.1, noDecimal_nil⟩⟩

theorem Stands.exists_span (h : Stands hole cs after) :
    ∃ span, span ++ after = cs ∧ Stands hole span [] := by
  cases h with
  | @lookup mark name _ hmark hname hclosed =>
      exact ⟨mark ++ (name ++ ['\x7d']), by simp, .lookup hmark hname hclosed⟩
  | @braces body _ _ hbody =>
      obtain ⟨rfl, hfirst⟩ := hbody
      exact ⟨'\x7b' :: '\x7b' :: body ++ ['\x7d', '\x7d'], by simp, .braces ⟨rfl, hfirst⟩⟩
  | @group digits _ hnumber =>
      refine ⟨'$' :: digits, rfl, ?_⟩
      simpa using Stands.group hnumber.alone

theorem noDecimal_sharp (cs : List Char) : NoDecimal ('#' :: cs) := by
  intro c hc
  obtain rfl : '#' = c := by simpa using hc
  rw [Unicode.isDecimal_eq_isDigit (by decide)]
  decide

theorem Refers.append (h : Refers hole cs after) (hback : NoDecimal back) :
    Refers hole (cs ++ back) (after ++ back) := by
  obtain ⟨hstands, digits, rfl⟩ := h
  exact ⟨hstands.group_append hback, digits, rfl⟩

theorem Refers.exists_cons (h : Refers hole cs after) : ∃ c rest, cs = c :: rest ∧ c ≠ '#' := by
  obtain ⟨hstands, digits, rfl⟩ := h
  obtain ⟨rest, rfl⟩ := hstands.exists_cons
  exact ⟨'$', rest, rfl, by decide⟩

/-- A reference ends in front of what begins with no digit. -/
theorem Refers.of_append (h : Refers hole (cs ++ back) after) (hne : cs ≠ [])
    (hback : NoDecimal back) : ∃ after, Refers hole cs after := by
  obtain ⟨hstands, digits, rfl⟩ := h
  obtain ⟨c, rest, rfl⟩ := List.exists_cons_of_ne_nil hne
  generalize htext : c :: rest ++ back = text at hstands
  cases hstands with
  | group hnumber =>
      obtain ⟨rfl, hrest⟩ := List.cons.inj htext
      rcases List.append_eq_append_iff.1 hrest with ⟨more, rfl, rfl⟩ | ⟨more, rfl, rfl⟩
      · cases more with
        | nil =>
            rw [List.append_nil] at hnumber ⊢
            have hstands := Stands.group hnumber.alone
            exact ⟨[], by simpa using hstands, rest, rfl⟩
        | cons d more =>
            have hdigit := isDecimal_of_isDigit (hnumber.1 d (by simp))
            rw [hback d rfl] at hdigit
            cases hdigit
      · exact ⟨more, .group ⟨hnumber.1, hnumber.2.imp_right fun hone =>
          ⟨hone.1, hone.2.of_append⟩⟩, digits, rfl⟩

end Hole

namespace Segment

open Hole (Stands Placed Refers NoDecimal)

variable {segment : Segment} {segments joined more : List Segment} {hole : Hole}
variable {cs after back gap text : List Char} {template : Cutting Hole}

/-! ## What segments stand for -/

/-- What a segment stands for: a literal for its text, another segment for a hole that is read
as the segment. -/
def IsWritten : Segment → List Char → Prop
  | .literal text, span => span = text.toList
  | segment, span => ∃ hole, Stands hole span [] ∧ hole.segment = segment

/-- A text is made up of one stretch for each segment. -/
def Spell (segments : List Segment) (text : List Char) : Prop :=
  ∃ spans, List.Forall₂ IsWritten segments spans ∧ spans.flatten = text

theorem isWritten_segment (h : Stands hole cs []) : hole.segment.IsWritten cs := by
  have hhole := hole.isLiteral_segment
  unfold IsWritten
  split
  next hsegment => simp [hsegment, isLiteral] at hhole
  next => exact ⟨hole, h, rfl⟩

theorem spell_nil : Spell [] [] :=
  ⟨[], .nil, rfl⟩

theorem spell_cons_iff : Spell (segment :: segments) text ↔
    ∃ span rest, segment.IsWritten span ∧ Spell segments rest ∧ span ++ rest = text := by
  constructor
  · rintro ⟨spans, hspans, rfl⟩
    cases hspans with
    | @cons _ span _ spans hspan hmore => exact ⟨span, _, hspan, ⟨spans, hmore, rfl⟩, rfl⟩
  · rintro ⟨span, rest, hspan, ⟨spans, hspans, rfl⟩, rfl⟩
    exact ⟨span :: spans, .cons hspan hspans, rfl⟩

theorem Spell.append (h : Spell segments cs) (hmore : Spell more back) :
    Spell (segments ++ more) (cs ++ back) := by
  induction segments generalizing cs with
  | nil =>
      obtain ⟨_, ⟨⟩, rfl⟩ := h
      exact hmore
  | cons segment segments ih =>
      obtain ⟨span, rest, hspan, hrest, rfl⟩ := spell_cons_iff.1 h
      exact spell_cons_iff.2 ⟨span, rest ++ back, hspan, ih hrest, by simp⟩

theorem spell_ofText (text : List Char) : Spell (ofText text) text := by
  unfold ofText
  split
  next hnil =>
    rw [List.isEmpty_iff.1 hnil]
    exact spell_nil
  next => exact spell_cons_iff.2 ⟨text, [], by simp [IsWritten], spell_nil, by simp⟩

theorem Spell.cons_hole (hhole : Stands hole cs after) (h : Spell segments after) :
    Spell (hole.segment :: segments) cs := by
  obtain ⟨span, rfl, hspan⟩ := hhole.exists_span
  exact spell_cons_iff.2 ⟨span, after, isWritten_segment hspan, h, rfl⟩

theorem Spell.isInfix_of_mem (h : Spell segments cs) {a : String} (hmem : .literal a ∈ segments) :
    a.toList <:+: cs := by
  induction segments generalizing cs with
  | nil => simp at hmem
  | cons segment segments ih =>
      obtain ⟨span, rest, hspan, hrest, rfl⟩ := spell_cons_iff.1 h
      rcases List.mem_cons.1 hmem with rfl | hmem
      · obtain rfl : span = a.toList := hspan
        exact (List.prefix_append _ rest).isInfix
      · exact (ih hrest hmem).trans (List.suffix_append span rest).isInfix

/-! ## Literals and marks -/

/-- A literal with `##`. -/
def holdsMark : Segment → Bool
  | .literal text => Text.occursIn replacementMark text.toList
  | _ => false

def isGroup : Segment → Bool
  | .group _ => true
  | _ => false

/-- The segments in front of the first `##` that is no part of a placeholder. -/
def rulePart (segments : List Segment) : List Segment :=
  segments.takeWhile fun segment => !segment.holdsMark

/-- Segments of a scan before literals are put together.  A literal follows another only where
the text is cut at the mark. -/
structure Scanned (segments : List Segment) : Prop where
  nonempty : .literal "" ∉ segments
  groups : segments.Pairwise fun a b => a.holdsMark = true → b.isGroup = false
  literals : segments.IsChain fun a b =>
    a.isLiteral = true → b.isLiteral = true → b.holdsMark = true

/-- The segments of a text. -/
structure Tokens (segments : List Segment) (text : List Char) : Prop where
  spell : Spell segments text
  nonempty : .literal "" ∉ segments
  apart : segments.IsChain fun a b => ¬ (a.isLiteral = true ∧ b.isLiteral = true)
  groups : segments.Pairwise fun a b => a.holdsMark = true → b.isGroup = false

theorem holdsMark_literal {a : String} :
    (literal a).holdsMark = true ↔ replacementMark <:+: a.toList :=
  Text.occursIn_iff_isInfix

theorem holdsMark_append_left {a : String} (h : (literal a).holdsMark = true) (b : String) :
    (literal (a ++ b)).holdsMark = true := by
  rw [holdsMark_literal] at h ⊢
  rw [String.toList_append]
  exact h.trans (List.prefix_append _ _).isInfix

theorem holdsMark_append_right {b : String} (h : (literal b).holdsMark = true) (a : String) :
    (literal (a ++ b)).holdsMark = true := by
  rw [holdsMark_literal] at h ⊢
  rw [String.toList_append]
  exact h.trans (List.suffix_append _ _).isInfix

theorem holdsMark_segment (hole : Hole) : hole.segment.holdsMark = false := by
  have hhole := hole.isLiteral_segment
  unfold holdsMark
  split
  next hsegment => simp [hsegment, isLiteral] at hhole
  next => rfl

theorem Spell.holdsMark_eq_false (h : Spell segments cs) (hcs : ¬ replacementMark <:+: cs) :
    ∀ segment ∈ segments, segment.holdsMark = false := by
  intro segment hmem
  cases segment with
  | literal a =>
      rw [Bool.eq_false_iff, Ne, holdsMark_literal]
      exact fun hmark => hcs (hmark.trans (h.isInfix_of_mem hmem))
  | _ => rfl

theorem nonempty_ofText (text : List Char) : .literal "" ∉ ofText text := by
  unfold ofText
  split
  · simp
  next hne =>
    intro hmem
    have hempty : text = [] := by simpa using List.mem_singleton.1 hmem
    exact hne (by simp [hempty])

/-! ## Putting literals together -/

/-- Literals side by side become one. -/
inductive Joins : List Segment → List Segment → Prop
  | nil : Joins [] []
  | join {a b : String} {rest more : List Segment} (h : Joins rest (.literal b :: more)) :
      Joins (.literal a :: rest) (.literal (a ++ b) :: more)
  | keep {segment : Segment} {rest joined : List Segment} (h : Joins rest joined)
      (hapart : segment.isLiteral = true → ∀ next ∈ joined.head?, next.isLiteral = false) :
      Joins (segment :: rest) (segment :: joined)

theorem joins_joinLiterals (segments : List Segment) : Joins segments (joinLiterals segments) := by
  fun_induction joinLiterals segments with
  | case1 => exact .nil
  | case2 rest a b more hjoined ih => exact .join (hjoined ▸ ih)
  | case3 rest segment hjoined ih =>
      refine .keep ih fun hliteral next hnext => ?_
      cases segment with
      | literal a =>
          cases next with
          | literal b =>
              obtain ⟨more, hmore⟩ := List.head?_eq_some_iff.1 hnext
              exact (hjoined a b more rfl hmore).elim
          | _ => rfl
      | _ => cases hliteral

theorem Joins.spell (hjoins : Joins segments joined) (h : Spell segments cs) : Spell joined cs := by
  induction hjoins generalizing cs with
  | nil => exact h
  | @join a b rest more hjoins ih =>
      obtain ⟨span, text, hspan, hrest, rfl⟩ := spell_cons_iff.1 h
      obtain rfl : span = a.toList := hspan
      obtain ⟨span, text, hspan, hmore, rfl⟩ := spell_cons_iff.1 (ih hrest)
      obtain rfl : span = b.toList := hspan
      exact spell_cons_iff.2 ⟨(a ++ b).toList, text, rfl, hmore, by simp [String.toList_append]⟩
  | keep hjoins hapart ih =>
      obtain ⟨span, text, hspan, hrest, rfl⟩ := spell_cons_iff.1 h
      exact spell_cons_iff.2 ⟨span, text, hspan, ih hrest, rfl⟩

theorem Joins.nonempty (hjoins : Joins segments joined) (h : .literal "" ∉ segments) :
    .literal "" ∉ joined := by
  induction hjoins with
  | nil => exact h
  | @join a b rest more hjoins ih =>
      rw [List.mem_cons, not_or] at h ⊢
      have hmore := ih h.2
      rw [List.mem_cons, not_or] at hmore
      refine ⟨fun hempty => h.1 ?_, hmore.2⟩
      have hab := (literal.inj hempty).symm
      rw [String.append_eq_empty_iff] at hab
      rw [hab.1]
  | keep hjoins hapart ih =>
      rw [List.mem_cons, not_or] at h ⊢
      exact ⟨h.1, ih h.2⟩

theorem Joins.apart (hjoins : Joins segments joined) :
    joined.IsChain fun a b => ¬ (a.isLiteral = true ∧ b.isLiteral = true) := by
  induction hjoins with
  | nil => exact .nil
  | join hjoins ih =>
      rw [List.isChain_cons] at ih ⊢
      exact ih
  | keep hjoins hapart ih =>
      refine .cons ih fun next hnext hboth => ?_
      rw [hapart hboth.1 next hnext] at hboth
      exact Bool.false_ne_true hboth.2

/-- The mark of the first literal stays in it. -/
theorem Joins.exists_literal {b : String} (hjoins : Joins segments (.literal b :: more)) :
    ∃ a rest, segments = .literal a :: rest ∧
      ((literal a).holdsMark = true → (literal b).holdsMark = true) := by
  cases hjoins with
  | join => exact ⟨_, _, rfl, fun h => holdsMark_append_left h _⟩
  | keep => exact ⟨_, _, rfl, id⟩

theorem Joins.holdsMark_of_chain {a b : String} {rest : List Segment}
    (hjoins : Joins rest (.literal b :: more)) (h : Scanned (.literal a :: rest)) :
    (literal b).holdsMark = true := by
  obtain ⟨c, rest, rfl, hmark⟩ := hjoins.exists_literal
  exact hmark ((List.isChain_cons_cons.1 h.literals).1 rfl rfl)

theorem Scanned.tail (h : Scanned (segment :: segments)) : Scanned segments where
  nonempty := fun hmem => h.nonempty (List.mem_cons_of_mem segment hmem)
  groups := (List.pairwise_cons.1 h.groups).2
  literals := (List.isChain_cons.1 h.literals).2

theorem Joins.isGroup_eq_false (hjoins : Joins segments joined)
    (h : ∀ segment ∈ segments, segment.isGroup = false) :
    ∀ segment ∈ joined, segment.isGroup = false := by
  induction hjoins with
  | nil => exact h
  | join hjoins ih =>
      have hmore := ih fun segment hmem => h segment (List.mem_cons_of_mem _ hmem)
      rw [List.forall_mem_cons] at hmore ⊢
      exact ⟨rfl, hmore.2⟩
  | keep hjoins hapart ih =>
      rw [List.forall_mem_cons] at h ⊢
      exact ⟨h.1, ih h.2⟩

theorem Joins.groups (hjoins : Joins segments joined) (h : Scanned segments) :
    joined.Pairwise fun a b => a.holdsMark = true → b.isGroup = false := by
  induction hjoins with
  | nil => exact .nil
  | join hjoins ih =>
      have hmark := hjoins.holdsMark_of_chain h
      have hmore := List.pairwise_cons.1 (ih h.tail)
      exact .cons (fun next hnext _ => hmore.1 next hnext hmark) hmore.2
  | keep hjoins hapart ih =>
      refine .cons (fun next hnext hmark => ?_) (ih h.tail)
      exact hjoins.isGroup_eq_false
        (fun other hother => (List.pairwise_cons.1 h.groups).1 other hother hmark) next hnext

theorem Joins.any_rulePart (hjoins : Joins segments joined) (h : Scanned segments) :
    ((rulePart joined).any fun segment => !segment.isLiteral) =
      (rulePart segments).any fun segment => !segment.isLiteral := by
  induction hjoins with
  | nil => rfl
  | @join a b rest more hjoins ih =>
      have hmark := hjoins.holdsMark_of_chain h
      have hrest := ih h.tail
      simp only [rulePart, List.takeWhile_cons, hmark, Bool.not_true, Bool.false_eq_true, if_false,
        List.any_nil] at hrest
      simp only [rulePart, List.takeWhile_cons, holdsMark_append_right hmark a, Bool.not_true,
        Bool.false_eq_true, if_false, List.any_nil]
      split
      · rw [List.any_cons, ← hrest]
        rfl
      · rfl
  | @keep segment rest joined hjoins hapart ih =>
      have hrest := ih h.tail
      simp only [rulePart] at hrest
      simp only [rulePart, List.takeWhile_cons]
      split
      · rw [List.any_cons, List.any_cons, hrest]
      · rfl

theorem Scanned.tokens (h : Scanned segments) (hspell : Spell segments text) :
    Tokens (joinLiterals segments) text where
  spell := (joins_joinLiterals segments).spell hspell
  nonempty := (joins_joinLiterals segments).nonempty h.nonempty
  apart := (joins_joinLiterals segments).apart
  groups := (joins_joinLiterals segments).groups h

/-! ## Gaps between placeholders -/

theorem any_ofText (text : List Char) : ((ofText text).any fun s => !s.isLiteral) = false := by
  unfold ofText
  split <;> rfl

theorem isLiteral_of_mem_ofText (h : segment ∈ ofText text) : segment.isLiteral = true := by
  have hany := List.any_eq_false.1 (any_ofText text) segment h
  simpa using hany

theorem isGroup_of_isLiteral (h : segment.isLiteral = true) : segment.isGroup = false := by
  cases segment with
  | literal => rfl
  | _ => cases h

theorem isChain_ofText (R : Segment → Segment → Prop) (text : List Char) :
    (ofText text).IsChain R := by
  unfold ofText
  split
  · exact .nil
  · exact .singleton _

theorem nonempty_ofCutting (template : Cutting Hole) : .literal "" ∉ ofCutting template := by
  obtain ⟨spans, last⟩ := template
  induction spans with
  | nil => simpa [ofCutting] using nonempty_ofText last
  | cons part spans ih =>
      obtain ⟨gap, hole⟩ := part
      rw [ofCutting_cons, List.mem_append, List.mem_cons, not_or, not_or]
      refine ⟨nonempty_ofText gap, fun hempty => ?_, ih⟩
      have hhole := hole.isLiteral_segment
      rw [← hempty] at hhole
      cases hhole

theorem isChain_ofCutting (template : Cutting Hole) :
    (ofCutting template).IsChain fun a b => ¬ (a.isLiteral = true ∧ b.isLiteral = true) := by
  obtain ⟨spans, last⟩ := template
  induction spans with
  | nil => simpa [ofCutting] using isChain_ofText _ last
  | cons part spans ih =>
      obtain ⟨gap, hole⟩ := part
      have hhole := hole.isLiteral_segment
      rw [ofCutting_cons, List.isChain_append]
      refine ⟨isChain_ofText _ gap, .cons ih (by simp [hhole]), ?_⟩
      simp [hhole]

theorem spell_ofCutting {stands : Hole → List Char → List Char → Prop}
    (hstands : ∀ hole cs after, stands hole cs after → Stands hole cs after)
    (h : Cuts stands cs template) : Spell (ofCutting template) cs := by
  induction h with
  | @last gap hgap => simpa [ofCutting] using spell_ofText gap
  | @span gap cs after last hole spans hgap hhole hmore ih =>
      rw [ofCutting_cons]
      exact (spell_ofText gap).append (ih.cons_hole (hstands _ _ _ hhole))

theorem referencesFrom_of_cuts (h : Cuts Refers cs template) :
    referencesFrom 0 [] cs = ofCutting template := by
  have hpass : ∀ {gap cs}, IsGap Refers gap cs → ∀ read,
      referencesFrom 0 read (gap ++ cs) = referencesFrom 0 (gap.reverse ++ read) cs :=
    fun hgap => referencesFrom_pass fun tail htail hne digits after hstands =>
      hgap tail htail hne _ after ⟨hstands, digits, rfl⟩
  induction h with
  | @last gap hgap =>
      have hlast := hpass hgap []
      rw [List.append_nil] at hlast
      rw [hlast]
      simp [referencesFrom, ofCutting]
  | @span gap cs after last hole spans hgap hhole hmore ih =>
      obtain ⟨hstands, digits, rfl⟩ := hhole
      cases hstands with
      | group hnumber =>
          rw [hpass hgap, referencesFrom_group hnumber, ih, ofCutting_cons]
          simp [Hole.segment]

/-- A gap is cut at its first mark. -/
theorem cutAtMark_spec (gap : List Char) : ∃ front suffix, cutAtMark gap = (front, suffix) ∧
    front ++ suffix = gap ∧ ¬ replacementMark <:+: front ∧
    (suffix = [] ∨ replacementMark <+: suffix) := by
  unfold cutAtMark
  cases hcut : Text.cutAt? ['#', '#'] gap with
  | none =>
      refine ⟨gap, [], rfl, by simp, ?_, .inl rfl⟩
      rw [← Text.occursIn_iff_isInfix, Text.occursIn, hcut]
      simp
  | some found =>
      obtain ⟨front, after⟩ := found
      obtain ⟨rfl, hfirst⟩ := (Text.cutAt?_eq_some_iff (by simp)).1 hcut
      refine ⟨front, ['#', '#'] ++ after, by simp, by simp, fun hmark => ?_, .inr ?_⟩
      · exact hfirst (hmark.trans (List.prefix_append front _).isInfix)
      · exact List.prefix_append _ after

/-- The segments of a gap that is cut at its first mark and, in front of it, at its references
to groups. -/
theorem exists_ofGap_eq (gap : List Char) : ∃ front suffix references,
    Cuts Refers front references ∧ front ++ suffix = gap ∧ ¬ replacementMark <:+: front ∧
      (suffix = [] ∨ replacementMark <+: suffix) ∧
      ofGap true gap = ofCutting references ++ ofText suffix := by
  obtain ⟨front, suffix, hcut, htext, hfront, hsuffix⟩ := cutAtMark_spec gap
  obtain ⟨references, hcuts⟩ := Text.exists_cuts Hole.takesOff_refers front
  refine ⟨front, suffix, references, hcuts, htext, hfront, hsuffix, ?_⟩
  rw [ofGap, if_pos rfl, hcut]
  dsimp only
  rw [referencesFrom_of_cuts hcuts]

theorem ofGap_false (gap : List Char) : ofGap false gap = ofText gap := rfl

theorem spell_ofGap (inRule : Bool) (gap : List Char) : Spell (ofGap inRule gap) gap := by
  cases inRule with
  | false => exact spell_ofText gap
  | true =>
      obtain ⟨front, suffix, references, hcuts, rfl, -, -, heq⟩ := exists_ofGap_eq gap
      rw [heq]
      exact (spell_ofCutting (fun _ _ _ h => h.1) hcuts).append (spell_ofText suffix)

theorem scanned_ofText (text : List Char) : Scanned (ofText text) where
  nonempty := nonempty_ofText text
  groups := by
    unfold ofText
    split <;> simp
  literals := isChain_ofText _ text

theorem holdsMark_of_mem_ofText (hsegment : segment ∈ ofText text)
    (htext : text = [] ∨ replacementMark <+: text) : segment.holdsMark = true := by
  unfold ofText at hsegment
  split at hsegment
  next => simp at hsegment
  next hne =>
    obtain rfl := List.mem_singleton.1 hsegment
    rw [holdsMark_literal, String.toList_ofList]
    rcases htext with rfl | hmark
    · simp at hne
    · exact hmark.isInfix

theorem scanned_ofGap (inRule : Bool) (gap : List Char) : Scanned (ofGap inRule gap) := by
  cases inRule with
  | false => exact scanned_ofText gap
  | true =>
      obtain ⟨front, suffix, references, hcuts, rfl, hfront, hsuffix, heq⟩ := exists_ofGap_eq gap
      have hspell := spell_ofCutting (fun _ _ _ h => h.1) hcuts
      have hunmarked := hspell.holdsMark_eq_false hfront
      rw [heq]
      constructor
      · rw [List.mem_append, not_or]
        exact ⟨nonempty_ofCutting references, nonempty_ofText suffix⟩
      · rw [List.pairwise_append]
        refine ⟨?_, (scanned_ofText suffix).groups, ?_⟩
        · refine List.pairwise_of_forall_mem_list fun a ha b _ hmark => ?_
          rw [hunmarked a ha] at hmark
          cases hmark
        · exact fun a _ b hb _ => isGroup_of_isLiteral (isLiteral_of_mem_ofText hb)
      · rw [List.isChain_append]
        refine ⟨?_, isChain_ofText _ suffix, ?_⟩
        · exact (isChain_ofCutting references).imp fun a b hapart ha hb => absurd ⟨ha, hb⟩ hapart
        · exact fun a _ b hb _ _ => holdsMark_of_mem_ofText (List.mem_of_mem_head? hb) hsuffix

theorem any_rulePart_ofGap (gap : List Char) :
    ((rulePart (ofGap true gap)).any fun s => !s.isLiteral) =
      (ofGap true gap).any fun s => !s.isLiteral := by
  obtain ⟨front, suffix, references, hcuts, rfl, hfront, -, heq⟩ := exists_ofGap_eq gap
  have hunmarked := (spell_ofCutting (fun _ _ _ h => h.1) hcuts).holdsMark_eq_false hfront
  have hpart : ((rulePart (ofText suffix)).any fun s => !s.isLiteral) = false := by
    rw [List.any_eq_false]
    intro segment hmem
    simp [isLiteral_of_mem_ofText ((List.takeWhile_sublist _).subset hmem)]
  rw [heq, rulePart, List.takeWhile_append_of_pos (by simpa using hunmarked), List.any_append,
    List.any_append, any_ofText]
  exact congrArg _ hpart

/-- What begins with another sign and has no mark in front of it begins in front of the mark. -/
theorem exists_front_append {front suffix lead rest : List Char} {c : Char}
    (htext : lead ++ c :: rest = front ++ suffix) (hc : c ≠ '#')
    (hlead : ¬ replacementMark <:+: lead) (hsuffix : suffix = [] ∨ replacementMark <+: suffix) :
    ∃ tail, tail ≠ [] ∧ front = lead ++ tail ∧ c :: rest = tail ++ suffix := by
  rcases List.append_eq_append_iff.1 htext with ⟨tail, rfl, htail⟩ | ⟨between, rfl, hbetween⟩
  · refine ⟨tail, ?_, rfl, htail⟩
    rintro rfl
    rcases hsuffix with rfl | ⟨more, rfl⟩
    · cases htail
    · exact hc (List.cons.inj htail).1
  · rcases hsuffix with rfl | ⟨more, rfl⟩
    · simp at hbetween
    · match between, hbetween with
      | [], heq => exact absurd (List.cons.inj heq).1.symm hc
      | [_], heq => exact absurd (List.cons.inj (List.cons.inj heq).2).1.symm hc
      | a :: b :: others, heq =>
          obtain ⟨rfl, htail⟩ := List.cons.inj heq
          obtain ⟨rfl, -⟩ := List.cons.inj htail
          exact absurd ⟨front, others, by simp⟩ hlead

theorem any_ofCutting_of_stands {stands : Hole → List Char → List Char → Prop}
    (h : Cuts stands text template) (htail : cs <:+ text) (hne : cs ≠ [])
    (hstands : stands hole cs after) :
    ((ofCutting template).any fun s => !s.isLiteral) = true := by
  apply any_ofCutting
  cases h with
  | last hgap =>
      have hnone := hgap cs htail hne hole after
      rw [List.append_nil] at hnone
      exact absurd hstands hnone
  | span => simp

/-- A reference begins in front of the first mark. -/
theorem any_ofGap_iff : ((ofGap true gap).any fun s => !s.isLiteral) = true ↔
    ∃ front rest hole after, front ++ rest = gap ∧ ¬ replacementMark <:+: front ∧
      Refers hole rest after := by
  obtain ⟨front, suffix, references, hcuts, rfl, hfront, hsuffix, heq⟩ := exists_ofGap_eq gap
  have hback : NoDecimal suffix := by
    rcases hsuffix with rfl | ⟨more, rfl⟩
    · exact Hole.noDecimal_nil
    · exact Hole.noDecimal_sharp _
  rw [heq, List.any_append, any_ofText, Bool.or_false]
  constructor
  · intro hany
    cases hcuts with
    | last => simp [ofCutting, any_ofText] at hany
    | @span lead cs after last hole spans hgap hhole hmore =>
        refine ⟨lead, cs ++ suffix, hole, after ++ suffix, by simp, fun hmark => hfront ?_,
          hhole.append hback⟩
        exact hmark.trans (List.prefix_append lead cs).isInfix
  · rintro ⟨lead, rest, hole, after, htext, hlead, hrefers⟩
    obtain ⟨c, more, rfl, hc⟩ := hrefers.exists_cons
    obtain ⟨tail, hne, rfl, htail⟩ := exists_front_append htext hc hlead hsuffix
    rw [htail] at hrefers
    obtain ⟨after, hshort⟩ := hrefers.of_append hne hback
    exact any_ofCutting_of_stands hcuts (List.suffix_append lead tail) hne hshort

/-! ## Scans -/

theorem scanFrom_between (hgap : IsGap Placed gap cs) (inRule : Bool) (read : List Char) :
    scanFrom inRule 0 read (gap ++ cs) = scanFrom inRule 0 (gap.reverse ++ read) cs := by
  refine scanFrom_pass (fun tail htail hne => ?_) inRule read
  rw [Option.eq_none_iff_forall_ne_some]
  rintro ⟨segment, after⟩ hsome
  obtain ⟨hole, hstands, hbraces, -⟩ := placeholder?_eq_some_iff.1 hsome
  exact hgap tail htail hne hole after ⟨hstands, fun ⟨digits, hgroup⟩ => hbraces digits hgroup⟩

theorem scanFrom_last (hgap : IsGap Placed gap []) (inRule : Bool) : scanFrom inRule 0 [] gap =
    (ofGap inRule gap, (ofGap inRule gap).any fun s => !s.isLiteral) := by
  have hpass := scanFrom_between hgap inRule []
  rw [List.append_nil] at hpass
  rw [hpass, scanFrom]
  simp

theorem isGroup_of_placed (h : Placed hole cs after) : hole.segment.isGroup = false := by
  cases hole with
  | lookup => rfl
  | braces body =>
      unfold Hole.segment ofBody
      dsimp only
      split <;> rfl
  | group digits => exact absurd ⟨digits, rfl⟩ h.2

/-- Whether what follows a gap still is in front of the mark. -/
def staysInRule (inRule : Bool) (gap : List Char) : Bool :=
  inRule && !Text.occursIn replacementMark gap

theorem scanFrom_placed (hgap : IsGap Placed gap cs) (hhole : Placed hole cs after)
    (inRule : Bool) : scanFrom inRule 0 [] (gap ++ cs) =
      let inside := staysInRule inRule gap
      (ofGap inRule gap ++ hole.segment :: (scanFrom inside 0 [] after).1,
        inside || ((ofGap inRule gap).any fun s => !s.isLiteral) ||
          (scanFrom inside 0 [] after).2) := by
  have hplaceholder : placeholder? cs = some (hole.segment, after) :=
    placeholder?_eq_some_iff.2 ⟨hole, hhole.1, fun digits hgroup => hhole.2 ⟨digits, hgroup⟩, rfl⟩
  obtain ⟨c, rest, rfl, hsuffix⟩ := Hole.takesOff_stands hole cs after hhole.1
  rw [scanFrom_between hgap, scanFrom, hplaceholder]
  simp [scanFrom_skip, Text.drop_eq_of_isSuffix hsuffix, staysInRule]

theorem spell_scanFrom (h : Cuts Placed cs template) (inRule : Bool) :
    Spell (scanFrom inRule 0 [] cs).1 cs := by
  induction h generalizing inRule with
  | @last gap hgap =>
      rw [scanFrom_last hgap]
      exact spell_ofGap inRule gap
  | @span gap cs after last hole spans hgap hhole hmore ih =>
      rw [scanFrom_placed hgap hhole]
      exact (spell_ofGap inRule gap).append ((ih _).cons_hole hhole.1)

/-- Behind the mark there are no references, and nothing makes the text a template. -/
theorem scanFrom_behind (h : Cuts Placed cs template) :
    (∀ segment ∈ (scanFrom false 0 [] cs).1, segment.isGroup = false) ∧
      (scanFrom false 0 [] cs).2 = false := by
  have htext : ∀ gap, ∀ segment ∈ ofGap false gap, segment.isGroup = false :=
    fun gap segment hmem => isGroup_of_isLiteral (isLiteral_of_mem_ofText hmem)
  induction h with
  | @last gap hgap =>
      rw [scanFrom_last hgap]
      exact ⟨htext gap, any_ofText gap⟩
  | @span gap cs after last hole spans hgap hhole hmore ih =>
      have hinside : staysInRule false gap = false := rfl
      have hgroup := isGroup_of_placed hhole
      rw [scanFrom_placed hgap hhole, hinside]
      refine ⟨fun segment hmem => ?_, ?_⟩
      · rcases List.mem_append.1 hmem with hbefore | hbehind
        · exact htext gap segment hbefore
        · rcases List.mem_cons.1 hbehind with rfl | hlater
          · exact hgroup
          · exact ih.1 segment hlater
      · simp [ofGap_false, any_ofText, ih.2]

theorem staysInRule_of_holdsMark {inRule : Bool} (hmem : segment ∈ ofGap inRule gap)
    (hmark : segment.holdsMark = true) : staysInRule inRule gap = false := by
  have hoccurs : Text.occursIn replacementMark gap = true := by
    rw [Text.occursIn_iff_isInfix]
    by_contra hnone
    rw [(spell_ofGap inRule gap).holdsMark_eq_false hnone segment hmem] at hmark
    cases hmark
  simp [staysInRule, hoccurs]

theorem scanned_scanFrom (h : Cuts Placed cs template) (inRule : Bool) :
    Scanned (scanFrom inRule 0 [] cs).1 := by
  induction h generalizing inRule with
  | @last gap hgap =>
      rw [scanFrom_last hgap]
      exact scanned_ofGap inRule gap
  | @span gap cs after last hole spans hgap hhole hmore ih =>
      have hbefore := scanned_ofGap inRule gap
      have hbehind := ih (staysInRule inRule gap)
      have hhere := hole.isLiteral_segment
      have hunmarked := holdsMark_segment hole
      rw [scanFrom_placed hgap hhole]
      constructor
      · simp only [List.mem_append, List.mem_cons, not_or]
        refine ⟨hbefore.nonempty, fun hempty => ?_, hbehind.nonempty⟩
        rw [← hempty] at hhere
        cases hhere
      · rw [List.pairwise_append, List.pairwise_cons]
        refine ⟨hbefore.groups, ⟨by simp [hunmarked], hbehind.groups⟩, fun a ha b hb hmark => ?_⟩
        rw [staysInRule_of_holdsMark ha hmark] at hb
        rcases List.mem_cons.1 hb with rfl | hb
        · exact isGroup_of_placed hhole
        · exact (scanFrom_behind hmore).1 b hb
      · rw [List.isChain_append]
        refine ⟨hbefore.literals, .cons hbehind.literals (by simp [hhere]), by simp [hhere]⟩

theorem exists_holdsMark_of_isInfix (h : replacementMark <:+: gap) :
    ∃ segment ∈ ofGap true gap, segment.holdsMark = true := by
  obtain ⟨front, suffix, references, -, rfl, hfront, hsuffix, heq⟩ := exists_ofGap_eq gap
  have hne : suffix ≠ [] := by
    rintro rfl
    exact hfront (by simpa using h)
  have hliteral : .literal (String.ofList suffix) ∈ ofText suffix := by
    simp [ofText, hne]
  rw [heq]
  exact ⟨_, List.mem_append_right _ hliteral, holdsMark_of_mem_ofText hliteral hsuffix⟩

theorem rulePart_append_of_holdsMark (hmem : segment ∈ segments)
    (hmark : segment.holdsMark = true) (more : List Segment) :
    rulePart (segments ++ more) = rulePart segments := by
  rw [rulePart, List.takeWhile_append, if_neg]
  · rfl
  · intro hlength
    have hself := (List.takeWhile_sublist _).eq_of_length hlength
    have hall := List.takeWhile_eq_self_iff.1 hself segment hmem
    simp [hmark] at hall

/-- The scan says whether something is to be filled in in front of the mark. -/
theorem snd_scanFrom (h : Cuts Placed cs template) : (scanFrom true 0 [] cs).2 =
    (rulePart (scanFrom true 0 [] cs).1).any fun s => !s.isLiteral := by
  cases h with
  | last hgap =>
      rw [scanFrom_last hgap]
      exact (any_rulePart_ofGap cs).symm
  | @span gap cs after last hole spans hgap hhole hmore =>
      rw [scanFrom_placed hgap hhole]
      cases hoccurs : Text.occursIn replacementMark gap with
      | false =>
          have hnone : ¬ replacementMark <:+: gap := by
            rw [← Text.occursIn_iff_isInfix, hoccurs]
            exact Bool.false_ne_true
          have hunmarked := (spell_ofGap true gap).holdsMark_eq_false hnone
          rw [rulePart, List.takeWhile_append_of_pos (by simpa using hunmarked)]
          simp [staysInRule, hoccurs, holdsMark_segment, hole.isLiteral_segment]
      | true =>
          obtain ⟨segment, hmem, hmark⟩ :=
            exists_holdsMark_of_isInfix (Text.occursIn_iff_isInfix.1 hoccurs)
          have hbehind := (scanFrom_behind hmore).2
          rw [rulePart_append_of_holdsMark hmem hmark, any_rulePart_ofGap]
          simp [staysInRule, hoccurs, hbehind]

theorem isGroup_of_isGap {hole : Hole} {tail after : List Char} (hgap : IsGap Placed gap cs)
    (hsuffix : tail <:+ gap) (hne : tail ≠ []) (hstands : Stands hole (tail ++ cs) after) :
    hole.IsGroup := by
  by_contra hplaced
  exact hgap tail hsuffix hne hole after ⟨hstands, hplaced⟩

/-- A gap has a reference to be filled in if a hole stands in front of the first mark, where
the mark is in the gap or nothing is behind it. -/
theorem any_ofGap_iff_stands (hgap : IsGap Placed gap cs) (hback : NoDecimal cs)
    (hend : cs = [] ∨ replacementMark <:+: gap) :
    ((ofGap true gap).any fun s => !s.isLiteral) = true ↔
      ∃ front rest hole after, front ++ rest = gap ++ cs ∧ ¬ replacementMark <:+: front ∧
        Stands hole rest after := by
  rw [any_ofGap_iff]
  constructor
  · rintro ⟨front, rest, hole, after, rfl, hfront, hrefers⟩
    exact ⟨front, rest ++ cs, hole, after ++ cs, by simp, hfront, (hrefers.append hback).1⟩
  · rintro ⟨front, rest, hole, after, htext, hfront, hstands⟩
    -- The hole starts in the gap: behind the gap there is nothing, or the mark is in front.
    have hstart : ∃ tail, gap = front ++ tail ∧ rest = tail ++ cs ∧ tail ≠ [] := by
      rcases List.append_eq_append_iff.1 htext with ⟨tail, rfl, rfl⟩ | ⟨more, rfl, hrest⟩
      · refine ⟨tail, rfl, rfl, ?_⟩
        rintro rfl
        rcases hend with rfl | hmark
        · exact Hole.takesOff_stands.not_stands_nil hstands
        · exact hfront (by simpa using hmark)
      · rcases hend with rfl | hmark
        · obtain rfl := (List.append_eq_nil_iff.1 hrest.symm).2
          exact absurd hstands Hole.takesOff_stands.not_stands_nil
        · exact absurd (hmark.trans (List.prefix_append gap more).isInfix) hfront
    obtain ⟨tail, rfl, rfl, hne⟩ := hstart
    have hgroup := isGroup_of_isGap hgap (List.suffix_append front tail) hne hstands
    have hrefers : Refers hole (tail ++ cs) after := ⟨hstands, hgroup⟩
    obtain ⟨after, hshort⟩ := hrefers.of_append hne hback
    exact ⟨front, tail, hole, after, rfl, hfront, hshort⟩

/-- A hole stands in front of the first mark. -/
theorem snd_scanFrom_iff (h : Cuts Placed cs template) : (scanFrom true 0 [] cs).2 = true ↔
    ∃ front rest hole after, front ++ rest = cs ∧ ¬ replacementMark <:+: front ∧
      Stands hole rest after := by
  cases h with
  | last hgap =>
      have hiff := any_ofGap_iff_stands hgap Hole.noDecimal_nil (.inl rfl)
      rw [List.append_nil] at hiff
      rw [scanFrom_last hgap]
      exact hiff
  | @span gap cs after last hole spans hgap hhole hmore =>
      rw [scanFrom_placed hgap hhole]
      cases hoccurs : Text.occursIn replacementMark gap with
      | false =>
          have hnone : ¬ replacementMark <:+: gap := by
            rw [← Text.occursIn_iff_isInfix, hoccurs]
            exact Bool.false_ne_true
          refine iff_of_true ?_ ⟨gap, cs, hole, after, rfl, hnone, hhole.1⟩
          simp [staysInRule, hoccurs]
      | true =>
          have hback : NoDecimal cs := by
            obtain ⟨rest, rfl⟩ := hhole.1.exists_cons
            exact NoDecimal.of_signs hole.sign_mem
          have hmark := Text.occursIn_iff_isInfix.1 hoccurs
          have hinside : staysInRule true gap = false := by simp [staysInRule, hoccurs]
          dsimp only
          rw [hinside, (scanFrom_behind hmore).2, Bool.false_or, Bool.or_false]
          exact any_ofGap_iff_stands hgap hback (.inr hmark)

end Segment

/-! ## Stages -/

variable {content : Content} {text : List Char}

/-- The text of a stage that is cut into segments: without bindings, and without the prefix of
its mode. -/
def Stage.body (content : Content) (text : List Char) : List Char :=
  (Mode.detect content (Text.trim (Stage.splitPuts text).2)).2

theorem detect_ne_template (hcontent : content ≠ .groups) (rule : List Char) :
    (Mode.detect content rule).1 ≠ .template := by
  unfold Mode.detect
  rw [if_neg hcontent]
  split
  · simp
  · repeat' split
    all_goals simp

/-- A single literal is not kept. -/
theorem Stage.segments_parse (content : Content) (text : List Char) :
    (Stage.parse content text).segments = (Segment.scan (Stage.body content text)).1 ∨
      (Stage.parse content text).segments = [] ∧
        ∀ segment ∈ (Segment.scan (Stage.body content text)).1, segment.isLiteral = true := by
  simp only [Stage.parse, Stage.body]
  split
  next hnil => exact .inr ⟨rfl, by simp [hnil]⟩
  next hliteral => exact .inr ⟨rfl, by simp [hliteral, Segment.isLiteral]⟩
  next => exact .inl rfl

/-- The scan says whether a stage is a template, unless it is read for groups. -/
theorem Stage.mode_eq_template_iff (hcontent : content ≠ .groups) (text : List Char) :
    (Stage.parse content text).mode = .template ↔
      (Segment.scanFrom true 0 [] (Stage.body content text)).2 = true := by
  have hdetect := detect_ne_template hcontent (Text.trim (Stage.splitPuts text).2)
  have hparse : (Stage.parse content text).mode =
      if (Segment.scanFrom true 0 [] (Stage.body content text)).2 then .template
      else (Mode.detect content (Text.trim (Stage.splitPuts text).2)).1 := rfl
  rw [hparse]
  split
  next htemplate => simp [htemplate]
  next hplain => simp [hdetect, hplain]

theorem Stage.mode_eq_template_iff_rulePart (hcontent : content ≠ .groups) (text : List Char) :
    (Stage.parse content text).mode = .template ↔
      ∃ segment ∈ Segment.rulePart (Stage.parse content text).segments,
        segment.isLiteral = false := by
  obtain ⟨placed, hcuts⟩ := Text.exists_cuts Hole.takesOff_placed (Stage.body content text)
  have hjoins := Segment.joins_joinLiterals
    (Segment.scanFrom true 0 [] (Stage.body content text)).1
  have hflag := Segment.snd_scanFrom hcuts
  rw [← hjoins.any_rulePart (Segment.scanned_scanFrom hcuts true)] at hflag
  rw [Stage.mode_eq_template_iff hcontent, hflag]
  rcases Stage.segments_parse content text with hall | ⟨hnone, hliterals⟩
  · change (List.any (Segment.rulePart (Segment.scan (Stage.body content text)).1) _ = true) ↔ _
    rw [← hall]
    simp
  · refine iff_of_false ?_ (by simp [hnone, Segment.rulePart])
    rw [Bool.not_eq_true, List.any_eq_false]
    intro segment hmem
    simp [hliterals segment ((List.takeWhile_sublist _).subset hmem)]

/-- The segments of a stage, where it has some, are those of its body.  A stage is a template
where a placeholder or a reference stands with no `##` in front of it, and then it has
segments. -/
theorem segments_tokens (content : Content) (text : List Char) :
    let stage := Stage.parse content text
    (stage.segments ≠ [] → Segment.Tokens stage.segments (Stage.body content text)) ∧
    (content ≠ .groups →
      (stage.mode = .template ↔
        ∃ segment ∈ Segment.rulePart stage.segments, segment.isLiteral = false) ∧
      (stage.mode = .template ↔ ∃ front rest hole after,
        front ++ rest = Stage.body content text ∧ ¬ ['#', '#'] <:+: front ∧
          Hole.Stands hole rest after) ∧
      (stage.mode = .template → stage.segments ≠ [])) := by
  intro stage
  obtain ⟨placed, hcuts⟩ := Text.exists_cuts Hole.takesOff_placed (Stage.body content text)
  refine ⟨fun hsome => ?tokens, fun hcontent => ?template⟩
  case tokens =>
    rcases Stage.segments_parse content text with hall | ⟨hnone, -⟩
    · rw [hall]
      exact (Segment.scanned_scanFrom hcuts true).tokens (Segment.spell_scanFrom hcuts true)
    · exact absurd hnone hsome
  case template =>
    have hscan := Stage.mode_eq_template_iff hcontent text
    have hpart := Stage.mode_eq_template_iff_rulePart hcontent text
    refine ⟨hpart, hscan.trans (Segment.snd_scanFrom_iff hcuts), fun htemplate hnone => ?_⟩
    obtain ⟨segment, hmem, -⟩ := hpart.1 htemplate
    rw [hnone] at hmem
    cases hmem

/-- A reference in front of the mark, and one behind it that is literal. -/
theorem segments_tokens_reference :
    let stage := Stage.parse .markup "a$1##$2".toList
    Content.markup ≠ .groups ∧ stage.mode = .template ∧ stage.segments ≠ [] ∧
      Segment.Tokens stage.segments "a$1##$2".toList := by
  intro stage
  have hbody : Stage.body .markup "a$1##$2".toList = "a$1##$2".toList := by
    have hputs : Stage.splitPuts "a$1##$2".toList = ([], "a$1##$2".toList) :=
      Stage.splitPuts_eq (by decide)
    rw [Stage.body, hputs]
    decide
  obtain ⟨htokens, htemplate⟩ := segments_tokens .markup "a$1##$2".toList
  obtain ⟨-, hholes, hsome⟩ := htemplate (by decide)
  have hnumber : Hole.IsNumber ['1'] "##$2".toList :=
    ⟨by decide, .inr ⟨rfl, Hole.noDecimal_sharp _⟩⟩
  have hmode : stage.mode = .template :=
    hholes.2 ⟨['a'], _, _, _, hbody.symm, by decide, .group hnumber⟩
  rw [hbody] at htokens
  exact ⟨by decide, hmode, hsome hmode, htokens (hsome hmode)⟩

end BookRules.Rule
