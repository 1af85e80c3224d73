import BookRules.Proofs.Text.Cuttings
import BookRules.Proofs.Unicode.LetterCase
import BookRules.Proofs.Unicode.Runs
import BookRules.Rule.Segment

/-!
# Holes of a text

A hole is what something else is put in the place of: a reference to a variable, a pair of
braces around a rule or a script, or a reference to a group.  The scan of a text finds the
holes in braces first and looks for references to groups between them.  No hole in braces
begins with a digit, so looking for all holes at once gives the same cutting, and the
segments are those of its gaps and holes in order.
-/

namespace BookRules.Rule

open Text (Cutting Cuts IsGap InBraces)
open Unicode (InAnyCase afterFolded?)

/-- A hole as it is written. -/
inductive Hole
  | lookup (mark name : List Char)
  | braces (body : List Char)
  | group (digits : List Char)
  deriving DecidableEq, Repr

namespace Hole

def segment : Hole → Segment
  | .lookup _ name => .variable (String.ofList (Text.trim name))
  | .braces body => Segment.ofBody body
  | .group digits => .group (Decimal.valueOf digits)

/-- No decimal digit of any script stands in front. -/
def NoDecimal (cs : List Char) : Prop :=
  ∀ c ∈ cs.head?, Unicode.isDecimal c.toNat = false

/-- One or two ASCII digits, and a single one only where no other digit follows. -/
def IsNumber (digits after : List Char) : Prop :=
  (∀ c ∈ digits, Decimal.isDigit c = true) ∧
    (digits.length = 2 ∨ digits.length = 1 ∧ NoDecimal after)

/-- A hole stands in front of a text, and something follows it. -/
inductive Stands : Hole → List Char → List Char → Prop
  | lookup {mark name after : List Char} (hmark : InAnyCase "@get:\x7b".toList mark)
      (hname : name ≠ []) (hclosed : '\x7d' ∉ name) :
      Stands (.lookup mark name) (mark ++ (name ++ '\x7d' :: after)) after
  | braces {body cs after : List Char} (hbody : InBraces body cs after) :
      Stands (.braces body) cs after
  | group {digits after : List Char} (hnumber : IsNumber digits after) :
      Stands (.group digits) ('$' :: (digits ++ after)) after

def sign : Hole → Char
  | .lookup _ _ => '@'
  | .braces _ => '\x7b'
  | .group _ => '$'

def signs : List Char :=
  ['@', '\x7b', '$']

variable {cs after back gap name mark digits front : List Char} {hole : Hole}

theorem getMark_signs : ∀ w ∈ "@get:\x7b".toList, w ∈ Unicode.markSigns := by
  have hall : ("@get:\x7b".toList.all Unicode.markSigns.contains) = true := by decide
  intro w hw
  simpa using List.all_eq_true.1 hall w hw

theorem exists_mark_eq (hmark : InAnyCase "@get:\x7b".toList mark) : ∃ rest, mark = '@' :: rest := by
  have hsigns : InAnyCase ['@', 'g', 'e', 't', ':', '\x7b'] mark := hmark
  cases hsigns with
  | @cons w c _ rest hc hrest =>
      obtain rfl : c = '@' := by simpa [Unicode.letterForms] using hc
      exact ⟨rest, rfl⟩

theorem sign_mem (hole : Hole) : hole.sign ∈ signs := by
  cases hole <;> simp [sign, signs]

theorem Stands.exists_cons (h : Stands hole cs after) : ∃ rest, cs = hole.sign :: rest := by
  cases h with
  | lookup hmark =>
      obtain ⟨rest, rfl⟩ := exists_mark_eq hmark
      exact ⟨_, rfl⟩
  | braces hbody =>
      obtain ⟨rfl, -⟩ := hbody
      exact ⟨_, rfl⟩
  | group => exact ⟨_, rfl⟩

theorem takesOff_stands : Text.TakesOff Stands := by
  rintro hole cs after (⟨hmark, -, -⟩ | hbody | -)
  · rename_i mark name
    obtain ⟨rest, rfl⟩ := exists_mark_eq hmark
    exact ⟨'@', _, rfl, rest ++ (name ++ ['\x7d']), by simp⟩
  · exact Text.takesOff_inBraces _ _ _ hbody
  · exact ⟨'$', _, rfl, List.suffix_append _ _⟩

theorem isGap_of_signs (h : (gap.any signs.contains) = false) (cs : List Char) :
    IsGap Stands gap cs := by
  intro tail htail hne hole after hstands
  obtain ⟨rest, heq⟩ := hstands.exists_cons
  obtain ⟨c, others, rfl⟩ := List.exists_cons_of_ne_nil hne
  obtain ⟨rfl, -⟩ := List.cons.inj heq
  have hsign := List.any_eq_false.1 h _ (htail.subset List.mem_cons_self)
  simp [hole.sign_mem] at hsign

/-! ## Holes in braces -/

theorem takeWhile_brace_iff {rest : List Char} :
    rest.takeWhile (· != '\x7d') = name ∧ rest.dropWhile (· != '\x7d') = '\x7d' :: after ↔
      '\x7d' ∉ name ∧ name ++ '\x7d' :: after = rest := by
  constructor
  · rintro ⟨rfl, hdrop⟩
    refine ⟨fun hmem => ?_, ?_⟩
    · simpa using List.mem_takeWhile_imp hmem
    · rw [← hdrop, List.takeWhile_append_dropWhile]
  · rintro ⟨hclosed, rfl⟩
    have hopen : ∀ c ∈ name, (c != '\x7d') = true := by
      intro c hc
      simpa using fun heq : c = '\x7d' => hclosed (heq ▸ hc)
    rw [List.takeWhile_append_of_pos hopen, List.dropWhile_append_of_pos hopen]
    simp

theorem dropWhile_brace_eq_cons {rest : List Char} {c : Char}
    (h : rest.dropWhile (· != '\x7d') = c :: after) : c = '\x7d' := by
  have hhead := List.head?_dropWhile_not (· != '\x7d') rest
  rw [h] at hhead
  simpa using hhead

end Hole

namespace Segment

open Hole (Stands)

variable {cs after : List Char} {segment : Segment}

theorem placeholder?_eq_some_iff : placeholder? cs = some (segment, after) ↔
    ∃ hole, Stands hole cs after ∧ (∀ digits, hole ≠ .group digits) ∧ hole.segment = segment := by
  unfold placeholder?
  dsimp only
  constructor
  · intro h
    split at h
    next found hget =>
      obtain rfl := Option.some.inj h
      split at hget
      next => simp at hget
      next rest hmark =>
        obtain ⟨mark, hform, rfl⟩ := (Unicode.afterFolded?_eq_some_iff Hole.getMark_signs).1 hmark
        split at hget
        next c name d behind htake hdrop =>
          obtain ⟨rfl, rfl⟩ := Prod.mk.inj (Option.some.inj hget)
          obtain rfl := Hole.dropWhile_brace_eq_cons hdrop
          obtain ⟨hclosed, rfl⟩ := Hole.takeWhile_brace_iff.1 ⟨htake, hdrop⟩
          exact ⟨.lookup mark (c :: name), .lookup hform (by simp) hclosed, by simp, rfl⟩
        next => simp at hget
    next =>
      split at h
      next rest _ =>
        obtain ⟨⟨body, behind⟩, hcut, heq⟩ := Option.map_eq_some_iff.1 h
        obtain ⟨rfl, rfl⟩ := Prod.mk.inj heq
        obtain ⟨rfl, hfirst⟩ := (Text.cutAt?_eq_some_iff (by simp)).1 hcut
        exact ⟨.braces body, .braces ⟨by simp, hfirst⟩, by simp, rfl⟩
      next => simp at h
  · rintro ⟨hole, hstands, hbraces, rfl⟩
    cases hstands with
    | @lookup mark name _ hmark hname hclosed =>
        have hfound := hmark.afterFolded?_append Hole.getMark_signs (name ++ '\x7d' :: after)
        obtain ⟨htake, hdrop⟩ := Hole.takeWhile_brace_iff.2
          ⟨hclosed, (rfl : name ++ '\x7d' :: after = _)⟩
        obtain ⟨c, name, rfl⟩ := List.exists_cons_of_ne_nil hname
        rw [hfound]
        dsimp only
        rw [htake, hdrop]
        rfl
    | @braces body _ _ hbody =>
        obtain ⟨rfl, hfirst⟩ := hbody
        -- references to variables are looked for first
        have hmark : afterFolded? "@get:\x7b".toList
            ('\x7b' :: '\x7b' :: body ++ '\x7d' :: '\x7d' :: after) = none := by
          rw [Option.eq_none_iff_forall_ne_some]
          intro rest hfound
          obtain ⟨mark, hform, heq⟩ := (Unicode.afterFolded?_eq_some_iff Hole.getMark_signs).1 hfound
          obtain ⟨others, rfl⟩ := Hole.exists_mark_eq hform
          simp at heq
        have hcut : Text.cutAt? ['\x7d', '\x7d'] (body ++ '\x7d' :: '\x7d' :: after) =
            some (body, after) :=
          (Text.cutAt?_eq_some_iff (by simp)).2 ⟨by simp, hfirst⟩
        rw [hmark]
        simp [hcut, Hole.segment]
    | group => exact absurd rfl (hbraces _)

theorem placeholder?_eq_none {c : Char} {rest : List Char} (hat : c ≠ '@') (hbrace : c ≠ '\x7b') :
    placeholder? (c :: rest) = none := by
  rw [Option.eq_none_iff_forall_ne_some]
  rintro ⟨segment, after⟩ hsome
  obtain ⟨hole, hstands, hbraces, -⟩ := placeholder?_eq_some_iff.1 hsome
  obtain ⟨others, heq⟩ := hstands.exists_cons
  obtain ⟨rfl, -⟩ := List.cons.inj heq
  cases hole with
  | lookup => exact hat rfl
  | braces => exact hbrace rfl
  | group digits => exact hbraces digits rfl

end Segment

/-! ## References to groups -/

namespace Hole

theorem isDecimal_of_isDigit {c : Char} (h : Decimal.isDigit c = true) :
    Unicode.isDecimal c.toNat = true := by
  rw [Unicode.isDecimal_eq_isDigit, h]
  simp only [Decimal.isDigit, Bool.and_eq_true, decide_eq_true_eq] at h
  have hlast : c.toNat ≤ '9'.toNat := h.2
  exact Nat.lt_of_le_of_lt hlast (by decide)

theorem NoDecimal.of_signs {c : Char} {rest : List Char} (h : c ∈ signs) : NoDecimal (c :: rest) := by
  have hsigns : (signs.all fun c => decide (c.toNat < 124) && !Decimal.isDigit c) = true := by
    decide
  have hsign := List.all_eq_true.1 hsigns c h
  simp only [Bool.and_eq_true, decide_eq_true_eq, Bool.not_eq_true'] at hsign
  intro d hd
  obtain rfl : c = d := by simpa using hd
  rw [Unicode.isDecimal_eq_isDigit hsign.1, hsign.2]

theorem NoDecimal.append (h : NoDecimal cs) (hback : NoDecimal back) : NoDecimal (cs ++ back) := by
  cases cs with
  | nil => exact hback
  | cons c rest => exact h

theorem NoDecimal.of_append (h : NoDecimal (cs ++ back)) : NoDecimal cs := by
  cases cs with
  | nil => simp [NoDecimal]
  | cons c rest => exact h

theorem IsNumber.referenceDigits_eq (h : IsNumber digits after) :
    Segment.referenceDigits (digits ++ after) = digits := by
  obtain ⟨hdigits, hlength⟩ := h
  match digits, hdigits, hlength with
  | [a, b], hdigits, _ =>
      have ha := isDecimal_of_isDigit (hdigits a (by simp))
      have hb := isDecimal_of_isDigit (hdigits b (by simp))
      simp [Segment.referenceDigits, ha, hb]
  | [a], hdigits, hlength =>
      have ha := isDecimal_of_isDigit (hdigits a (by simp))
      have hafter : NoDecimal after := by simpa using hlength
      cases after with
      | nil => simp [Segment.referenceDigits, ha]
      | cons b rest =>
          have hb : Unicode.isDecimal b.toNat = false := hafter b (by simp)
          simp [Segment.referenceDigits, ha, hb]

theorem IsNumber.natural?_eq (h : IsNumber digits after) :
    Decimal.natural? digits = some (Decimal.valueOf digits) := by
  have hne : digits ≠ [] := by
    rintro rfl
    simpa using h.2
  have hall : digits.all Decimal.isDigit = true := List.all_eq_true.2 h.1
  simp [Decimal.natural?, hne, hall]

theorem exists_isNumber_of_natural? {rest : List Char} {index : Nat}
    (h : Decimal.natural? (Segment.referenceDigits rest) = some index) :
    ∃ digits after, IsNumber digits after ∧ digits ++ after = rest := by
  have hall : ∀ c ∈ Segment.referenceDigits rest, Decimal.isDigit c = true := by
    unfold Decimal.natural? at h
    split_ifs at h with hnone
    simp only [Bool.or_eq_true, not_or, Bool.not_eq_true, Bool.not_eq_false'] at hnone
    exact List.all_eq_true.1 hnone.2
  match rest with
  | [] => simp [Segment.referenceDigits, Decimal.natural?] at h
  | [a] =>
      by_cases ha : Unicode.isDecimal a.toNat = true
      · rw [Segment.referenceDigits, if_pos ha] at hall
        exact ⟨[a], [], ⟨hall, Or.inr ⟨rfl, by simp [NoDecimal]⟩⟩, rfl⟩
      · simp [Segment.referenceDigits, ha, Decimal.natural?] at h
  | a :: b :: more =>
      by_cases ha : Unicode.isDecimal a.toNat = true
      · by_cases hb : Unicode.isDecimal b.toNat = true
        · rw [Segment.referenceDigits, if_pos ha, if_pos hb] at hall
          exact ⟨[a, b], more, ⟨hall, Or.inl rfl⟩, rfl⟩
        · rw [Segment.referenceDigits, if_pos ha, if_neg hb] at hall
          exact ⟨[a], b :: more, ⟨hall, Or.inr ⟨rfl, by simpa [NoDecimal] using hb⟩⟩, rfl⟩
      · simp [Segment.referenceDigits, ha, Decimal.natural?] at h

/-- A reference is read the same whatever follows, unless that begins with a digit. -/
theorem Stands.group_append (h : Stands (.group digits) cs after) (hback : NoDecimal back) :
    Stands (.group digits) (cs ++ back) (after ++ back) := by
  cases h with
  | group hnumber =>
      have hlonger : IsNumber digits (after ++ back) :=
        ⟨hnumber.1, hnumber.2.imp_right fun hone => ⟨hone.1, hone.2.append hback⟩⟩
      simpa using Stands.group hlonger

end Hole

namespace Segment

open Hole (Stands IsNumber NoDecimal)

variable {cs after back gap digits read : List Char}

theorem referencesFrom_skip (skip : Nat) (cs : List Char) :
    referencesFrom skip [] cs = referencesFrom 0 [] (cs.drop skip) := by
  induction cs generalizing skip with
  | nil => cases skip <;> simp [referencesFrom]
  | cons c rest ih =>
      cases skip with
      | zero => rfl
      | succ skip => simpa [referencesFrom] using ih skip

theorem referencesFrom_group (h : IsNumber digits after) (read : List Char) :
    referencesFrom 0 read ('$' :: (digits ++ after)) =
      ofText read.reverse ++ .group (Decimal.valueOf digits) :: referencesFrom 0 [] after := by
  rw [referencesFrom, if_pos rfl, h.referenceDigits_eq, h.natural?_eq]
  dsimp only
  rw [referencesFrom_skip, List.drop_left]

/-- A text in which no reference begins is passed over. -/
theorem referencesFrom_pass (h : ∀ tail, tail <:+ gap → tail ≠ [] → ∀ digits after,
      ¬ Stands (.group digits) (tail ++ cs) after) (read : List Char) :
    referencesFrom 0 read (gap ++ cs) = referencesFrom 0 (gap.reverse ++ read) cs := by
  induction gap generalizing read with
  | nil => rfl
  | cons c gap ih =>
      have hhere := h (c :: gap) List.suffix_rfl (by simp)
      have hlater : ∀ tail, tail <:+ gap → tail ≠ [] → ∀ digits after,
          ¬ Stands (.group digits) (tail ++ cs) after :=
        fun tail htail => h tail (htail.trans (List.suffix_cons c gap))
      have hnone : Decimal.natural? (if c = '$' then referenceDigits (gap ++ cs) else []) = none := by
        rw [Option.eq_none_iff_forall_ne_some]
        intro index hsome
        split_ifs at hsome with hdollar
        · obtain ⟨digits, after, hnumber, htext⟩ := Hole.exists_isNumber_of_natural? hsome
          have hstands := Stands.group hnumber
          rw [htext] at hstands
          exact hhere _ _ (by simpa [hdollar] using hstands)
        · simp [Decimal.natural?] at hsome
      rw [List.cons_append, referencesFrom, hnone]
      dsimp only
      rw [ih hlater]
      simp

/-- No reference begins in a gap, whatever follows that begins with no digit. -/
theorem referencesFrom_gap (hgap : IsGap Stands gap (cs ++ back)) (hback : NoDecimal back)
    (read : List Char) : referencesFrom 0 read (gap ++ cs) =
      referencesFrom 0 (gap.reverse ++ read) cs := by
  refine referencesFrom_pass (fun tail htail hne digits after hstands => ?_) read
  have hlonger := hstands.group_append hback
  rw [List.append_assoc] at hlonger
  exact hgap tail htail hne _ _ hlonger

end Segment

end BookRules.Rule
