import BookRules.Proofs.Unicode.Folding
import Mathlib.Data.List.Forall2
import Mathlib.Data.List.Infix

/-!
# Marks in any letter case

The marks of the rule language are written in ASCII and read in any letter case.  A small
letter of a mark stands for itself and for its capital; the letter s has a third form, the
long s, whose capital is S as well.  These are all the forms there are: for each sign of a
mark the table of foldings lists no other code point that folds to it.
-/

namespace BookRules.Unicode

/-- The signs that are read as a sign of a mark. -/
def letterForms (w : Char) : List Char :=
  if w = 's' then ['s', 'S', 'ſ'] else [w, w.toUpper]

/-- A text that is a mark in some letter case. -/
def InAnyCase (mark form : List Char) : Prop :=
  List.Forall₂ (fun w c => c ∈ letterForms w) mark form

/-- A mark stands in a text, in any letter case. -/
def HoldsMark (mark cs : List Char) : Prop :=
  ∃ form, InAnyCase mark form ∧ form <:+: cs

/-- The signs of the marks of scripts, of references to variables and of bindings. -/
def markSigns : List Char :=
  ['<', '/', '>', '@', ':', '\x7b', 's', 'c', 'r', 'i', 'p', 't', 'j', 'g', 'e', 'u']

/-- A pair of a table of foldings that does not move a sign and moves only its other forms
to it. -/
def keepsForms (w : Char) (pair : Nat × Nat) : Bool :=
  pair.1 != w.toNat && (pair.2 != w.toNat || (letterForms w).contains (Char.ofNat pair.1))

/-- Most pairs of the table are about letters beyond ASCII. -/
theorem foldTable_keepsForms : (foldTable.pairs.all fun pair =>
    (128 ≤ pair.1 && 128 ≤ pair.2) || markSigns.all (keepsForms · pair)) = true := by
  decide +kernel

theorem fold_letterForms : (markSigns.all fun w =>
    (letterForms w).all fun c => w == c || fold w.toNat == fold c.toNat) = true := by
  decide +kernel

variable {w c : Char} {mark cs form after front : List Char}

theorem mem_letterForms_self (w : Char) : w ∈ letterForms w := by
  unfold letterForms
  split
  next h => simp [h]
  next => simp

theorem keepsForms_of_mem (hw : w ∈ markSigns) {pair : Nat × Nat} (hpair : pair ∈ foldTable.pairs) :
    keepsForms w pair = true := by
  have hrow := List.all_eq_true.1 foldTable_keepsForms pair hpair
  rw [Bool.or_eq_true, Bool.and_eq_true, decide_eq_true_eq, decide_eq_true_eq] at hrow
  rcases hrow with hbeyond | hsigns
  · have hascii : (markSigns.all fun w => w.toNat < 128) = true := by decide
    have hw' : w.toNat < 128 := by simpa using List.all_eq_true.1 hascii w hw
    have hfirst : pair.1 ≠ w.toNat := by omega
    have hsecond : pair.2 ≠ w.toNat := by omega
    simp [keepsForms, hfirst, hsecond]
  · exact List.all_eq_true.1 hsigns w hw

theorem fold_eq_iff (hw : w ∈ markSigns) :
    (w == c || fold w.toNat == fold c.toNat) = true ↔ c ∈ letterForms w := by
  constructor
  · intro h
    simp only [Bool.or_eq_true, beq_iff_eq] at h
    rcases h with rfl | hfold
    · exact mem_letterForms_self w
    · -- the sign is moved nowhere, so a pair of the table moves the other one to it
      have hstays : ∀ pair ∈ foldTable.pairs, pair.1 ≠ w.toNat := by
        intro pair hpair
        have hkeeps := keepsForms_of_mem hw hpair
        simp only [keepsForms, Bool.and_eq_true, bne_iff_ne] at hkeeps
        exact hkeeps.1
      rcases Moves.eq_or_mem_pairs_of_apply_eq (Moves.isIndexed_ofRuns foldRuns) hstays hfold with
        hsame | hmoved
      · obtain rfl : w = c := Char.toNat_inj.1 hsame
        exact mem_letterForms_self w
      · have hkeeps := keepsForms_of_mem hw hmoved
        simp only [keepsForms, bne_self_eq_false, Bool.false_or, Bool.and_eq_true,
          List.contains_iff_mem, Char.ofNat_toNat] at hkeeps
        exact hkeeps.2
  · exact List.all_eq_true.1 (List.all_eq_true.1 fold_letterForms w hw) c

theorem afterFolded?_eq_some_iff (hmark : ∀ w ∈ mark, w ∈ markSigns) :
    afterFolded? mark cs = some after ↔ ∃ form, InAnyCase mark form ∧ form ++ after = cs := by
  induction mark generalizing cs with
  | nil => simp [afterFolded?, InAnyCase, eq_comm]
  | cons w mark ih =>
      rw [List.forall_mem_cons] at hmark
      cases cs with
      | nil =>
          constructor
          · simp [afterFolded?]
          · rintro ⟨form, hform, hnil⟩
            obtain ⟨rfl, -⟩ := List.append_eq_nil_iff.1 hnil
            cases hform
      | cons c cs =>
          rw [afterFolded?, if_congr (fold_eq_iff hmark.1) rfl rfl]
          constructor
          · intro h
            split_ifs at h with hc
            obtain ⟨form, hform, rfl⟩ := (ih hmark.2).1 h
            exact ⟨c :: form, .cons hc hform, rfl⟩
          · rintro ⟨form, hform, htext⟩
            cases hform with
            | @cons _ d _ form hd hrest =>
                obtain ⟨rfl, hcs⟩ := List.cons.inj htext
                rw [if_pos hd, (ih hmark.2).2 ⟨form, hrest, hcs⟩]

theorem InAnyCase.afterFolded?_append (hform : InAnyCase mark form)
    (hmark : ∀ w ∈ mark, w ∈ markSigns) (after : List Char) :
    afterFolded? mark (form ++ after) = some after :=
  (afterFolded?_eq_some_iff hmark).2 ⟨form, hform, rfl⟩

theorem isSome_afterFolded?_iff (hmark : ∀ w ∈ mark, w ∈ markSigns) :
    (afterFolded? mark cs).isSome = true ↔ ∃ form, InAnyCase mark form ∧ form <+: cs := by
  rw [Option.isSome_iff_exists]
  constructor
  · rintro ⟨after, hafter⟩
    obtain ⟨form, hform, hcs⟩ := (afterFolded?_eq_some_iff hmark).1 hafter
    exact ⟨form, hform, after, hcs⟩
  · rintro ⟨form, hform, after, hcs⟩
    exact ⟨after, (afterFolded?_eq_some_iff hmark).2 ⟨form, hform, hcs⟩⟩

theorem holdsMark_cons_iff (hmark : ∀ w ∈ mark, w ∈ markSigns) :
    HoldsMark mark (c :: cs) ↔
      (afterFolded? mark (c :: cs)).isSome = true ∨ HoldsMark mark cs := by
  rw [isSome_afterFolded?_iff hmark]
  constructor
  · rintro ⟨form, hform, hoccurs⟩
    rcases List.infix_cons_iff.1 hoccurs with hstarts | hlater
    · exact Or.inl ⟨form, hform, hstarts⟩
    · exact Or.inr ⟨form, hform, hlater⟩
  · rintro (⟨form, hform, hstarts⟩ | ⟨form, hform, hlater⟩)
    · exact ⟨form, hform, hstarts.isInfix⟩
    · exact ⟨form, hform, List.infix_cons_iff.2 (Or.inr hlater)⟩

/-- Two marks with forms in front of one text share a form of every sign. -/
theorem exists_mem_letterForms {other form' after' : List Char} (hform : InAnyCase mark form)
    (hother : InAnyCase other form') (htext : form ++ after = form' ++ after') :
    ∀ signs ∈ mark.zip other, ∃ c, c ∈ letterForms signs.1 ∧ c ∈ letterForms signs.2 := by
  induction hform generalizing other form' with
  | nil => simp
  | @cons w c mark form hc hrest ih =>
      cases hother with
      | nil => simp
      | @cons w' c' other form' hc' hrest' =>
          obtain ⟨rfl, htail⟩ := List.cons.inj htext
          rw [List.zip_cons_cons, List.forall_mem_cons]
          exact ⟨⟨c, hc, hc'⟩, ih hrest' htail⟩

theorem not_holdsMark_nil (hne : mark ≠ []) : ¬ HoldsMark mark [] := by
  rintro ⟨form, hform, hoccurs⟩
  obtain rfl := List.infix_nil.1 hoccurs
  exact hne (List.forall₂_nil_right_iff.1 hform)

theorem HoldsMark.of_isInfix {part : List Char} (h : HoldsMark mark part) (hpart : part <:+: cs) :
    HoldsMark mark cs := by
  obtain ⟨form, hform, hoccurs⟩ := h
  exact ⟨form, hform, hoccurs.trans hpart⟩

theorem holdsMark_iff :
    HoldsMark mark cs ↔ ∃ tail ∈ cs.tails, InAnyCase mark (tail.take mark.length) := by
  constructor
  · rintro ⟨form, hform, front, back, rfl⟩
    refine ⟨form ++ back, (List.mem_tails _ _).2 ⟨front, by simp⟩, ?_⟩
    rw [hform.length_eq, List.take_left]
    exact hform
  · rintro ⟨tail, htail, hform⟩
    have hoccurs := (List.take_prefix mark.length tail).isInfix
    exact ⟨_, hform, hoccurs.trans ((List.mem_tails _ _).1 htail).isInfix⟩

instance (mark form : List Char) : Decidable (InAnyCase mark form) :=
  inferInstanceAs (Decidable (List.Forall₂ _ mark form))

instance (mark cs : List Char) : Decidable (HoldsMark mark cs) :=
  decidable_of_iff _ holdsMark_iff.symm

/-- A mark with a bracket at most in front. -/
def IsMark (mark : List Char) : Prop :=
  mark ≠ [] ∧ (∀ w ∈ mark, w ∈ markSigns) ∧ ∀ w ∈ mark.tail, '<' ∉ letterForms w

instance (mark : List Char) : Decidable (IsMark mark) :=
  @instDecidableAnd _ _ inferInstance
    (@instDecidableAnd _ _ (List.decidableBAll _ mark) (List.decidableBAll _ mark.tail))

/-- A mark does not reach across a bracket. -/
theorem IsMark.afterFolded?_append (hmark : IsMark mark) (hne : front ≠ [])
    (hfree : ¬ HoldsMark mark front) (back : List Char) :
    afterFolded? mark (front ++ '<' :: back) = none := by
  obtain ⟨hmarkNe, hsigns, htail⟩ := hmark
  obtain ⟨c, front, rfl⟩ := List.exists_cons_of_ne_nil hne
  obtain ⟨w, word, rfl⟩ := List.exists_cons_of_ne_nil hmarkNe
  rw [holdsMark_cons_iff hsigns, not_or, Option.not_isSome_iff_eq_none] at hfree
  have hnone := hfree.1
  have hfold := fold_eq_iff (c := c) (hsigns w List.mem_cons_self)
  rw [afterFolded?, if_congr hfold rfl rfl] at hnone
  rw [List.cons_append, afterFolded?, if_congr hfold rfl rfl]
  split_ifs at hnone ⊢
  · refine afterFolded?_append_cons (fun v hv => Bool.eq_false_iff.2 fun htrue => ?_) hnone back
    exact htail v hv ((fold_eq_iff (hsigns v (List.mem_cons_of_mem w hv))).1 htrue)
  · rfl

end BookRules.Unicode
