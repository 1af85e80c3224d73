import BookRules.Bindings
import Mathlib.Data.List.Basic
import Mathlib.Data.List.Nodup
import Mathlib.Data.List.Perm.Basic
import Mathlib.Data.String.Basic
import Mathlib.Tactic.SplitIfs

/-!
# Names with their texts

A name that is bound has the text it was given last, and giving it one changes no other name.
The names stay in order, each of them once, whatever the order of the pairs they come from,
and which names are bound does not depend on the texts.
-/

namespace BookRules.Bindings

variable {bindings : Bindings} {pair : String × String}

theorem get?_set (bindings : Bindings) (name text other : String) :
    get? other (set name text bindings) =
      if name = other then some text else get? other bindings := by
  induction bindings with
  | nil => rfl
  | cons binding rest ih =>
      obtain ⟨k, v⟩ := binding
      by_cases hk : k = name
      · subst hk
        by_cases hother : k = other
        · simp [set, get?, hother]
        · simp [set, get?, hother]
      · by_cases hbefore : name < k
        · rw [set, if_neg hk, if_pos hbefore]
          rfl
        · rw [set, if_neg hk, if_neg hbefore, get?, get?, ih]
          by_cases hother : k = other
          · rw [if_pos hother, if_pos hother, if_neg fun h => hk (hother.trans h.symm)]
          · rw [if_neg hother, if_neg hother]

theorem get?_eq_none {pairs : Bindings} {name : String} (h : name ∉ pairs.map Prod.fst) :
    get? name pairs = none := by
  induction pairs with
  | nil => rfl
  | cons pair rest ih =>
      obtain ⟨k, v⟩ := pair
      rw [List.map_cons, List.mem_cons, not_or] at h
      rw [get?, if_neg (Ne.symm h.1), ih h.2]

/-- Names that are bound again have their new texts, the others keep theirs. -/
theorem get?_setAll {pairs : Bindings} (h : (pairs.map Prod.fst).Nodup) (bindings : Bindings)
    (name : String) :
    get? name (setAll pairs bindings) = (get? name pairs).or (get? name bindings) := by
  induction pairs generalizing bindings with
  | nil => rfl
  | cons pair rest ih =>
      obtain ⟨k, v⟩ := pair
      rw [List.map_cons, List.nodup_cons] at h
      have hrest : get? name (setAll ((k, v) :: rest) bindings) =
          (get? name rest).or (get? name (set k v bindings)) := ih h.2 _
      rw [hrest, get?_set, get?]
      by_cases hname : k = name
      · rw [if_pos hname, if_pos hname, get?_eq_none (hname ▸ h.1), Option.none_or, Option.some_or]
      · rw [if_neg hname, if_neg hname]

theorem get?_ofPairs {pairs : Bindings} (h : (pairs.map Prod.fst).Nodup) (name : String) :
    get? name (ofPairs pairs) = get? name pairs := by
  rw [ofPairs, get?_setAll h]
  simp [get?]

/-! ## The order of the names -/

/-- The names are in order, each of them once. -/
def Ordered (bindings : Bindings) : Prop :=
  bindings.Pairwise fun a b => a.1 < b.1

theorem eq_or_mem_of_mem_set {name text : String} (h : pair ∈ set name text bindings) :
    pair.1 = name ∨ pair ∈ bindings := by
  induction bindings with
  | nil =>
      obtain rfl := List.mem_singleton.1 h
      exact .inl rfl
  | cons binding rest ih =>
      obtain ⟨k, v⟩ := binding
      unfold set at h
      split_ifs at h with hk hbefore
      · rcases List.mem_cons.1 h with rfl | hrest
        · exact .inl rfl
        · exact .inr (List.mem_cons_of_mem _ hrest)
      · rcases List.mem_cons.1 h with rfl | hrest
        · exact .inl rfl
        · exact .inr hrest
      · rcases List.mem_cons.1 h with rfl | hrest
        · exact .inr List.mem_cons_self
        · exact (ih hrest).imp_right (List.mem_cons_of_mem _)

theorem Ordered.set (h : Ordered bindings) (name text : String) :
    Ordered (Bindings.set name text bindings) := by
  induction bindings with
  | nil => exact List.pairwise_singleton _ _
  | cons binding rest ih =>
      obtain ⟨k, v⟩ := binding
      obtain ⟨hfirst, hrest⟩ := List.pairwise_cons.1 h
      unfold Bindings.set
      split_ifs with hk hbefore
      · subst hk
        exact List.pairwise_cons.2 ⟨hfirst, hrest⟩
      · refine List.pairwise_cons.2 ⟨fun pair hpair => ?_, h⟩
        rcases List.mem_cons.1 hpair with rfl | hlater
        · exact hbefore
        · exact lt_trans hbefore (hfirst pair hlater)
      · have hbehind : k < name := lt_of_le_of_ne (not_lt.1 hbefore) hk
        refine List.pairwise_cons.2 ⟨fun pair hpair => ?_, ih hrest⟩
        rcases eq_or_mem_of_mem_set hpair with hname | hold
        · exact hname ▸ hbehind
        · exact hfirst pair hold

theorem ordered_setAll (pairs : List (String × String)) (h : Ordered bindings) :
    Ordered (setAll pairs bindings) := by
  induction pairs generalizing bindings with
  | nil => exact h
  | cons pair rest ih => exact ih (h.set pair.1 pair.2)

theorem ordered_ofPairs (pairs : List (String × String)) : Ordered (ofPairs pairs) :=
  ordered_setAll pairs List.Pairwise.nil

/-- A new name takes its place among the others. -/
theorem set_perm {name : String} (h : name ∉ bindings.map Prod.fst) (text : String) :
    (set name text bindings).Perm ((name, text) :: bindings) := by
  induction bindings with
  | nil => exact .refl _
  | cons binding rest ih =>
      obtain ⟨k, v⟩ := binding
      rw [List.map_cons, List.mem_cons, not_or] at h
      unfold set
      rw [if_neg (Ne.symm h.1)]
      split_ifs
      · exact .refl _
      · exact ((ih h.2).cons (k, v)).trans (.swap _ _ _)

theorem setAll_perm {pairs : List (String × String)}
    (h : ((pairs ++ bindings).map Prod.fst).Nodup) :
    (setAll pairs bindings).Perm (pairs ++ bindings) := by
  induction pairs generalizing bindings with
  | nil => exact .refl _
  | cons pair rest ih =>
      obtain ⟨name, text⟩ := pair
      have hnew : name ∉ bindings.map Prod.fst := by
        rw [List.cons_append, List.map_cons, List.nodup_cons, List.map_append] at h
        exact fun hmem => h.1 (List.mem_append_right _ hmem)
      have hperm : (rest ++ set name text bindings).Perm ((name, text) :: rest ++ bindings) :=
        ((set_perm hnew text).append_left rest).trans List.perm_middle
      exact (ih ((hperm.map Prod.fst).nodup_iff.2 h)).trans hperm

theorem Ordered.nodup (h : Ordered bindings) : (bindings.map Prod.fst).Nodup :=
  List.pairwise_map.2 (h.imp fun hlt => hlt.ne)

/-- Bindings that are given in any order come out in the order of their names. -/
theorem ofPairs_eq_of_perm {pairs : List (String × String)} (h : Ordered bindings)
    (hperm : pairs.Perm bindings) : ofPairs pairs = bindings := by
  have hnames : ((pairs ++ []).map Prod.fst).Nodup := by
    rw [List.append_nil]
    exact (hperm.map Prod.fst).nodup_iff.2 h.nodup
  have hall : (setAll pairs []).Perm bindings := by
    simpa using (setAll_perm hnames).trans (hperm.append_right [])
  exact hall.eq_of_pairwise (fun a b _ _ hab hba => absurd hba hab.not_gt)
    (ordered_ofPairs pairs) h

/-! ## Which names are bound -/

theorem map_fst_set {bindings' : Bindings}
    (h : bindings.map Prod.fst = bindings'.map Prod.fst) (name text text' : String) :
    (set name text bindings).map Prod.fst =
      (set name text' bindings').map Prod.fst := by
  induction bindings generalizing bindings' with
  | nil =>
      obtain rfl : bindings' = [] := by simpa using h.symm
      rfl
  | cons binding rest ih =>
      obtain ⟨k, v⟩ := binding
      cases bindings' with
      | nil => simp at h
      | cons binding' rest' =>
          obtain ⟨k', v'⟩ := binding'
          obtain ⟨rfl, hrest⟩ : k = k' ∧ rest.map Prod.fst = rest'.map Prod.fst := by simpa using h
          simp only [set]
          split_ifs <;> simp [hrest, ih hrest]

/-- Which names are bound does not depend on their texts. -/
theorem map_fst_setAll {pairs pairs' : List (String × String)} {bindings' : Bindings}
    (hpairs : pairs.map Prod.fst = pairs'.map Prod.fst)
    (hbindings : bindings.map Prod.fst = bindings'.map Prod.fst) :
    (setAll pairs bindings).map Prod.fst =
      (setAll pairs' bindings').map Prod.fst := by
  induction pairs generalizing pairs' bindings bindings' with
  | nil =>
      obtain rfl : pairs' = [] := by simpa using hpairs.symm
      exact hbindings
  | cons pair rest ih =>
      cases pairs' with
      | nil => simp at hpairs
      | cons pair' rest' =>
          obtain ⟨hname, hrest⟩ : pair.1 = pair'.1 ∧
            rest.map Prod.fst = rest'.map Prod.fst := by simpa using hpairs
          change (setAll rest (set pair.1 pair.2 bindings)).map Prod.fst =
            (setAll rest' (set pair'.1 pair'.2 bindings')).map Prod.fst
          rw [← hname]
          exact ih hrest (map_fst_set hbindings _ _ _)

end BookRules.Bindings
