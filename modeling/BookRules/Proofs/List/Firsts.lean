import Mathlib.Data.List.Forall2

/-!
# First occurrences

Rows and books are kept when their address did not occur before.  What is kept of a list
has each key once and holds every key of the list.  What is kept of two lists in a row is
what is kept of the first one and, of the second one, what is kept of the items with new
keys, so that lists can be taken one after the other.
-/

namespace BookRules

variable {α β : Type} [DecidableEq β] {key : α → β}

/-- The items whose key does not occur earlier in the list. -/
def firstsBy (key : α → β) (items : List α) : List α :=
  items.eraseDupsBy fun a b => key a == key b

theorem firstsBy_nil : firstsBy key [] = [] :=
  rfl

theorem firstsBy_cons (a : α) (items : List α) :
    firstsBy key (a :: items) = a :: firstsBy key (items.filter fun b => key b ≠ key a) := by
  have hother : (fun b => decide ((key b == key a) = false)) =
      fun b => decide (key b ≠ key a) := by
    funext b
    simp
  unfold firstsBy
  rw [List.eraseDupsBy_cons, hother]

/-- Induction for what is kept: after an item come the later ones with other keys. -/
theorem firsts_induction (key : α → β) {motive : List α → Prop} (nil : motive [])
    (cons : ∀ a items, motive (items.filter fun b => key b ≠ key a) → motive (a :: items))
    (items : List α) : motive items := by
  induction hlength : items.length using Nat.strongRecOn generalizing items with
  | ind length ih =>
      cases items with
      | nil => exact nil
      | cons a items =>
          refine cons a items (ih _ ?_ _ rfl)
          have hle : (items.filter fun b => key b ≠ key a).length ≤ items.length :=
            List.length_filter_le _ items
          rw [← hlength, List.length_cons]
          omega

theorem firstsBy_sublist (key : α → β) (items : List α) :
    (firstsBy key items).Sublist items := by
  induction items using firsts_induction key with
  | nil => exact List.Sublist.refl []
  | cons a items ih =>
      rw [firstsBy_cons]
      exact (ih.trans List.filter_sublist).cons_cons a

theorem mem_map_firstsBy {items : List α} {k : β} :
    k ∈ (firstsBy key items).map key ↔ k ∈ items.map key := by
  induction items using firsts_induction key with
  | nil => rfl
  | cons a items ih =>
      have hother : k ∈ (items.filter fun b => key b ≠ key a).map key ↔
          k ∈ items.map key ∧ k ≠ key a := by
        simp only [List.mem_map, List.mem_filter, decide_eq_true_eq]
        constructor
        · rintro ⟨b, ⟨hb, hne⟩, rfl⟩
          exact ⟨⟨b, hb, rfl⟩, hne⟩
        · rintro ⟨⟨b, hb, rfl⟩, hne⟩
          exact ⟨b, ⟨hb, hne⟩, rfl⟩
      rw [firstsBy_cons, List.map_cons, List.mem_cons, ih, hother, List.map_cons, List.mem_cons]
      tauto

theorem nodup_map_firstsBy (key : α → β) (items : List α) :
    ((firstsBy key items).map key).Nodup := by
  induction items using firsts_induction key with
  | nil => exact List.nodup_nil
  | cons a items ih =>
      rw [firstsBy_cons, List.map_cons, List.nodup_cons]
      refine ⟨fun hmem => ?_, ih⟩
      obtain ⟨b, hb, heq⟩ := List.mem_map.1 (mem_map_firstsBy.1 hmem)
      simp [heq] at hb

theorem mem_firstsBy_id {items : List β} {k : β} : k ∈ firstsBy id items ↔ k ∈ items := by
  have h : k ∈ (firstsBy id items).map id ↔ k ∈ items.map id := mem_map_firstsBy
  simpa using h

theorem nodup_firstsBy_id (items : List β) : (firstsBy id items).Nodup := by
  simpa using nodup_map_firstsBy id items

theorem firstsBy_append (xs ys : List α) :
    firstsBy key (xs ++ ys) =
      firstsBy key xs ++ firstsBy key (ys.filter fun y => key y ∉ xs.map key) := by
  induction xs using firsts_induction key generalizing ys with
  | nil => simp [firstsBy_nil]
  | cons a xs ih =>
      have hother : ((ys.filter fun b => key b ≠ key a).filter fun y =>
            key y ∉ (xs.filter fun b => key b ≠ key a).map key) =
          ys.filter fun y => key y ∉ (a :: xs).map key := by
        rw [List.filter_filter]
        apply List.filter_congr
        intro y _
        simp only [List.mem_map, List.mem_filter, List.map_cons, List.mem_cons, decide_not]
        grind
      rw [List.cons_append, firstsBy_cons, List.filter_append, ih, hother, firstsBy_cons,
        List.cons_append]

theorem firstsBy_isPrefix {xs ys : List α} (h : xs <+: ys) :
    firstsBy key xs <+: firstsBy key ys := by
  obtain ⟨rest, rfl⟩ := h
  rw [firstsBy_append]
  exact List.prefix_append _ _

theorem firstsBy_append_congr {xs ys : List α} (zs : List α)
    (h : firstsBy key xs = firstsBy key ys) :
    firstsBy key (xs ++ zs) = firstsBy key (ys ++ zs) := by
  have hkeys : ∀ k, k ∈ xs.map key ↔ k ∈ ys.map key := by
    intro k
    rw [← mem_map_firstsBy, h, mem_map_firstsBy]
  simp only [firstsBy_append, h, hkeys]

theorem firstsBy_append_filter {xs ys : List α} {p : α → Bool}
    (h : ∀ y ∈ ys, p y = false → key y ∈ xs.map key) :
    firstsBy key (xs ++ ys.filter p) = firstsBy key (xs ++ ys) := by
  have hfilter : (ys.filter p).filter (fun y => key y ∉ xs.map key) =
      ys.filter fun y => key y ∉ xs.map key := by
    rw [List.filter_filter]
    apply List.filter_congr
    intro y hy
    cases hp : p y with
    | true => simp
    | false => simp [h y hy hp]
  rw [firstsBy_append, hfilter, ← firstsBy_append]

theorem firstsBy_append_of_known {xs ys : List α} (h : ∀ y ∈ ys, key y ∈ xs.map key) :
    firstsBy key (xs ++ ys) = firstsBy key xs := by
  have hnone : ys.filter (fun _ => false) = [] := by simp
  rw [← firstsBy_append_filter (fun y hy _ => h y hy), hnone, List.append_nil]

/-- A list that is gone through once, with what is known of the keys that were seen, gives
what is kept of the items with other keys. -/
theorem eq_firstsBy_of_known {σ : Type} (key : α → β) (known : σ → β → Bool) (learn : β → σ → σ)
    (hlearn : ∀ seen k k', known (learn k seen) k' = (decide (k' = k) || known seen k'))
    (scan : σ → List α → List α) (hnil : ∀ seen, scan seen [] = [])
    (hcons : ∀ seen a items, scan seen (a :: items) =
      if known seen (key a) then scan seen items else a :: scan (learn (key a) seen) items)
    (seen : σ) (items : List α) :
    scan seen items = firstsBy key (items.filter fun a => !known seen (key a)) := by
  induction items generalizing seen with
  | nil => exact hnil seen
  | cons a items ih =>
      rw [hcons]
      by_cases hseen : known seen (key a) = true
      · rw [if_pos hseen, ih, List.filter_cons_of_neg (by simpa using hseen)]
      · have hother : (items.filter fun b => !known seen (key b)).filter (fun b => key b ≠ key a) =
            items.filter fun b => !known (learn (key a) seen) (key b) := by
          rw [List.filter_filter]
          apply List.filter_congr
          intro b _
          simp [hlearn]
        rw [if_neg hseen, ih, List.filter_cons_of_pos (by simpa using hseen), firstsBy_cons,
          hother]

theorem eq_firstsBy_of_scan (scan : List β → List α → List α)
    (hnil : ∀ seen, scan seen [] = [])
    (hcons : ∀ seen a items, scan seen (a :: items) =
      if key a ∈ seen then scan seen items else a :: scan (key a :: seen) items)
    (seen : List β) (items : List α) :
    scan seen items = firstsBy key (items.filter fun a => key a ∉ seen) := by
  have hscan := eq_firstsBy_of_known key (fun seen k => decide (k ∈ seen)) List.cons
    (fun seen k k' => by simp) scan hnil (fun seen a items => by simp [hcons]) seen items
  simpa using hscan

/-- What is kept of several lists is a part of each one, list after list. -/
theorem exists_firstsBy_flatten (key : α → β) (lists : List (List α)) :
    ∃ kept, firstsBy key lists.flatten = kept.flatten ∧ List.Forall₂ List.Sublist kept lists := by
  suffices h : ∀ p : α → Bool, ∃ kept, firstsBy key (lists.flatten.filter p) = kept.flatten ∧
      List.Forall₂ List.Sublist kept lists by
    simpa only [List.filter_true] using h fun _ => true
  induction lists with
  | nil => exact fun p => ⟨[], rfl, List.Forall₂.nil⟩
  | cons items lists ih =>
      intro p
      obtain ⟨kept, hkept, hsublists⟩ :=
        ih fun a => decide (key a ∉ (items.filter p).map key) && p a
      refine ⟨firstsBy key (items.filter p) :: kept, ?_,
        List.Forall₂.cons ((firstsBy_sublist key _).trans List.filter_sublist) hsublists⟩
      rw [List.flatten_cons, List.filter_append, firstsBy_append, List.filter_filter, hkept,
        List.flatten_cons]

theorem firstsBy_eq_self {items : List α} (h : (items.map key).Nodup) :
    firstsBy key items = items := by
  apply (firstsBy_sublist key items).eq_of_length
  have hmap : (items.map key).Perm ((firstsBy key items).map key) :=
    (List.perm_ext_iff_of_nodup h (nodup_map_firstsBy key items)).2 fun _ => mem_map_firstsBy.symm
  simpa using hmap.length_eq.symm

end BookRules
