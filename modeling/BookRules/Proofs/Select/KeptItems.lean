import BookRules.Proofs.Select.Slices
import Mathlib.Data.List.Perm.Basic

/-!
# Items kept and items dropped

A filter that keeps takes the items at its positions out of their slots, and one that drops
passes over the same positions.  A position that is named twice, or once from each end,
counts once, so no slot is empty when it is reached, and between them the two filters give
every item exactly once.
-/

namespace BookRules.Select

variable {α : Type} {entry : IndexEntry} {entries : List IndexEntry} {items : List α}
  {positions : List Nat}

/-! ## Positions -/

namespace IndexEntry

variable {len lo hi missing bound : Int} {n? : Option Int}

theorem bound?_between (h : bound? len lo hi missing n? = some bound) :
    lo ≤ bound ∧ bound ≤ hi := by
  have hclamp : ∀ n, clamp? lo hi n = some bound → lo ≤ bound ∧ bound ≤ hi := by
    intro n hn
    unfold clamp? at hn
    split_ifs at hn <;> obtain rfl := Option.some.inj hn <;> omega
  cases n? with
  | none => exact hclamp missing h
  | some n =>
      obtain ⟨place, -, hplace⟩ := Option.bind_eq_some_iff.1 h
      exact hclamp place hplace

theorem lt_of_mem_positions? (h : entry.positions? len = some positions) :
    ∀ p ∈ positions, (p : Int) < len := by
  intro p hp
  cases entry with
  | single n =>
      obtain ⟨i, -, hi⟩ := Option.bind_eq_some_iff.1 h
      obtain rfl := Option.some.inj hi
      split_ifs at hp with hin
      · obtain rfl := List.mem_singleton.1 hp
        omega
      · simp at hp
  | slice start? stop? step? =>
      simp only [positions?] at h
      split_ifs at h with hup
      · obtain ⟨stop, hstop, h⟩ := Option.bind_eq_some_iff.1 h
        obtain ⟨start, hstart, h⟩ := Option.bind_eq_some_iff.1 h
        obtain rfl := Option.some.inj h
        obtain ⟨x, rfl, hbefore, hafter, -⟩ := exists_of_mem_walk hp
        have := bound?_between hstop
        have := bound?_between hstart
        have := hafter hup
        unfold Before at hbefore
        omega
      · obtain ⟨last, hlast, h⟩ := Option.bind_eq_some_iff.1 h
        obtain ⟨stop, hstop, h⟩ := Option.bind_eq_some_iff.1 h
        obtain ⟨start, hstart, h⟩ := Option.bind_eq_some_iff.1 h
        obtain rfl := Option.some.inj h
        obtain ⟨x, rfl, hbefore, -, hafter⟩ := exists_of_mem_walk hp
        have hlast : last = len - 1 := by
          unfold Word.checked64? at hlast
          split_ifs at hlast
          exact (Option.some.inj hlast).symm
        have := bound?_between hstop
        have := bound?_between hstart
        unfold Before at hbefore
        have hdown : stride step? < 0 := by omega
        have := hafter hdown
        omega

end IndexEntry

namespace IndexFilter

theorem nodup_positions (filter : IndexFilter) (len : Nat) : (filter.positions len).Nodup := by
  rw [positions_eq]
  simpa using nodup_map_firstsBy id (filter.entries.flatMap (IndexEntry.positions len))

theorem lt_of_mem_positions {filter : IndexFilter} {len p : Nat} (h : p ∈ filter.positions len) :
    p < len := by
  rw [positions_eq] at h
  obtain ⟨entry, -, hentry⟩ := List.mem_flatMap.1 ((firstsBy_sublist id _).mem h)
  unfold IndexEntry.positions at hentry
  cases hfound : entry.positions? (Word.signed64 len) with
  | none => simp [hfound] at hentry
  | some found =>
      rw [hfound, Option.getD_some] at hentry
      have hlt := IndexEntry.lt_of_mem_positions? hfound p hentry
      have hword := Word.signed64_le len
      omega

/-! ## Items -/

/-- What stands at each of the positions. -/
def StandAt (items : List α) (positions : List Nat) (found : List α) : Prop :=
  List.Forall₂ (fun p item => items[p]? = some item) positions found

theorem standAt_takeOut {slots : Array (Option α)} (hnodup : positions.Nodup)
    (hslots : ∀ p ∈ positions, ∃ item, items[p]? = some item ∧ slots[p]? = some (some item)) :
    StandAt items positions (takeOut slots positions) := by
  induction positions generalizing slots with
  | nil => exact .nil
  | cons p rest ih =>
      obtain ⟨item, hitem, hslot⟩ := hslots p List.mem_cons_self
      rw [List.nodup_cons] at hnodup
      rw [takeOut, hslot]
      refine .cons hitem (ih hnodup.2 fun q hq => ?_)
      obtain ⟨other, hother, hfull⟩ := hslots q (List.mem_cons_of_mem p hq)
      -- the slot that was emptied is not asked again
      have hne : p ≠ q := fun heq => hnodup.1 (heq ▸ hq)
      exact ⟨other, hother, by rw [Array.getElem?_setIfInBounds_ne hne, hfull]⟩

theorem standAt_kept (entries : List IndexEntry) (items : List α) :
    let filter : IndexFilter := { exclude := false, entries }
    StandAt items (filter.positions items.length) (filter.apply items) := by
  intro filter
  apply standAt_takeOut (nodup_positions filter items.length)
  intro p hp
  have hlt : p < items.length := lt_of_mem_positions hp
  exact ⟨items[p], List.getElem?_eq_getElem hlt, by simp [hlt]⟩

/-- The positions that a filter does not select. -/
def otherPositions (filter : IndexFilter) (len : Nat) : List Nat :=
  (List.range len).filter fun p => p ∉ filter.positions len

theorem standAt_dropped (entries : List IndexEntry) (items : List α) :
    let filter : IndexFilter := { exclude := true, entries }
    StandAt items (filter.otherPositions items.length) (filter.apply items) := by
  intro filter
  let left (row : α × Nat) : Bool := decide (row.2 ∉ filter.positions items.length)
  have hfound : filter.apply items = (items.zipIdx.filter left).map Prod.fst := by
    have hleft : (fun row : α × Nat =>
        !(Std.HashSet.ofList (filter.positions items.length)).contains row.2) = left := by
      funext row
      simp [left]
    rw [← hleft]
    rfl
  have hpositions : filter.otherPositions items.length =
      (items.zipIdx.filter left).map Prod.snd := by
    unfold otherPositions
    rw [List.range_eq_range', ← List.zipIdx_map_snd 0 items, List.filter_map]
    rfl
  rw [hfound, hpositions]
  unfold StandAt
  rw [List.forall₂_map_left_iff, List.forall₂_map_right_iff, List.forall₂_same]
  intro row hrow
  have hmem := List.mem_of_mem_filter hrow
  obtain ⟨hlt, hitem⟩ := List.mem_zipIdx' hmem
  rw [List.getElem?_eq_getElem hlt, hitem]

theorem StandAt.map_some {found : List α} (h : StandAt items positions found) :
    found.map some = positions.map (items[·]?) := by
  induction h with
  | nil => rfl
  | cons hitem _ ih => rw [List.map_cons, List.map_cons, hitem, ih]

/-- A filter and its opposite share out the positions. -/
theorem positions_append_otherPositions_perm (filter : IndexFilter) (len : Nat) :
    (filter.positions len ++ filter.otherPositions len).Perm (List.range len) := by
  unfold otherPositions
  have hrange : (List.range len).Nodup := List.nodup_range
  have hdisjoint : List.Disjoint (filter.positions len)
      ((List.range len).filter fun p => p ∉ filter.positions len) := by
    intro p hp hother
    simp [hp] at hother
  have hnodup := (nodup_positions filter len).append (hrange.filter _) hdisjoint
  rw [List.perm_ext_iff_of_nodup hnodup hrange]
  intro p
  have hlt : p ∈ filter.positions len → p < len := lt_of_mem_positions
  simp only [List.mem_append, List.mem_filter, List.mem_range, decide_eq_true_eq]
  tauto

/-- A filter that keeps gives the items at its positions, one for each and in their order; one
that drops gives the other items in the order of the list; together they give all items. -/
theorem kept_and_dropped (entries : List IndexEntry) (items : List α) :
    let keep : IndexFilter := { exclude := false, entries }
    let drop : IndexFilter := { exclude := true, entries }
    let positions := keep.positions items.length
    positions.Nodup ∧ (∀ p ∈ positions, p < items.length) ∧
      drop.positions items.length = positions ∧
      StandAt items positions (keep.apply items) ∧
      StandAt items ((List.range items.length).filter fun p => p ∉ positions)
        (drop.apply items) ∧
      (keep.apply items ++ drop.apply items).Perm items := by
  intro keep drop positions
  have hkept : StandAt items positions (keep.apply items) := standAt_kept entries items
  have hdropped : StandAt items (keep.otherPositions items.length) (drop.apply items) :=
    standAt_dropped entries items
  refine ⟨nodup_positions keep items.length, fun p hp => lt_of_mem_positions hp, rfl, hkept,
    hdropped, ?_⟩
  have hall : (List.range items.length).map (items[·]?) = items.map some := by
    apply List.ext_getElem <;> simp
  have hsome : ((keep.apply items ++ drop.apply items).map some).Perm (items.map some) := by
    rw [List.map_append, hkept.map_some, hdropped.map_some, ← List.map_append, ← hall]
    exact (positions_append_otherPositions_perm keep items.length).map _
  exact (List.map_perm_map_iff (Option.some_injective α)).1 hsome

end IndexFilter

end BookRules.Select
