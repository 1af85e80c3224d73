import BookRules.Rule.Combinator
import Mathlib.Data.List.Perm.Basic

/-!
# Merged answers

What a combinator makes of any number of answers.  `&&` gives all of them one behind the
other; `||` gives the first that is not empty and asks for none behind it; `%%` deals the
answers out in rounds.

Dealing takes the next item off every answer in turn, as often as the first answer has
items.  To follow the items, each is labelled with its place, that is the round it belongs
to and the answer it comes from: dealing does not look at the items, so the labels travel
with them, and the places come out in the order of the rounds, each once.
-/

namespace BookRules.Rule.Combinator

variable {ι α β : Type}

/-! ## Rounds -/

theorem rounds_map (f : α → β) (n : Nat) (columns : List (List α)) :
    rounds n (columns.map (List.map f)) = (rounds n columns).map f := by
  induction n generalizing columns with
  | zero => rfl
  | succ n ih =>
      have htails : (columns.map (List.map f)).map List.tail =
          (columns.map List.tail).map (List.map f) := by
        simp [List.map_tail]
      rw [rounds, rounds, htails, ih, List.map_append, List.filterMap_map, List.map_filterMap]
      simp

/-- The items at one index, in the order of the lists. -/
def column (lists : List (List α)) (i : Nat) : List α :=
  lists.filterMap (·[i]?)

theorem rounds_eq_flatMap (n : Nat) (columns : List (List α)) :
    rounds n columns = (List.range n).flatMap (column columns) := by
  induction n generalizing columns with
  | zero => rfl
  | succ n ih =>
      have hfirst : column columns 0 = columns.filterMap List.head? := by
        simp only [column, List.head?_eq_getElem?]
      have hlater : ∀ i, column columns (i + 1) = column (columns.map List.tail) i := by
        intro i
        simp [column, List.filterMap_map, List.getElem?_tail]
      rw [rounds, ih, List.range_succ_eq_map, List.flatMap_cons, List.flatMap_map, hfirst]
      simp only [hlater]

/-- Each list gives as many items as there are rounds, if it has them. -/
theorem rounds_perm (n : Nat) (columns : List (List α)) :
    (rounds n columns).Perm (columns.flatMap (List.take n)) := by
  induction n generalizing columns with
  | zero => simp [rounds]
  | succ n ih =>
      have hfirst : columns.filterMap List.head? =
          columns.flatMap fun list => list.head?.toList := List.filterMap_eq_flatMap_toList ..
      have hstep : columns.flatMap (List.take (n + 1)) =
          columns.flatMap fun list => list.head?.toList ++ list.tail.take n := by
        congr 1
        funext list
        cases list <;> simp
      have hlater : (columns.map List.tail).flatMap (List.take n) =
          columns.flatMap fun list => list.tail.take n := List.flatMap_map ..
      rw [rounds, hfirst, hstep]
      exact ((ih _).append_left _).trans (hlater ▸ List.flatMap_append_perm ..)

theorem length_flatMap_take (n : Nat) (lists : List (List α)) :
    (lists.flatMap (List.take n)).length =
      (lists.map fun list => Nat.min list.length n).foldr Nat.add 0 := by
  induction lists with
  | nil => rfl
  | cons list lists ih =>
      rw [List.flatMap_cons, List.length_append, ih, List.length_take, Nat.min_comm]
      rfl

/-! ## Places -/

/-- Where a merged item comes from. -/
structure Place where
  round : Nat
  fragment : Nat

/-- An earlier round, or an earlier answer in one round. -/
def Place.Before (p q : Place) : Prop :=
  p.round < q.round ∨ p.round = q.round ∧ p.fragment < q.fragment

def itemAt? (lists : List (List α)) (p : Place) : Option α :=
  lists[p.fragment]?.bind (·[p.round]?)

theorem column_eq (lists : List (List α)) (i : Nat) :
    column lists i = (List.range lists.length).filterMap fun j => itemAt? lists ⟨i, j⟩ := by
  unfold column itemAt?
  induction lists with
  | nil => rfl
  | cons list lists ih =>
      rw [List.length_cons, List.range_succ_eq_map, List.filterMap_cons, List.filterMap_cons,
        List.filterMap_map, ih]
      rfl

/-- Every item with its place. -/
def labelled (lists : List (List α)) : List (List (Place × α)) :=
  lists.mapIdx fun fragment list => list.mapIdx fun round item => (⟨round, fragment⟩, item)

/-- The items that are dealt out, with their places. -/
def dealt (lists : List (List α)) : List (Place × α) :=
  interleave (labelled lists)

section Dealt

variable {lists : List (List α)} {row : Place × α}

theorem itemAt?_labelled (lists : List (List α)) (p : Place) :
    itemAt? (labelled lists) p = (itemAt? lists p).map (p, ·) := by
  unfold itemAt? labelled
  rw [List.getElem?_mapIdx]
  cases lists[p.fragment]? <;> simp

theorem map_snd_labelled (lists : List (List α)) :
    (labelled lists).map (List.map Prod.snd) = lists := by
  apply List.ext_getElem?
  intro j
  rw [labelled, List.getElem?_map, List.getElem?_mapIdx, Option.map_map]
  cases lists[j]? with
  | none => rfl
  | some list =>
      refine congrArg some (List.ext_getElem? fun i => ?_)
      simp [Function.comp_def]

theorem length_headD_labelled (lists : List (List α)) :
    ((labelled lists).headD []).length = (lists.headD []).length := by
  cases lists <;> simp [labelled]

theorem dealt_eq_flatMap (lists : List (List α)) :
    dealt lists = (List.range (lists.headD []).length).flatMap fun i =>
      (List.range lists.length).filterMap fun j =>
        (itemAt? lists ⟨i, j⟩).map ((⟨i, j⟩ : Place), ·) := by
  have hlength : (labelled lists).length = lists.length := by simp [labelled]
  rw [dealt, interleave, rounds_eq_flatMap, length_headD_labelled]
  simp only [funext (column_eq (labelled lists)), hlength, itemAt?_labelled]

/-- The items are merged whatever their labels are. -/
theorem map_snd_dealt (lists : List (List α)) :
    (dealt lists).map Prod.snd = interleave lists := by
  rw [dealt, interleave, ← rounds_map, map_snd_labelled, length_headD_labelled, interleave]

theorem mem_dealt_iff : row ∈ dealt lists ↔
    row.1.round < (lists.headD []).length ∧ itemAt? lists row.1 = some row.2 := by
  have hfragment : itemAt? lists row.1 = some row.2 → row.1.fragment < lists.length := by
    intro hitem
    obtain ⟨list, hlist, -⟩ := Option.bind_eq_some_iff.1 hitem
    exact (List.getElem?_eq_some_iff.1 hlist).1
  rw [dealt_eq_flatMap]
  simp only [List.mem_flatMap, List.mem_filterMap, List.mem_range]
  constructor
  · rintro ⟨i, hi, j, hj, hrow⟩
    obtain ⟨item, hitem, rfl⟩ := Option.map_eq_some_iff.1 hrow
    exact ⟨hi, hitem⟩
  · rintro ⟨hround, hitem⟩
    exact ⟨row.1.round, hround, row.1.fragment, hfragment hitem,
      Option.map_eq_some_iff.2 ⟨row.2, hitem, rfl⟩⟩

theorem pairwise_dealt (lists : List (List α)) :
    (dealt lists).Pairwise fun row other => row.1.Before other.1 := by
  rw [dealt_eq_flatMap, List.pairwise_flatMap]
  constructor
  · intro i hi
    rw [List.pairwise_filterMap]
    refine List.pairwise_lt_range.imp fun hlt row hrow other hother => ?_
    obtain ⟨item, -, rfl⟩ := Option.map_eq_some_iff.1 hrow
    obtain ⟨item', -, rfl⟩ := Option.map_eq_some_iff.1 hother
    exact Or.inr ⟨rfl, hlt⟩
  · refine List.pairwise_lt_range.imp fun hlt row hrow other hother => ?_
    obtain ⟨j, -, hitem⟩ := List.mem_filterMap.1 hrow
    obtain ⟨item, -, rfl⟩ := Option.map_eq_some_iff.1 hitem
    obtain ⟨j', -, hitem'⟩ := List.mem_filterMap.1 hother
    obtain ⟨item', -, rfl⟩ := Option.map_eq_some_iff.1 hitem'
    exact Or.inl hlt

end Dealt

/-! ## One of the answers -/

theorem filterMap_range_ite (g : Nat → Option β) (j n : Nat) :
    ((List.range n).filterMap fun k => if k = j then g k else Option.none) =
      if j < n then (g j).toList else [] := by
  induction n with
  | zero => rfl
  | succ n ih =>
      rw [List.range_succ, List.filterMap_append, ih]
      by_cases hn : n = j
      · subst hn
        cases hg : g n <;> simp [hg]
      · have hiff : j < n ↔ j < n + 1 := by omega
        simp [hn, hiff]

theorem flatMap_range_getElem? (list : List α) (n : Nat) :
    ((List.range n).flatMap fun i => list[i]?.toList) = list.take n := by
  induction n with
  | zero => rfl
  | succ n ih =>
      rw [List.range_succ, List.flatMap_append, ih, List.take_add_one]
      simp

theorem map_snd_filter_dealt (lists : List (List α)) (j : Nat) :
    ((dealt lists).filter fun row => row.1.fragment == j).map Prod.snd =
      (lists[j]?.getD []).take (lists.headD []).length := by
  have hone : ∀ i k, (((itemAt? lists ⟨i, k⟩).map ((⟨i, k⟩ : Place), ·)).filter
      fun row => row.1.fragment == j).map Prod.snd =
        if k = j then itemAt? lists ⟨i, k⟩ else Option.none := by
    intro i k
    cases itemAt? lists ⟨i, k⟩ <;> by_cases hk : k = j <;> simp [hk]
  rw [dealt_eq_flatMap, List.filter_flatMap, List.map_flatMap, ← flatMap_range_getElem?]
  congr 1
  funext i
  rw [List.filter_filterMap, List.map_filterMap, funext (hone i), filterMap_range_ite]
  by_cases hj : j < lists.length <;> simp [itemAt?, hj]

/-- The items that came from one of the answers. -/
def itemsOf (fragment : Nat) (places : List Place) (items : List α) : List α :=
  ((places.zip items).filter fun row => row.1.fragment == fragment).map Prod.snd

/-- Items dealt out in rounds, as many as the first list has items: they come in the order of
their places, and every place is there at which a list has an item. -/
structure DealtOut (lists : List (List α)) (places : List Place) (items : List α) : Prop where
  inTurn : places.Pairwise Place.Before
  mem_iff : ∀ p, p ∈ places ↔ p.round < (lists.headD []).length ∧ (itemAt? lists p).isSome
  items_eq : items.map some = places.map (itemAt? lists)

theorem dealtOut_interleave (lists : List (List α)) :
    DealtOut lists ((dealt lists).map Prod.fst) (interleave lists) where
  inTurn := List.pairwise_map.2 (pairwise_dealt lists)
  mem_iff p := by
    rw [List.mem_map]
    constructor
    · rintro ⟨row, hrow, rfl⟩
      obtain ⟨hround, hitem⟩ := mem_dealt_iff.1 hrow
      exact ⟨hround, by rw [hitem]; rfl⟩
    · rintro ⟨hround, hitem⟩
      obtain ⟨item, hitem⟩ := Option.isSome_iff_exists.1 hitem
      exact ⟨(p, item), mem_dealt_iff.2 ⟨hround, hitem⟩, rfl⟩
  items_eq := by
    rw [← map_snd_dealt, List.map_map, List.map_map]
    apply List.map_congr_left
    intro row hrow
    exact (mem_dealt_iff.1 hrow).2.symm

theorem itemsOf_interleave (lists : List (List α)) (j : Nat) :
    itemsOf j ((dealt lists).map Prod.fst) (interleave lists) =
      (lists[j]?.getD []).take (lists.headD []).length := by
  have hrows : ((dealt lists).map Prod.fst).zip (interleave lists) = dealt lists := by
    rw [← map_snd_dealt, List.zip_map']
    exact List.map_id _
  rw [itemsOf, hrows, map_snd_filter_dealt]

/-! ## Combinators -/

theorem firstNonempty_cases (eval : ι → List α) (xs : List ι) :
    (∃ front x back, xs = front ++ x :: back ∧ (∀ y ∈ front, eval y = []) ∧ eval x ≠ [] ∧
        firstNonempty eval xs = (eval x, front.length + 1)) ∨
      (∀ x ∈ xs, eval x = []) ∧ firstNonempty eval xs = ([], xs.length) := by
  induction xs with
  | nil => exact Or.inr ⟨by simp, rfl⟩
  | cons x xs ih =>
      by_cases hx : eval x = []
      · rcases ih with ⟨front, y, back, rfl, hfront, hy, hfound⟩ | ⟨hall, hfound⟩
        · refine Or.inl ⟨x :: front, y, back, rfl, by simpa [hx] using hfront, hy, ?_⟩
          simp [firstNonempty, hx, hfound]
        · exact Or.inr ⟨by simpa [hx] using hall, by simp [firstNonempty, hx, hfound]⟩
      · exact Or.inl ⟨[], x, xs, rfl, by simp, hx, by simp [firstNonempty, hx]⟩

/-- What the combinators make of any number of answers, and how many answers they ask for.
Dealing gives, round by round, the items at one index in the order of the answers; each of
them is there once, and those of one answer stay in their order. -/
theorem mergeCounting_as_combinator (eval : ι → List α) (xs : List ι) :
    let lists := xs.map eval
    let width := (lists.headD []).length
    let merged := merge .combine eval xs
    (mergeCounting .and eval xs = (lists.flatten, xs.length) ∧
      mergeCounting .none eval xs = (lists.flatten, xs.length) ∧
      mergeCounting .chain eval xs = (lists.flatten, xs.length)) ∧
    ((∃ front x back, xs = front ++ x :: back ∧ (∀ y ∈ front, eval y = []) ∧ eval x ≠ [] ∧
        mergeCounting .or eval xs = (eval x, front.length + 1)) ∨
      (∀ x ∈ xs, eval x = []) ∧ mergeCounting .or eval xs = ([], xs.length)) ∧
    (mergeCounting .combine eval xs).2 = xs.length ∧
    merged = (List.range width).flatMap (fun i => lists.filterMap (·[i]?)) ∧
    merged.Perm (lists.flatMap (List.take width)) ∧
    merged.length = (lists.map fun list => Nat.min list.length width).foldr Nat.add 0 ∧
    ∃ places, DealtOut lists places merged ∧
      ∀ j, itemsOf j places merged = (lists[j]?.getD []).take width := by
  intro lists width merged
  have hflat : xs.flatMap eval = lists.flatten := List.flatMap_def
  have hperm : merged.Perm (lists.flatMap (List.take width)) := rounds_perm width lists
  refine ⟨⟨?_, ?_, ?_⟩, firstNonempty_cases eval xs, rfl, rounds_eq_flatMap width lists, hperm, ?_,
    (dealt lists).map Prod.fst, dealtOut_interleave lists, itemsOf_interleave lists⟩
  · rw [mergeCounting, hflat]
  · rw [mergeCounting, hflat]
  · rw [mergeCounting, hflat]
  · rw [hperm.length_eq, length_flatMap_take]

end BookRules.Rule.Combinator
