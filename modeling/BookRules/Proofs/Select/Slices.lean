import BookRules.Proofs.List.Firsts
import BookRules.Select.IndexFilter
import Mathlib.Data.List.Nodup
import Mathlib.Tactic.Ring

/-!
# Positions of slices

A slice selects what the same slice selects in Python.  There the bounds are put into the
list first, and the positions are then those of `range(start, stop, step)`.  The walk that
finds the positions adds the step in 64-bit words.  A sum that leaves the words lies behind
the end of the slice, because that end is a word itself, so the walk misses nothing when it
stops there.
-/

namespace BookRules.Select

open BookRules.Word (inSigned64 inSigned64_iff)

variable {len step stop position : Int} {start? stop? step? : Option Int} {entry : IndexEntry}

/-! ## Slices of a sequence -/

namespace Slice

/-- `range(start, stop, step)`: the numbers `start + step * i` in front of `stop`. -/
def IsRange (start stop step : Int) (items : List Int) : Prop :=
  ∀ i : Nat, items[i]? =
    if (if 0 < step then start + step * i < stop else stop < start + step * i) then
      some (start + step * i)
    else none

def lowest (step : Int) : Int :=
  if step < 0 then -1 else 0

def highest (len step : Int) : Int :=
  if step < 0 then len - 1 else len

/-- Where a bound is put; negative ones count from the end. -/
def place (len step n : Int) : Int :=
  if n < 0 then max (n + len) (lowest step) else min n (highest len step)

def first (len step : Int) (start? : Option Int) : Int :=
  (start?.map (place len step)).getD (if step < 0 then highest len step else lowest step)

def last (len step : Int) (stop? : Option Int) : Int :=
  (stop?.map (place len step)).getD (if step < 0 then lowest step else highest len step)

/-- The positions that `slice(start, stop, step)` selects from a sequence of length `len`. -/
def Selects (len : Int) (start? stop? : Option Int) (step : Int) (items : List Int) : Prop :=
  IsRange (first len step start?) (last len step stop?) step items

end Slice

namespace IndexEntry

/-- All parts of the entry are 64-bit words. -/
def Fits : IndexEntry → Prop
  | .single n => inSigned64 n
  | .slice start? stop? step? =>
    ∀ n, n ∈ start? ∨ n ∈ stop? ∨ n ∈ step? → inSigned64 n

end IndexEntry

/-! ## The walk -/

namespace IndexEntry

theorem not_before_later (h : ¬ Before step stop position) (i : Nat) :
    ¬ Before step stop (position + step * i) := by
  have hi : 0 ≤ (i : Int) := Int.natCast_nonneg i
  unfold Before at *
  by_cases hstep : 0 < step
  · have : 0 ≤ step * (i : Int) := Int.mul_nonneg hstep.le hi
    omega
  · have : step * (i : Int) ≤ 0 := Int.mul_nonpos_of_nonpos_of_nonneg (by omega) hi
    omega

/-- Behind a sum that is no word there is nothing left of the slice. -/
theorem not_before_of_not_inSigned64 (hstop : inSigned64 stop) (hposition : inSigned64 position)
    (h : ¬ inSigned64 (position + step)) : ¬ Before step stop (position + step) := by
  rw [inSigned64_iff] at *
  unfold Before
  omega

theorem getElem?_walk (hstop : inSigned64 stop) (hposition : inSigned64 position) (i : Nat) :
    (walk step stop position)[i]? =
      if Before step stop (position + step * i) then some (position + step * i).toNat
      else none := by
  fun_induction walk step stop position generalizing i with
  | case1 position hbefore ih =>
      cases i with
      | zero => simp [hbefore]
      | succ i =>
          have hnext : position + step * ((i + 1 : Nat) : Int) = position + step + step * i := by
            push_cast
            ring
          rw [List.getElem?_cons_succ, hnext]
          by_cases hword : inSigned64 (position + step)
          · rw [if_pos hword, ih hword]
          · have hbehind := not_before_of_not_inSigned64 hstop hposition hword
            rw [if_neg hword, if_neg (not_before_later hbehind i), List.getElem?_nil]
  | case2 position hbefore =>
      rw [if_neg (not_before_later hbefore i), List.getElem?_nil]

theorem exists_of_mem_walk {p : Nat} (h : p ∈ walk step stop position) :
    ∃ x : Int, p = x.toNat ∧ Before step stop x ∧
      (0 < step → position ≤ x) ∧ (step < 0 → x ≤ position) := by
  fun_induction walk step stop position with
  | case1 position hbefore ih =>
      have hhere : ∃ x : Int, position.toNat = x.toNat ∧ Before step stop x ∧
          (0 < step → position ≤ x) ∧ (step < 0 → x ≤ position) :=
        ⟨position, rfl, hbefore, fun _ => le_rfl, fun _ => le_rfl⟩
      rcases List.mem_cons.1 h with rfl | hrest
      · exact hhere
      · split_ifs at hrest
        · obtain ⟨x, rfl, hx, hup, hdown⟩ := ih hrest
          refine ⟨x, rfl, hx, fun hstep => ?_, fun hstep => ?_⟩
          · have := hup hstep
            omega
          · have := hdown hstep
            omega
        · simp at hrest
  | case2 => simp at h

/-! ## Bounds and entries -/

theorem fromEnd?_eq (hlen : 0 ≤ len) (hlenWord : inSigned64 len) {n : Int} (hn : inSigned64 n) :
    fromEnd? len n = some (if n < 0 then n + len else n) := by
  unfold fromEnd?
  by_cases hneg : n < 0
  · have hsum : inSigned64 (n + len) := by
      rw [inSigned64_iff] at *
      omega
    rw [if_pos hneg, if_pos hneg, Word.checked64?_eq_some hsum]
  · rw [if_neg hneg, if_neg hneg]

theorem clamp?_eq {lo hi : Int} (h : lo ≤ hi) (n : Int) :
    clamp? lo hi n = some (max lo (min n hi)) := by
  rw [clamp?, if_neg (by omega)]
  congr 1
  split_ifs <;> omega

theorem lowest_le_highest (hlen : 0 ≤ len) (step : Int) :
    Slice.lowest step ≤ Slice.highest len step := by
  unfold Slice.lowest Slice.highest
  split_ifs <;> omega

theorem place_eq (hlen : 0 ≤ len) (step n : Int) :
    Slice.place len step n = max (Slice.lowest step)
      (min (if n < 0 then n + len else n) (Slice.highest len step)) := by
  unfold Slice.place Slice.lowest Slice.highest
  split_ifs <;> omega

theorem bound?_eq (step : Int) (hlen : 0 ≤ len) (hlenWord : inSigned64 len) {missing : Int}
    (hmissing : missing = Slice.lowest step ∨ missing = Slice.highest len step)
    {n? : Option Int} (hn : ∀ n ∈ n?, inSigned64 n) :
    bound? len (Slice.lowest step) (Slice.highest len step) missing n? =
      some ((n?.map (Slice.place len step)).getD missing) := by
  have hordered := lowest_le_highest hlen step
  cases n? with
  | none =>
      rw [bound?, clamp?_eq hordered, Option.map_none, Option.getD_none]
      congr 1
      omega
  | some n =>
      rw [bound?, fromEnd?_eq hlen hlenWord (hn n rfl), Option.bind_eq_bind, Option.bind_some,
        clamp?_eq hordered, Option.map_some, Option.getD_some, place_eq hlen]

theorem stride_eq (step? : Option Int) :
    stride step? = if step? = some 0 then 1 else step?.getD 1 := by
  cases step? with
  | none => rfl
  | some s => by_cases hs : s = 0 <;> simp [stride, hs]

theorem stride_ne_zero (step? : Option Int) : stride step? ≠ 0 := by
  cases step? with
  | none => decide
  | some s => by_cases hs : s = 0 <;> simp [stride, hs]

theorem positions?_slice (hlen : 0 ≤ len) (hlenWord : inSigned64 len)
    (hfits : (slice start? stop? step?).Fits) :
    (slice start? stop? step?).positions? len =
      some (walk (stride step?) (Slice.last len (stride step?) stop?)
        (Slice.first len (stride step?) start?)) := by
  have hstart : ∀ n ∈ start?, inSigned64 n := fun n hn => hfits n (.inl hn)
  have hstop : ∀ n ∈ stop?, inSigned64 n := fun n hn => hfits n (.inr (.inl hn))
  have hne : stride step? ≠ 0 := stride_ne_zero step?
  simp only [positions?]
  generalize stride step? = step at hne ⊢
  by_cases hup : 0 < step
  · have hlowest : Slice.lowest step = 0 := if_neg (by omega)
    have hhighest : Slice.highest len step = len := if_neg (by omega)
    have hfirst := bound?_eq step hlen hlenWord (.inl rfl) hstart
    have hlast := bound?_eq step hlen hlenWord (.inr rfl) hstop
    rw [hlowest, hhighest] at hfirst hlast
    rw [if_pos hup, hfirst, hlast]
    simp [Slice.first, Slice.last, hlowest, hhighest, hup.not_gt]
  · have hdown : step < 0 := by omega
    have hlowest : Slice.lowest step = -1 := if_pos hdown
    have hhighest : Slice.highest len step = len - 1 := if_pos hdown
    have hfirst := bound?_eq step hlen hlenWord (.inr rfl) hstart
    have hlast := bound?_eq step hlen hlenWord (.inl rfl) hstop
    have hword : inSigned64 (len - 1) := by
      rw [inSigned64_iff] at *
      omega
    rw [hlowest, hhighest] at hfirst hlast
    rw [if_neg hup, Word.checked64?_eq_some hword, Option.bind_eq_bind, Option.bind_some,
      hfirst, hlast]
    simp [Slice.first, Slice.last, hlowest, hhighest, hdown]

theorem getD_place_between (hlen : 0 ≤ len) {missing : Int}
    (hmissing : missing = Slice.lowest step ∨ missing = Slice.highest len step)
    (n? : Option Int) :
    Slice.lowest step ≤ (n?.map (Slice.place len step)).getD missing ∧
      (n?.map (Slice.place len step)).getD missing ≤ Slice.highest len step := by
  have hordered := lowest_le_highest hlen step
  cases n? with
  | none =>
      rw [Option.map_none, Option.getD_none]
      omega
  | some n =>
      rw [Option.map_some, Option.getD_some, place_eq hlen]
      omega

theorem first_between (hlen : 0 ≤ len) (step : Int) (start? : Option Int) :
    Slice.lowest step ≤ Slice.first len step start? ∧
      Slice.first len step start? ≤ Slice.highest len step := by
  apply getD_place_between hlen
  split_ifs <;> simp

theorem last_between (hlen : 0 ≤ len) (step : Int) (stop? : Option Int) :
    Slice.lowest step ≤ Slice.last len step stop? ∧
      Slice.last len step stop? ≤ Slice.highest len step := by
  apply getD_place_between hlen
  split_ifs <;> simp

theorem before_iff (hstep : step ≠ 0) :
    Before step stop position ↔ if 0 < step then position < stop else stop < position := by
  unfold Before
  split_ifs <;> omega

/-- What stands between two bounds is a position. -/
theorem nonneg_of_before (hlen : 0 ≤ len) (i : Nat)
    (h : Before step (Slice.last len step stop?)
      (Slice.first len step start? + step * i)) :
    0 ≤ Slice.first len step start? + step * i := by
  have hfirst := first_between hlen step start?
  have hlast := last_between hlen step stop?
  have hi : 0 ≤ (i : Int) := Int.natCast_nonneg i
  unfold Before Slice.lowest at *
  by_cases hup : 0 < step
  · have : 0 ≤ step * (i : Int) := Int.mul_nonneg hup.le hi
    rw [if_neg (by omega)] at *
    omega
  · rw [if_pos (by omega)] at *
    omega

theorem selects_walk (hlen : 0 ≤ len) (hlenWord : inSigned64 len) (hstep : step ≠ 0)
    (start? stop? : Option Int) :
    Slice.Selects len start? stop? step
      ((walk step (Slice.last len step stop?) (Slice.first len step start?)).map Int.ofNat) := by
  intro i
  have hfirst := first_between hlen step start?
  have hlast := last_between hlen step stop?
  have hwords : inSigned64 (Slice.first len step start?) ∧
      inSigned64 (Slice.last len step stop?) := by
    simp only [inSigned64_iff] at *
    unfold Slice.lowest Slice.highest at *
    split_ifs at * <;> omega
  rw [List.getElem?_map, getElem?_walk hwords.2 hwords.1]
  by_cases hbefore : Before step (Slice.last len step stop?)
      (Slice.first len step start? + step * i)
  · have hnonneg := nonneg_of_before hlen i hbefore
    rw [if_pos hbefore, if_pos ((before_iff hstep).1 hbefore), Option.map_some,
      Int.ofNat_eq_natCast, Int.toNat_of_nonneg hnonneg]
  · rw [if_neg hbefore, if_neg (mt (before_iff hstep).2 hbefore), Option.map_none]

/-- A slice has no more positions than the sequence. -/
theorem length_le_of_selects (hlen : 0 ≤ len) (hstep : step ≠ 0) {items : List Int}
    (h : Slice.Selects len start? stop? step items) : items.length ≤ len.toNat := by
  have hfirst := first_between hlen step start?
  have hlast := last_between hlen step stop?
  have hbehind : ¬ Before step (Slice.last len step stop?)
      (Slice.first len step start? + step * len) := by
    unfold Before Slice.lowest Slice.highest at *
    by_cases hup : 0 < step
    · have : 1 * len ≤ step * len := Int.mul_le_mul_of_nonneg_right (by omega) hlen
      rw [if_neg (by omega)] at *
      omega
    · have : step * len ≤ -1 * len := Int.mul_le_mul_of_nonneg_right (by omega) hlen
      rw [if_pos (by omega)] at *
      omega
  have hend := h len.toNat
  rw [Int.toNat_of_nonneg hlen, if_neg (mt (before_iff hstep).2 hbehind)] at hend
  exact List.getElem?_eq_none_iff.1 hend

/-- Different steps lead to different positions. -/
theorem nodup_of_selects (hstep : step ≠ 0) {items : List Int}
    (h : Slice.Selects len start? stop? step items) : items.Nodup := by
  have hvalue : ∀ i (hi : i < items.length),
      items[i] = Slice.first len step start? + step * i := by
    intro i hi
    have hitem := h i
    rw [List.getElem?_eq_getElem hi] at hitem
    split_ifs at hitem <;> exact Option.some.inj hitem
  rw [List.nodup_iff_getElem?_ne_getElem?]
  intro i j hij hj heq
  have hi : i < items.length := by omega
  rw [List.getElem?_eq_getElem hi, List.getElem?_eq_getElem hj, hvalue i hi, hvalue j hj] at heq
  have hsame : step * (i : Int) = step * j := Int.add_left_cancel (Option.some.inj heq)
  have := Int.eq_of_mul_eq_mul_left hstep hsame
  omega

theorem positions?_single (hlen : 0 ≤ len) (hlenWord : inSigned64 len) {n : Int}
    (hn : inSigned64 n) :
    (single n).positions? len =
      some (if 0 ≤ n ∧ n < len then [n.toNat]
        else if -len ≤ n ∧ n < 0 then [(n + len).toNat] else []) := by
  simp only [positions?, fromEnd?_eq hlen hlenWord hn, Option.bind_eq_bind, Option.bind_some,
    Option.pure_def, Option.some.injEq]
  by_cases hneg : n < 0
  · rw [if_pos hneg, if_neg (by omega : ¬ (0 ≤ n ∧ n < len))]
    by_cases hin : -len ≤ n
    · rw [if_pos (by omega), if_pos (by omega)]
    · rw [if_neg (by omega), if_neg (by omega)]
  · rw [if_neg hneg, if_neg (by omega : ¬ (-len ≤ n ∧ n < 0))]

/-- An entry of words gives its positions without leaving the words, and not more of them
than there are items. -/
theorem exists_positions? (hlen : 0 ≤ len) (hlenWord : inSigned64 len) (hfits : entry.Fits) :
    ∃ items, entry.positions? len = some items ∧ items.Nodup ∧ items.length ≤ len.toNat := by
  cases entry with
  | single n =>
      refine ⟨_, positions?_single hlen hlenWord hfits, ?_, ?_⟩
      · split_ifs <;> simp
      · split_ifs <;> simp <;> omega
  | slice start? stop? step? =>
      have hstep := stride_ne_zero step?
      have hselects := selects_walk hlen hlenWord hstep start? stop?
      refine ⟨_, positions?_slice hlen hlenWord hfits, ?_, ?_⟩
      · exact List.Nodup.of_map Int.ofNat (nodup_of_selects hstep hselects)
      · simpa using length_le_of_selects hlen hstep hselects

end IndexEntry

namespace IndexFilter

theorem keepFirst_eq (seen : Std.HashSet Nat) (ps : List Nat) :
    keepFirst seen ps = firstsBy id (ps.filter fun p => !seen.contains p) :=
  eq_firstsBy_of_known id Std.HashSet.contains (fun p seen => seen.insert p)
    (fun seen p p' => by simp [Std.HashSet.contains_insert, beq_eq_decide, eq_comm]) keepFirst
    (fun _ => rfl) (fun _ _ _ => rfl) seen ps

theorem positions_eq (filter : IndexFilter) (len : Nat) :
    filter.positions len = firstsBy id (filter.entries.flatMap (IndexEntry.positions len)) := by
  unfold positions
  rw [keepFirst_eq]
  simp

theorem positions_of_entry (exclude : Bool) {len : Nat} {items : List Nat}
    (hlen : inSigned64 len) (hnodup : items.Nodup)
    (h : entry.positions? len = some items) :
    positions { exclude, entries := [entry] } len = items := by
  rw [positions_eq, List.flatMap_singleton, IndexEntry.positions, Word.signed64_eq_self hlen, h,
    Option.getD_some]
  exact firstsBy_eq_self (by simpa using hnodup)

/-- Entries select what they select in Python: a single one its position, a slice its
range, and several what they select one after the other, each position once.  No sum on the
way leaves the 64-bit words, and no walk takes more turns than there are items. -/
theorem positions_as_in_python (len : Nat) (hlen : inSigned64 len) :
    (∀ exclude n, inSigned64 n → positions { exclude, entries := [.single n] } len =
      if 0 ≤ n ∧ n < len then [n.toNat]
      else if -len ≤ n ∧ n < 0 then [(n + len).toNat] else []) ∧
    (∀ exclude start? stop? step?, (IndexEntry.slice start? stop? step?).Fits →
      Slice.Selects len start? stop? (if step? = some 0 then 1 else step?.getD 1)
        ((positions { exclude, entries := [.slice start? stop? step?] } len).map Int.ofNat)) ∧
    (∀ exclude entries, (∀ entry ∈ entries, entry.Fits) →
      positions { exclude, entries } len =
        (entries.flatMap fun entry => positions { exclude, entries := [entry] } len).eraseDups) ∧
    ∀ entry : IndexEntry, entry.Fits →
      ∃ items, entry.positions? len = some items ∧ items.length ≤ len := by
  have hlen0 : 0 ≤ (len : Int) := Int.natCast_nonneg len
  refine ⟨fun exclude n hn => ?_, fun exclude start? stop? step? hfits => ?_,
    fun exclude entries hfits => ?_, fun entry hfits => ?_⟩
  · obtain ⟨items, hitems, hnodup, -⟩ :=
      IndexEntry.exists_positions? hlen0 hlen (show (IndexEntry.single n).Fits from hn)
    have hsingle := IndexEntry.positions?_single hlen0 hlen hn
    rw [positions_of_entry exclude hlen hnodup hitems]
    exact Option.some.inj (hitems.symm.trans hsingle)
  · have hstep := IndexEntry.stride_ne_zero step?
    have hselects := IndexEntry.selects_walk hlen0 hlen hstep start? stop?
    have hnodup := List.Nodup.of_map Int.ofNat (IndexEntry.nodup_of_selects hstep hselects)
    rw [positions_of_entry exclude hlen hnodup
      (IndexEntry.positions?_slice hlen0 hlen hfits), ← IndexEntry.stride_eq]
    exact hselects
  · have heach : ∀ entry ∈ entries,
        positions { exclude, entries := [entry] } len = entry.positions len := by
      intro entry hentry
      obtain ⟨items, hitems, hnodup, -⟩ :=
        IndexEntry.exists_positions? hlen0 hlen (hfits entry hentry)
      rw [positions_of_entry exclude hlen hnodup hitems, IndexEntry.positions,
        Word.signed64_eq_self hlen, hitems, Option.getD_some]
    rw [positions_eq, List.flatMap_congr heach]
    rfl
  · obtain ⟨items, hitems, -, hlength⟩ := IndexEntry.exists_positions? hlen0 hlen hfits
    exact ⟨items, hitems, hlength⟩

/-- In the longest sequence, the last position, and a step that leaves the words at once. -/
theorem positions_as_in_python_longest :
    let len : Nat := 2 ^ 63 - 1
    let leap : IndexEntry := .slice (some 1) none (some (2 ^ 62))
    inSigned64 len ∧ inSigned64 (-1) ∧ leap.Fits ∧
      positions { exclude := true, entries := [.single (-1)] } len = [2 ^ 63 - 2] ∧
      Slice.Selects len (some 1) none (2 ^ 62)
        ((positions { exclude := false, entries := [leap] } len).map Int.ofNat) ∧
      positions { exclude := false, entries := [.single (-1), leap] } len =
        (positions { exclude := false, entries := [.single (-1)] } len ++
          positions { exclude := false, entries := [leap] } len).eraseDups ∧
      ∃ items, leap.positions? len = some items ∧ items.length ≤ len := by
  intro len leap
  have hlen : inSigned64 len := by decide
  have hlast : inSigned64 (-1) := by decide
  have hleap : leap.Fits := by
    intro n hn
    simp only [Option.mem_def, Option.some.injEq, reduceCtorEq, false_or] at hn
    rcases hn with rfl | rfl <;> decide
  obtain ⟨hsingle, hslice, hentries, hwords⟩ := positions_as_in_python len hlen
  refine ⟨hlen, hlast, hleap, ?_, hslice false _ _ _ hleap, ?_, hwords leap hleap⟩
  · rw [hsingle true (-1) hlast]
    decide
  · have hboth : ∀ entry ∈ [IndexEntry.single (-1), leap], entry.Fits :=
      List.forall_mem_cons.2 ⟨hlast, List.forall_mem_singleton.2 hleap⟩
    simpa using hentries false _ hboth

example : (IndexEntry.slice (some (-1)) none (some (-2))).positions? 5 = some [4, 2, 0] := by
  cbv

end IndexFilter

end BookRules.Select
