import BookRules.Text.Occurrence
import BookRules.Unicode.CaseMap
import Mathlib.Data.List.Basic

/-!
# Words found up to case

Folding moves a code point only as the table says, so what folds to a given letter can
be read off the table.  A word of letters that only their own upper case folds to is
found up to case exactly where it stands in the lower-case text.
-/

namespace BookRules.Unicode

/-- Halving keeps the key at the lower end at most `x`. -/
theorem getD_lastAtMost_le {keys : Array Nat} {x : Nat} (fuel : Nat) {lo : Nat} (hi : Nat)
    (hlo : keys.getD lo 0 ≤ x) : keys.getD (lastAtMost keys x fuel lo hi) 0 ≤ x := by
  induction fuel generalizing lo hi with
  | zero => exact hlo
  | succ fuel ih =>
      unfold lastAtMost
      split
      next => exact hlo
      next =>
        dsimp only
        split
        next hmid => exact ih hi hmid
        next => exact ih _ hlo

theorem getD_of_runOf?_eq_some {keys : Array Nat} {x i : Nat} (h : runOf? keys x = some i) :
    keys.getD i 0 ≤ x := by
  unfold runOf? at h
  split at h
  next => simp at h
  next hfront =>
    simp only [Bool.or_eq_true, beq_iff_eq, decide_eq_true_eq, not_or, Nat.not_lt] at hfront
    obtain rfl := Option.some.inj h
    exact getD_lastAtMost_le _ _ hfront.2

/-- The table is searched by the first code points of its runs. -/
def Moves.IsIndexed (table : Moves) : Prop :=
  table.firsts = table.moves.map Move.first

theorem Moves.isIndexed_ofRuns (runs : List Move) : (Moves.ofRuns runs).IsIndexed := by
  simp [Moves.IsIndexed, Moves.ofRuns]

/-- A code point that is moved is listed with its image. -/
theorem Moves.apply_eq_self_or_mem_pairs (table : Moves) (htable : table.IsIndexed) (code : Nat) :
    table.apply code = code ∨ (code, table.apply code) ∈ table.pairs := by
  unfold Moves.apply
  split
  next => exact Or.inl rfl
  next move hmove =>
    obtain ⟨i, hi, hget⟩ := Option.bind_eq_some_iff.1 hmove
    have hmem : move ∈ table.moves.toList := by
      rw [Array.mem_toList_iff]
      exact Array.mem_of_getElem? hget
    have hfirst : move.first ≤ code := by
      have hle := getD_of_runOf?_eq_some hi
      rw [htable, Array.getD_eq_getD_getElem?, Array.getElem?_map, hget] at hle
      exact hle
    dsimp only
    split
    next hrun =>
      right
      simp only [Bool.and_eq_true, beq_iff_eq, decide_eq_true_eq] at hrun
      have hcode : move.first + move.step * ((code - move.first) / move.step) = code := by
        have hdiv := Nat.div_add_mod (code - move.first) move.step
        omega
      refine List.mem_flatMap.2 ⟨move, hmem, ?_⟩
      refine List.mem_map.2 ⟨(code - move.first) / move.step, List.mem_range.2 hrun.2, ?_⟩
      dsimp only
      rw [hcode]
    next => exact Or.inl rfl

/-- A pair of a table that does not move a sign and moves nothing but its upper case
to it. -/
def keepsAlone (w : Char) (pair : Nat × Nat) : Bool :=
  pair.1 != w.toNat && (pair.2 != w.toNat || (Char.ofNat pair.1).toLower == w)

/-- A letter that only itself and its upper case fold to. -/
def FoldsAlone (w : Char) : Prop :=
  ∀ c : Char, fold w.toNat = fold c.toNat → c.toLower = w

/-- What goes where a code point is that is not moved is that code point or is moved to it. -/
theorem Moves.eq_or_mem_pairs_of_apply_eq {table : Moves} (hindexed : table.IsIndexed)
    {code code' : Nat} (hstays : ∀ pair ∈ table.pairs, pair.1 ≠ code)
    (h : table.apply code = table.apply code') :
    code = code' ∨ (code', code) ∈ table.pairs := by
  have hself : table.apply code = code := by
    rcases table.apply_eq_self_or_mem_pairs hindexed code with hstay | hmoved
    · exact hstay
    · exact absurd rfl (hstays _ hmoved)
  rw [hself] at h
  rw [h]
  rcases table.apply_eq_self_or_mem_pairs hindexed code' with hstay | hmoved
  · exact Or.inl hstay
  · exact Or.inr hmoved

theorem Moves.toLower_eq_of_apply_eq {table : Moves} (hindexed : table.IsIndexed) {w c : Char}
    (hw : w.toLower = w) (htable : ∀ pair ∈ table.pairs, keepsAlone w pair = true)
    (h : table.apply w.toNat = table.apply c.toNat) : c.toLower = w := by
  have hstays : ∀ pair ∈ table.pairs, pair.1 ≠ w.toNat := by
    intro pair hpair
    have hkeeps := htable pair hpair
    simp only [keepsAlone, Bool.and_eq_true, bne_iff_ne] at hkeeps
    exact hkeeps.1
  rcases Moves.eq_or_mem_pairs_of_apply_eq hindexed hstays h with hsame | hmoved
  · obtain rfl : w = c := Char.toNat_inj.1 hsame
    exact hw
  · have hkeeps := htable _ hmoved
    simp only [keepsAlone, bne_self_eq_false, Bool.false_or, Bool.and_eq_true, beq_iff_eq,
      Char.ofNat_toNat] at hkeeps
    exact hkeeps.2

/-- The signs of the mark that binds variables, with the brace behind it. -/
theorem foldTable_keepsAlone : (foldTable.pairs.all fun pair =>
    ['@', 'p', 'u', 't', ':', '\x7b'].all (keepsAlone · pair)) = true := by
  decide +kernel

theorem foldsAlone_of_mem_put {w : Char} (hw : w ∈ ['@', 'p', 'u', 't', ':', '\x7b']) :
    FoldsAlone w := by
  have htable : ∀ pair ∈ foldTable.pairs, keepsAlone w pair = true :=
    fun pair hpair => List.all_eq_true.1 (List.all_eq_true.1 foldTable_keepsAlone pair hpair) w hw
  have hindexed : foldTable.IsIndexed := Moves.isIndexed_ofRuns foldRuns
  have hlower : w.toLower = w := by
    simp only [List.mem_cons, List.not_mem_nil, or_false] at hw
    rcases hw with rfl | rfl | rfl | rfl | rfl | rfl <;> rfl
  exact fun c hc => Moves.toLower_eq_of_apply_eq hindexed hlower htable hc

/-! ## Words in front of a text -/

variable {word front back : List Char}

theorem afterFolded?_eq_none_of_append (h : afterFolded? word (front ++ back) = none) :
    afterFolded? word front = none := by
  induction word generalizing front with
  | nil => simp [afterFolded?] at h
  | cons w word ih =>
      cases front with
      | nil => rfl
      | cons c front =>
          rw [List.cons_append, afterFolded?] at h
          rw [afterFolded?]
          split_ifs at h ⊢
          · exact ih h
          · rfl

/-- A word that a character cannot be part of does not reach across it. -/
theorem afterFolded?_append_cons {c : Char}
    (hword : ∀ w ∈ word, (w == c || fold w.toNat == fold c.toNat) = false)
    (h : afterFolded? word front = none) (back : List Char) :
    afterFolded? word (front ++ c :: back) = none := by
  induction word generalizing front with
  | nil => simp [afterFolded?] at h
  | cons w word ih =>
      rw [List.forall_mem_cons] at hword
      cases front with
      | nil => simp [afterFolded?, hword.1]
      | cons d front =>
          rw [afterFolded?] at h
          rw [List.cons_append, afterFolded?]
          split_ifs at h ⊢
          · exact ih hword.2 h
          · rfl

theorem isSome_afterFolded?_append (word back : List Char) :
    (afterFolded? word (word ++ back)).isSome = true := by
  induction word with
  | nil => rfl
  | cons w word ih => simpa [afterFolded?] using ih

/-- What is found up to case stands in front of the lower-case text. -/
theorem isPrefix_lowerAscii_of_afterFolded? {word cs after : List Char}
    (hword : ∀ w ∈ word, FoldsAlone w) (h : afterFolded? word cs = some after) :
    word <+: Text.lowerAscii cs ∧ after <:+ cs := by
  induction word generalizing cs with
  | nil =>
      simp only [afterFolded?, Option.some.injEq] at h
      simp [h]
  | cons w word ih =>
      cases cs with
      | nil => simp [afterFolded?] at h
      | cons c cs =>
          unfold afterFolded? at h
          split at h
          next hfold =>
            have hw : FoldsAlone w := hword w List.mem_cons_self
            have hlower : c.toLower = w := by
              simp only [Bool.or_eq_true, beq_iff_eq] at hfold
              rcases hfold with rfl | hfold
              · exact hw w rfl
              · exact hw c hfold
            obtain ⟨hrest, hafter⟩ := ih (fun v hv => hword v (List.mem_cons_of_mem w hv)) h
            refine ⟨?_, hafter.trans (List.suffix_cons c cs)⟩
            rw [show Text.lowerAscii (c :: cs) = c.toLower :: Text.lowerAscii cs from rfl, hlower]
            exact List.cons_prefix_cons.2 ⟨rfl, hrest⟩
          next => simp at h

end BookRules.Unicode
