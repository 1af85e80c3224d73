import BookRules.Proofs.Unicode.Folding
import BookRules.Unicode.Property
import Mathlib.Data.List.TakeWhile
import Mathlib.Data.Nat.Log

/-!
# Tables searched by halving

Halving keeps a stretch of positions with the code point between its ends, so the position
it stops at is the last one whose key is at most the code point.  In a table of runs that is
the run the code point belongs to.

The table of categories is read from a text, token by token, and what its first tokens say
about the signs of ASCII holds whatever follows them.  Up to the braces the decimal digits
are the ten of ASCII.
-/

namespace BookRules.Unicode

variable {keys : Array Nat} {x : Nat}

/-- The code point lies between the two ends of a stretch of positions. -/
structure Encloses (keys : Array Nat) (x lo hi : Nat) : Prop where
  nonempty : lo < hi
  inside : hi ≤ keys.size
  low : keys.getD lo 0 ≤ x
  high : hi = keys.size ∨ x < keys.getD hi 0

theorem encloses_lastAtMost {fuel lo hi : Nat} (h : Encloses keys x lo hi)
    (hfuel : hi - lo ≤ Nat.pow 2 fuel) :
    Encloses keys x (lastAtMost keys x fuel lo hi) (lastAtMost keys x fuel lo hi + 1) := by
  have hstop : hi ≤ lo + 1 → Encloses keys x lo (lo + 1) := by
    intro hle
    have hnext : hi = lo + 1 := Nat.le_antisymm hle h.nonempty
    exact hnext ▸ h
  induction fuel generalizing lo hi with
  | zero =>
      have hone : hi - lo ≤ 1 := hfuel
      exact hstop (by omega)
  | succ fuel ih =>
      have hpow : Nat.pow 2 (fuel + 1) = Nat.pow 2 fuel * 2 := rfl
      have hpos := h.nonempty
      unfold lastAtMost
      split
      next hle => exact hstop hle
      next hlong =>
        dsimp only
        split
        next hmid =>
          have hupper : Encloses keys x ((lo + hi) / 2) hi :=
            ⟨by omega, h.inside, hmid, h.high⟩
          refine ih hupper (by omega) fun hle => ?_
          have hnext : hi = (lo + hi) / 2 + 1 := by omega
          exact hnext ▸ hupper
        next hmid =>
          have hinside := h.inside
          have hlower : Encloses keys x lo ((lo + hi) / 2) :=
            ⟨by omega, by omega, h.low, Or.inr (Nat.lt_of_not_le hmid)⟩
          refine ih hlower (by omega) fun hle => ?_
          have hnext : (lo + hi) / 2 = lo + 1 := by omega
          exact hnext ▸ hlower

theorem Encloses.cons {keys : List Nat} {lo hi : Nat} (h : Encloses keys.toArray x lo hi)
    (key : Nat) : Encloses (key :: keys).toArray x (lo + 1) (hi + 1) := by
  obtain ⟨hnonempty, hinside, hlow, hhigh⟩ := h
  refine ⟨Nat.succ_lt_succ hnonempty, ?_, ?_, ?_⟩
  · simpa using hinside
  · simpa using hlow
  · simpa using hhigh

def Ascends (keys : Array Nat) : Prop :=
  keys.toList.Pairwise (· ≤ ·)

theorem Ascends.getD_le (h : Ascends keys) {i j : Nat} (hij : i ≤ j) (hj : j < keys.size) :
    keys.getD i 0 ≤ keys.getD j 0 := by
  rcases Nat.eq_or_lt_of_le hij with rfl | hlt
  · exact Nat.le_refl _
  · have hkeys := List.pairwise_iff_getElem.1 h i j (by simp; omega) (by simpa using hj) hlt
    simpa [Array.getD, hj, Nat.lt_trans hlt hj] using hkeys

/-- Two neighbours enclose a code point at one place only. -/
theorem Encloses.unique (hascends : Ascends keys) {i j : Nat} (hi : Encloses keys x i (i + 1))
    (hj : Encloses keys x j (j + 1)) : i = j := by
  have hle : ∀ i j, Encloses keys x i (i + 1) → Encloses keys x j (j + 1) → i ≤ j := by
    intro i j hi hj
    by_contra hlt
    have hinside := hi.inside
    have hkeys : keys.getD (j + 1) 0 ≤ keys.getD i 0 := hascends.getD_le (by omega) (by omega)
    have hlow := hi.low
    rcases hj.high with hend | hhigh <;> omega
  exact Nat.le_antisymm (hle i j hi hj) (hle j i hj hi)

theorem runOf?_eq_some (hascends : Ascends keys) {i : Nat} (hi : Encloses keys x i (i + 1)) :
    runOf? keys x = some i := by
  have hinside := hi.inside
  have hfirst := hascends.getD_le (Nat.zero_le i) (by omega)
  have hlow := hi.low
  have hall : Encloses keys x 0 keys.size := ⟨by omega, Nat.le_refl _, by omega, Or.inl rfl⟩
  have hfuel : keys.size - 0 ≤ Nat.pow 2 (keys.size.log2 + 2) := by
    have hlog : keys.size < Nat.pow 2 (keys.size.log2 + 1) := Nat.lt_log2_self
    have hpow : Nat.pow 2 (keys.size.log2 + 2) = Nat.pow 2 (keys.size.log2 + 1) * 2 := rfl
    omega
  have hne : keys.size ≠ 0 := by omega
  have hfront : ¬ x < keys.getD 0 0 := by omega
  unfold runOf?
  rw [beq_false_of_ne hne, decide_eq_false hfront, if_neg (by simp)]
  exact congrArg some ((encloses_lastAtMost hall hfuel).unique hascends hi)

/-! ## Tables of runs -/

namespace Runs

variable {α : Type} {value default : α} {code : Nat}

def startsFrom (next : Nat) : List (α × Nat) → List Nat
  | [] => []
  | (_, length) :: rest => next :: startsFrom (next + length) rest

/-- The value of a code point, by going over the runs. -/
def valueAt? : List (α × Nat) → Nat → Option α
  | [], _ => none
  | (value, length) :: rest, code =>
    if code < length then some value else valueAt? rest (code - length)

/-- One step of reading a table: its starts and values, and where the next run begins. -/
def addRun (read : Array Nat × Array α × Nat) (run : α × Nat) : Array Nat × Array α × Nat :=
  (read.1.push read.2.2, read.2.1.push run.1, read.2.2 + run.2)

theorem foldl_addRun (lengths : List (α × Nat)) (starts : Array Nat) (values : Array α)
    (next : Nat) :
    lengths.foldl addRun (starts, values, next) =
      (starts ++ (startsFrom next lengths).toArray, values ++ (lengths.map Prod.fst).toArray,
        (lengths.map Prod.snd).foldl Nat.add next) := by
  induction lengths generalizing starts values next with
  | nil => simp [startsFrom]
  | cons run rest ih =>
      rw [List.foldl_cons, addRun, ih]
      simp [startsFrom]

theorem ofLengths_eq (default : α) (lengths : List (α × Nat)) :
    ofLengths default lengths =
      { starts := (startsFrom 0 lengths).toArray
        values := (lengths.map Prod.fst).toArray
        default } := by
  have hread : ofLengths default lengths =
      { starts := (lengths.foldl addRun (#[], #[], 0)).1
        values := (lengths.foldl addRun (#[], #[], 0)).2.1
        default } := rfl
  rw [hread, foldl_addRun]
  simp

theorem le_of_mem_startsFrom {next start : Nat} {lengths : List (α × Nat)}
    (h : start ∈ startsFrom next lengths) : next ≤ start := by
  induction lengths generalizing next with
  | nil => simp [startsFrom] at h
  | cons run rest ih =>
      rw [startsFrom, List.mem_cons] at h
      rcases h with rfl | hrest
      · exact Nat.le_refl _
      · exact Nat.le_trans (Nat.le_add_right next run.2) (ih hrest)

theorem ascends_startsFrom (next : Nat) (lengths : List (α × Nat)) :
    Ascends (startsFrom next lengths).toArray := by
  unfold Ascends
  induction lengths generalizing next with
  | nil => exact List.Pairwise.nil
  | cons run rest ih =>
      refine List.Pairwise.cons (fun start hstart => ?_) (ih (next + run.2))
      exact Nat.le_trans (Nat.le_add_right next run.2) (le_of_mem_startsFrom hstart)

theorem exists_encloses_of_valueAt? {lengths : List (α × Nat)} (next : Nat)
    (h : valueAt? lengths code = some value) :
    ∃ i, lengths[i]?.map Prod.fst = some value ∧
      Encloses (startsFrom next lengths).toArray (next + code) i (i + 1) := by
  induction lengths generalizing next code with
  | nil => simp [valueAt?] at h
  | cons run rest ih =>
      obtain ⟨first, length⟩ := run
      rw [valueAt?] at h
      split_ifs at h with hhere
      · refine ⟨0, by simpa using h, by omega, by simp [startsFrom], by simp [startsFrom], ?_⟩
        cases rest with
        | nil => exact Or.inl (by simp [startsFrom])
        | cons run rest => exact Or.inr (by simpa [startsFrom] using hhere)
      · obtain ⟨i, hvalue, hencloses⟩ := ih (next + length) h
        have hcode : next + length + (code - length) = next + code := by omega
        rw [hcode] at hencloses
        exact ⟨i + 1, by simpa using hvalue, hencloses.cons next⟩

/-- Searching a table of runs is going over them. -/
theorem at_ofLengths {lengths : List (α × Nat)} (h : valueAt? lengths code = some value) :
    (ofLengths default lengths).at_ code = value := by
  obtain ⟨i, hvalue, hencloses⟩ := exists_encloses_of_valueAt? 0 h
  rw [Nat.zero_add] at hencloses
  have hrun := runOf?_eq_some (ascends_startsFrom 0 lengths) hencloses
  rw [ofLengths_eq, at_]
  dsimp only
  rw [hrun]
  simpa [Array.getD_eq_getD_getElem?] using congrArg (Option.getD · default) hvalue

theorem valueAt?_append {front : List (α × Nat)} (h : valueAt? front code = some value)
    (back : List (α × Nat)) : valueAt? (front ++ back) code = some value := by
  induction front generalizing code with
  | nil => simp [valueAt?] at h
  | cons run rest ih =>
      rw [valueAt?] at h
      rw [List.cons_append, valueAt?]
      split_ifs at h ⊢
      · exact h
      · exact ih h

end Runs

/-! ## Categories of the signs of ASCII -/

namespace Category

/-- The first tokens of the table, up to the opening brace. -/
def asciiTokens : List Char :=
  "Z32WR3TR3NORSRMR2I10R2S3R2A26NROULUB26N".toList

theorem readRuns_append {c : Char} (hc : Decimal.isDigit c = false) (front back : List Char) :
    readRuns (front ++ c :: back) = readRuns front ++ readRuns (c :: back) := by
  have htake : ∀ cs : List Char,
      (cs ++ c :: back).takeWhile Decimal.isDigit = cs.takeWhile Decimal.isDigit := by
    intro cs
    induction cs with
    | nil => simp [hc]
    | cons d cs ih => by_cases hd : Decimal.isDigit d <;> simp [hd, ih]
  have hdrop : ∀ cs : List Char,
      (cs ++ c :: back).dropWhile Decimal.isDigit = cs.dropWhile Decimal.isDigit ++ c :: back := by
    intro cs
    induction cs with
    | nil => simp [hc]
    | cons d cs ih => by_cases hd : Decimal.isDigit d <;> simp [hd, ih]
  fun_induction readRuns front with
  | case1 => rfl
  | case2 letter rest digits ih =>
      rw [List.cons_append, readRuns, htake, hdrop, ih]
      rfl

theorem exists_table_eq : ∃ more, table = Runs.ofLengths .unassigned (readRuns asciiTokens ++ more) := by
  have hfront : asciiTokens ++ ['S'] <+: runLines.flatMap String.toList := by
    decide +kernel
  obtain ⟨rest, hrest⟩ := hfront
  refine ⟨readRuns ('S' :: rest), ?_⟩
  rw [← readRuns_append (by decide), table, ← hrest]
  simp

theorem readRuns_asciiTokens : ∀ code < 124, ∃ category, Runs.valueAt? (readRuns asciiTokens) code = some category ∧
    (category == .decimalNumber) = Decimal.isDigit (Char.ofNat code) := by
  decide +kernel

end Category

/-- Up to the braces the decimal digits are those of ASCII. -/
theorem isDecimal_eq_isDigit {c : Char} (hc : c.toNat < 124) :
    isDecimal c.toNat = Decimal.isDigit c := by
  obtain ⟨more, htable⟩ := Category.exists_table_eq
  obtain ⟨category, hvalue, hdigit⟩ := Category.readRuns_asciiTokens c.toNat hc
  rw [isDecimal, Unicode.category, htable, Runs.at_ofLengths (Runs.valueAt?_append hvalue more),
    hdigit, Char.ofNat_toNat]

end BookRules.Unicode
