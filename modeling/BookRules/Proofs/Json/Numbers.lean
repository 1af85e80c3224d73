import BookRules.Json.Parser
import Mathlib.Data.List.TakeWhile
import Mathlib.Tactic.SplitIfs

/-!
# Where a number ends

A number is read up to the first character that cannot go on with it.  What comes after it
has no part in its value: the same number is read in front of any other text that does not
go on with a number.
-/

namespace BookRules.Json

open Decimal (isDigit)

/-- A character that a number may be written with. -/
def isNumberSign (c : Char) : Bool :=
  isDigit c || ['-', '+', '.', 'e', 'E'].contains c

/-- No number goes on here. -/
def EndsNumber (cs : List Char) : Prop :=
  ∀ c ∈ cs.head?, isNumberSign c = false

/-- The rest of a number is read from `front`, whatever comes after it. -/
def ReadsNumber (read : List Char → Option (Number × List Char)) (front : List Char)
    (n : Number) : Prop :=
  ∀ more, EndsNumber more → read (front ++ more) = some (n, more)

/-- What a reader reads is a front of its text. -/
def ReadsFront (read : List Char → Option (Number × List Char)) : Prop :=
  ∀ cs n rest, read cs = some (n, rest) → ∃ front, cs = front ++ rest ∧
    (∀ c ∈ front, isNumberSign c = true) ∧ ReadsNumber read front n

variable {read plain : List Char → Option (Number × List Char)}
variable {front rest more cs : List Char} {n : Number}

theorem endsNumber_nil : EndsNumber [] := by
  simp [EndsNumber]

theorem endsNumber_cons {c : Char} : EndsNumber (c :: cs) ↔ isNumberSign c = false := by
  simp [EndsNumber]

/-! ## Readers -/

theorem readsFront_none : ReadsFront fun _ => none := by
  intro cs n rest h
  cases h

/-- The number is known, and nothing more is read. -/
theorem readsFront_known (known : Option Number) : ReadsFront fun cs => known.map (·, cs) := by
  intro cs n rest h
  obtain ⟨n', rfl, heq⟩ := Option.map_eq_some_iff.1 h
  obtain ⟨rfl, rfl⟩ := Prod.mk.inj heq
  exact ⟨[], rfl, by simp, fun more _ => rfl⟩

/-- Some characters say how the reading goes on behind them. -/
theorem readsFront_branch {signs : List Char}
    {inner : Char → List Char → Option (Number × List Char)}
    (hsigns : signs.all isNumberSign)
    (hread : ∀ c ∈ signs, ∀ cs, read (c :: cs) = inner c cs)
    (hplain : ∀ cs, (∀ c ∈ cs.head?, c ∉ signs) → read cs = plain cs)
    (hinner : ∀ c ∈ signs, ReadsFront (inner c)) (hfront : ReadsFront plain) :
    ReadsFront read := by
  intro cs n rest h
  by_cases hhead : ∀ c ∈ cs.head?, c ∉ signs
  · rw [hplain cs hhead] at h
    obtain ⟨front, rfl, hsigns', hreads⟩ := hfront cs n rest h
    refine ⟨front, rfl, hsigns', fun more hmore => ?_⟩
    rw [hplain, hreads more hmore]
    intro c hc hmem
    cases front with
    | nil =>
        exact Bool.false_ne_true ((hmore c hc).symm.trans (List.all_eq_true.1 hsigns c hmem))
    | cons d front => exact hhead c hc hmem
  · cases cs with
    | nil => simp at hhead
    | cons c cs =>
        have hc : c ∈ signs := by simpa using hhead
        rw [hread c hc] at h
        obtain ⟨front, rfl, hsigns', hreads⟩ := hinner c hc cs n rest h
        refine ⟨c :: front, rfl, ?_, fun more hmore => ?_⟩
        · simpa using ⟨List.all_eq_true.1 hsigns c hc, hsigns'⟩
        · rw [List.cons_append, hread c hc]
          exact hreads more hmore

theorem digits_front (hrest : cs.dropWhile isDigit = front ++ rest) (hmore : EndsNumber more) :
    (cs.takeWhile isDigit ++ (front ++ more)).takeWhile isDigit = cs.takeWhile isDigit ∧
      (cs.takeWhile isDigit ++ (front ++ more)).dropWhile isDigit = front ++ more := by
  have hdigits : ∀ c ∈ cs.takeWhile isDigit, isDigit c = true :=
    fun c hc => List.all_eq_true.1 (List.all_takeWhile) c hc
  have hhead : ∀ c ∈ (front ++ more).head?, isDigit c = false := by
    intro c hc
    cases front with
    | nil => exact (Bool.or_eq_false_iff.1 (hmore c hc)).1
    | cons d front =>
        obtain rfl : d = c := by simpa using hc
        simpa [hrest] using List.head?_dropWhile_not isDigit cs
  rw [List.takeWhile_append_of_pos hdigits, List.dropWhile_append_of_pos hdigits]
  cases hafter : front ++ more with
  | nil => simp
  | cons c after => simp [hhead c (by rw [hafter]; rfl)]

/-- A run of digits is read, and the rest by what the digits say. -/
theorem readsFront_digits {next : List Char → List Char → Option (Number × List Char)}
    (hread : ∀ cs, read cs = next (cs.takeWhile isDigit) (cs.dropWhile isDigit))
    (hnext : ∀ digits, ReadsFront (next digits)) : ReadsFront read := by
  intro cs n rest h
  rw [hread] at h
  obtain ⟨front, hfront, hsigns, hreads⟩ := hnext _ _ n rest h
  refine ⟨cs.takeWhile isDigit ++ front, ?_, ?_, fun more hmore => ?_⟩
  · rw [List.append_assoc, ← hfront, List.takeWhile_append_dropWhile]
  · intro c hc
    rcases List.mem_append.1 hc with hdigit | hsign
    · have hdigit' : isDigit c = true := List.all_eq_true.1 (List.all_takeWhile) c hdigit
      simp [isNumberSign, hdigit']
    · exact hsigns c hsign
  · obtain ⟨htake, hdrop⟩ := digits_front hfront hmore
    rw [List.append_assoc, hread, htake, hdrop]
    exact hreads more hmore

/-! ## The parts of a number -/

/-- The number that a power without its sign makes. -/
def powered? (negative : Bool) (significand : Nat) (start : Int) (down : Bool)
    (digits : List Char) : Option Number :=
  if digits.isEmpty then none
  else if exponentMax < Decimal.valueOf digits then
    if significand != 0 && !down then none else some (.real (if negative then -0.0 else 0.0))
  else
    assemble? negative significand
      (if down then start - Decimal.valueOf digits else start + Decimal.valueOf digits)

def powerDigits? (negative : Bool) (significand : Nat) (start : Int) (down : Bool)
    (cs : List Char) : Option (Number × List Char) :=
  (powered? negative significand start down (cs.takeWhile isDigit)).map
    (·, cs.dropWhile isDigit)

variable (negative : Bool) (significand : Nat) (start : Int)

theorem powerDigits?_eq (down : Bool) (cs : List Char) :
    powerDigits? negative significand start down cs =
      if (cs.takeWhile isDigit).isEmpty then none
      else if exponentMax < Decimal.valueOf (cs.takeWhile isDigit) then
        if significand != 0 && !down then none
        else some (.real (if negative then -0.0 else 0.0), cs.dropWhile isDigit)
      else (assemble? negative significand
        (if down then start - Decimal.valueOf (cs.takeWhile isDigit)
          else start + Decimal.valueOf (cs.takeWhile isDigit))).map (·, cs.dropWhile isDigit) := by
  unfold powerDigits? powered?
  rw [apply_ite (Option.map _), apply_ite (Option.map _), apply_ite (Option.map _)]
  rfl

theorem powerPart?_sign {c : Char} (hc : c ∈ ['+', '-']) (cs : List Char) :
    powerPart? negative significand start (c :: cs) =
      powerDigits? negative significand start (c == '-') cs := by
  rw [powerDigits?_eq]
  rcases List.mem_cons.1 hc with rfl | hc
  · simp only [powerPart?]
    rfl
  · obtain rfl := List.mem_singleton.1 hc
    simp only [powerPart?]
    rfl

theorem powerPart?_unsigned (h : ∀ c ∈ cs.head?, c ∉ ['+', '-']) :
    powerPart? negative significand start cs =
      powerDigits? negative significand start false cs := by
  rw [powerDigits?_eq]
  unfold powerPart?
  split
  split at *
  · simp at h
  · simp at h
  · simp_all

theorem readsFront_powerPart? : ReadsFront (powerPart? negative significand start) := by
  have hdigits : ∀ down, ReadsFront (powerDigits? negative significand start down) :=
    fun down => readsFront_digits (fun _ => rfl) fun _ => readsFront_known _
  exact readsFront_branch (by decide) (fun c hc => powerPart?_sign negative significand start hc)
    (fun cs => powerPart?_unsigned negative significand start) (fun c _ => hdigits (c == '-'))
    (hdigits false)

theorem readsFront_afterFraction? : ReadsFront (afterFraction? negative significand start) := by
  refine @readsFront_branch _ (fun cs => (assemble? negative significand start).map (·, cs))
    ['e', 'E'] (fun _ => powerPart? negative significand start) (by decide) ?_ ?_
    (fun _ _ => readsFront_powerPart? negative significand start) (readsFront_known _)
  · intro c hc cs
    rcases List.mem_cons.1 hc with rfl | hc
    · rfl
    · obtain rfl := List.mem_singleton.1 hc
      rfl
  · intro cs h
    unfold afterFraction?
    split
    · simp at h
    · simp at h
    · rfl

theorem readsFront_fractionPart? : ReadsFront (fractionPart? negative significand start) := by
  refine @readsFront_digits _ (fun digits rest =>
    if digits.isEmpty then none
    else afterFraction? negative (gather significand 0 digits).1
      (start - (gather significand 0 digits).2.1) rest) (fun _ => rfl) fun digits => ?_
  split_ifs
  · exact readsFront_none
  · exact readsFront_afterFraction? _ _ _

/-- Read what follows the digits in front of the point. -/
def afterWhole? (negative : Bool) (digits rest : List Char) : Option (Number × List Char) :=
  let (significand, _, left) := gather 0 0 digits
  match rest with
  | '.' :: after => fractionPart? negative significand left after
  | 'e' :: after | 'E' :: after => powerPart? negative significand left after
  | _ =>
    if left == 0 then some (wholeNumber negative significand, rest)
    else (assemble? negative significand left).map (·, rest)

theorem readsFront_afterWhole? (digits : List Char) :
    ReadsFront (afterWhole? negative digits) := by
  have hpower := readsFront_powerPart? negative (gather 0 0 digits).1 (gather 0 0 digits).2.2
  have hfraction := readsFront_fractionPart? negative (gather 0 0 digits).1
    (gather 0 0 digits).2.2
  refine @readsFront_branch _ (fun rest =>
      (if (gather 0 0 digits).2.2 == 0 then some (wholeNumber negative (gather 0 0 digits).1)
        else assemble? negative (gather 0 0 digits).1 (gather 0 0 digits).2.2).map (·, rest))
    ['.', 'e', 'E'] (fun c => if c = '.' then
      fractionPart? negative (gather 0 0 digits).1 (gather 0 0 digits).2.2
      else powerPart? negative (gather 0 0 digits).1 (gather 0 0 digits).2.2) (by decide) ?_ ?_ ?_
    (readsFront_known _)
  · intro c hc cs
    simp only [List.mem_cons, List.not_mem_nil, or_false] at hc
    rcases hc with rfl | rfl | rfl <;> rfl
  · intro cs h
    unfold afterWhole?
    dsimp only
    split
    · simp at h
    · simp at h
    · simp at h
    · rw [apply_ite (Option.map _), Option.map_some]
  · intro c _
    split_ifs
    · exact hfraction
    · exact hpower

def wholePart? (negative : Bool) (digits rest : List Char) : Option (Number × List Char) :=
  match digits with
  | [] => none
  | '0' :: _ :: _ => none
  | _ => afterWhole? negative digits rest

theorem readsFront_wholePart? (digits : List Char) : ReadsFront (wholePart? negative digits) := by
  unfold wholePart?
  split
  · exact readsFront_none
  · exact readsFront_none
  · exact readsFront_afterWhole? negative digits

theorem readsFront_numberTail? : ReadsFront (numberTail? negative) :=
  readsFront_digits (fun _ => rfl) (readsFront_wholePart? negative)

/-- A number is read from a front of the text, and whatever comes after it. -/
theorem readsFront_number? : ReadsFront number? := by
  refine @readsFront_branch _ (numberTail? false) ['-'] (fun _ => numberTail? true) (by decide)
    ?_ ?_ (fun _ _ => readsFront_numberTail? true) (readsFront_numberTail? false)
  · intro c hc cs
    obtain rfl := List.mem_singleton.1 hc
    rfl
  · intro cs h
    unfold number?
    split
    · simp at h
    · rfl

/-- What is a number by itself is one in front of anything that does not go on with it. -/
theorem number?_append (h : number? front = some (n, [])) (hmore : EndsNumber more) :
    number? (front ++ more) = some (n, more) := by
  obtain ⟨front', hfront, -, hreads⟩ := readsFront_number? front n [] h
  obtain rfl : front = front' := by simpa using hfront
  exact hreads more hmore

end BookRules.Json
