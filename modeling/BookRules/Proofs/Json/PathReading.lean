import BookRules.Json.PathParser
import BookRules.Proofs.Text.Trimming
import Mathlib.Data.Option.Basic

/-!
# Reading a path

The steps of a path are read one after the other, each from the front of what is left.  A step
may be a bracket, a bracket may hold a condition, and a condition holds a path of its own.  What
each reader does is said here once, in one equation for each kind of front.

A bracket and a step of a path are never empty, so what is left gets shorter, and the path in a
condition is shorter than the brackets around it.  So the length of a text bounds how often the
readers can call each other: with that much fuel they come to an end by themselves, and more
fuel makes no difference.
-/

namespace BookRules.Json

variable {fuel : Nat} {body cs inside rest raw : List Char} {step : Step}

/-! ## One step -/

/-- The step at the front of a text, and what follows it. -/
def firstStep (fuel : Nat) (body : List Char) : List Char → Except RuleError (Step × List Char)
  | '.' :: '.' :: rest => do
    let (step, rest) ← stepAfterDot fuel body true rest
    return (.descend step, rest)
  | '.' :: rest => stepAfterDot fuel body false rest
  | '[' :: rest => bracket fuel body rest
  | _ => .error (.path (String.ofList body) .expectedStep)

theorem steps_cons {c : Char} (hc : c ≠ ' ') (rest : List Char) :
    steps (fuel + 1) body (c :: rest) = do
      let (step, rest) ← firstStep fuel body (c :: rest)
      return step :: (← steps fuel body rest) := by
  by_cases hdot : c = '.'
  · subst hdot
    cases rest with
    | nil => simp [steps, firstStep]
    | cons d rest =>
        by_cases hdots : d = '.'
        · subst hdots
          simp [steps, firstStep]
        · simp [steps, firstStep, hdots]
  · by_cases hopen : c = '['
    · subst hopen
      simp [steps, firstStep]
    · simp [steps, firstStep, hdot, hopen, hc]
      rfl

/-- The step that stands between brackets. -/
def stepInside (fuel : Nat) (body : List Char) : List Char → Except RuleError Step
  | ['*'] => .ok .wildcard
  | '?' :: raw => do return .filter (← condition fuel raw)
  | '\'' :: more => .ok (.child (quotedNames ('\'' :: more)))
  | '"' :: more => .ok (.child (quotedNames ('"' :: more)))
  | [] => .error (.path (String.ofList body) .emptyBrackets)
  | inner =>
    match Select.IndexFilter.parse? inner with
    | some filter => .ok (.indices filter)
    | none => .ok (.child [String.ofList inner])

theorem bracket_of_closeBracket? (h : closeBracket? none 1 [] cs = some (inside, rest)) :
    bracket (fuel + 1) body cs = do
      let step ← stepInside fuel body (Text.trim inside)
      return (step, rest) := by
  rw [bracket, h]
  dsimp only
  generalize Text.trim inside = inner
  unfold stepInside
  split
  · rfl
  · simp
  · rfl
  · rfl
  · rfl
  · split
    · simp_all
    · simp_all

theorem bracket_of_closeBracket?_eq_none (h : closeBracket? none 1 [] cs = none) :
    bracket (fuel + 1) body cs = .error (.path (String.ofList body) .unclosedBracket) := by
  rw [bracket, h]

def isNameChar (c : Char) : Bool :=
  c != '.' && c != '['

/-- The name behind a dot. -/
def dottedName (body cs : List Char) : Except RuleError (Step × List Char) :=
  if (Text.trim (cs.takeWhile isNameChar)).isEmpty then
    .error (.path (String.ofList body) .emptyName)
  else
    .ok (.child [String.ofList (Text.trim (cs.takeWhile isNameChar))], cs.dropWhile isNameChar)

theorem stepAfterDot_star (descend : Bool) (rest : List Char) :
    stepAfterDot (fuel + 1) body descend ('*' :: rest) = .ok (.wildcard, rest) :=
  rfl

theorem stepAfterDot_bracket (rest : List Char) :
    stepAfterDot (fuel + 1) body true ('[' :: rest) = bracket fuel body rest :=
  rfl

theorem stepAfterDot_name {descend : Bool} (hstar : cs.head? ≠ some '*')
    (hopen : descend = true → cs.head? ≠ some '[') :
    stepAfterDot (fuel + 1) body descend cs = dottedName body cs := by
  unfold stepAfterDot
  split
  · simp at hstar
  · rw [if_neg (by simpa using hopen)]
    rfl
  · rfl

/-! ## Rests -/

theorem append_of_closeBracket? {quote : Option Char} {depth : Nat} {done : List Char}
    (h : closeBracket? quote depth done cs = some (inside, rest)) :
    inside ++ ']' :: rest = done.reverse ++ cs := by
  fun_induction closeBracket? quote depth done cs <;> simp_all

theorem length_of_closeBracket? (h : closeBracket? none 1 [] cs = some (inside, rest)) :
    inside.length + rest.length < cs.length := by
  have hlength := congrArg List.length (append_of_closeBracket? h)
  simp only [List.length_append, List.length_cons, List.reverse_nil, List.nil_append] at hlength
  omega

theorem length_lt_of_bracket (h : bracket fuel body cs = .ok (step, rest)) :
    rest.length < cs.length := by
  cases fuel with
  | zero => simp [bracket] at h
  | succ fuel =>
      cases hclose : closeBracket? none 1 [] cs with
      | none => simp [bracket_of_closeBracket?_eq_none hclose] at h
      | some found =>
          obtain ⟨inside, after⟩ := found
          rw [bracket_of_closeBracket? hclose] at h
          have hlength := length_of_closeBracket? hclose
          cases hstep : stepInside fuel body (Text.trim inside) with
          | error fault => simp [hstep] at h
          | ok found =>
              obtain ⟨-, rfl⟩ : found = step ∧ after = rest := by simpa [hstep] using h
              omega

theorem length_le_of_dottedName (h : dottedName body cs = .ok (step, rest)) :
    rest.length ≤ cs.length := by
  unfold dottedName at h
  split at h
  · simp at h
  · obtain ⟨-, rfl⟩ := Prod.mk.inj (Except.ok.inj h)
    exact (List.dropWhile_suffix _).length_le

theorem length_le_of_stepAfterDot {descend : Bool}
    (h : stepAfterDot fuel body descend cs = .ok (step, rest)) : rest.length ≤ cs.length := by
  cases fuel with
  | zero => simp [stepAfterDot] at h
  | succ fuel =>
      by_cases hstar : cs.head? = some '*'
      · obtain ⟨after, rfl⟩ := List.head?_eq_some_iff.1 hstar
        rw [stepAfterDot_star] at h
        obtain ⟨-, rfl⟩ := Prod.mk.inj (Except.ok.inj h)
        simp
      · by_cases hopen : descend = true ∧ cs.head? = some '['
        · obtain ⟨rfl, hhead⟩ := hopen
          obtain ⟨after, rfl⟩ := List.head?_eq_some_iff.1 hhead
          have := length_lt_of_bracket h
          rw [List.length_cons]
          omega
        · rw [stepAfterDot_name hstar fun hdescend hhead => hopen ⟨hdescend, hhead⟩] at h
          exact length_le_of_dottedName h

theorem length_lt_of_firstStep (h : firstStep fuel body cs = .ok (step, rest)) :
    rest.length < cs.length := by
  unfold firstStep at h
  split at h
  next after =>
    cases hstep : stepAfterDot fuel body true after with
    | error fault => simp [hstep] at h
    | ok found =>
        obtain ⟨inner, behind⟩ := found
        obtain ⟨-, rfl⟩ : Step.descend inner = step ∧ behind = rest := by simpa [hstep] using h
        have := length_le_of_stepAfterDot hstep
        simp only [List.length_cons]
        omega
  next after _ =>
    have := length_le_of_stepAfterDot h
    rw [List.length_cons]
    omega
  next after =>
    have := length_lt_of_bracket h
    rw [List.length_cons]
    omega
  next => simp at h

/-! ## Conditions -/

theorem length_conditionText_le (raw : List Char) : (conditionText raw).length ≤ raw.length := by
  have htrim := Text.length_trim_le raw
  unfold conditionText
  dsimp only
  split
  next rest heq =>
    rw [heq, List.length_cons] at htrim
    split
    · have := Text.length_trim_le rest.dropLast
      rw [List.length_dropLast] at this
      omega
    · rw [heq, List.length_cons]
      omega
  next => exact htrim

/-- A path that begins with `@` is longer than what stands behind it. -/
theorem length_pathBody_lt (cs : List Char) : (pathBody ('@' :: cs)).length < cs.length + 1 := by
  rw [pathBody, Text.trim_cons (by decide)]
  exact Nat.lt_succ_of_le (Text.trimEnd_isPrefix cs).length_le

/-- The left side of a comparison begins with `@` and is no longer than the text. -/
theorem left_of_comparison? {left right : List Char} {op : Comparison}
    (h : comparison? cs = some (left, op, right)) :
    ∃ path, left = '@' :: path ∧ left.length ≤ cs.length := by
  have hside : ∀ (front side : List Char) (op' : Comparison),
      ((rightSide? side).map fun side => (Text.trimEnd front, op', side)) = some (left, op, right) →
        left = Text.trimEnd front := by
    intro front side op' hmap
    obtain ⟨_, -, heq⟩ := Option.map_eq_some_iff.1 hmap
    exact (Prod.mk.inj heq).1.symm
  have hlength := (List.takeWhile_prefix (fun c => !isComparisonChar c) (l := cs)).length_le
  unfold comparison? at h
  dsimp only at h
  split at h
  next path heq =>
    have hleft : left = Text.trimEnd ('@' :: path) := by
      rw [heq] at h
      split at h
      · exact hside _ _ _ h
      · exact hside _ _ _ h
      · rcases (Option.orElse_eq_some _ _ _).1 h with h | ⟨-, h⟩ <;> exact hside _ _ _ h
      · rcases (Option.orElse_eq_some _ _ _).1 h with h | ⟨-, h⟩ <;> exact hside _ _ _ h
      · exact hside _ _ _ h
      · exact hside _ _ _ h
      · simp at h
    rw [heq] at hlength
    refine ⟨Text.trimEnd path, ?_, ?_⟩
    · rw [hleft, Text.trimEnd_cons (by decide)]
    · rw [hleft]
      exact (Text.trimEnd_isPrefix _).length_le.trans hlength
  next => simp at h

/-! ## Enough fuel -/

/-- More fuel than `n` makes no difference for texts that `n` is enough for. -/
structure Ends (n : Nat) : Prop where
  steps : ∀ body cs m, 3 * cs.length + 3 ≤ n → n ≤ m → steps m body cs = steps n body cs
  stepAfterDot : ∀ body descend cs m, 3 * cs.length + 2 ≤ n → n ≤ m →
    stepAfterDot m body descend cs = stepAfterDot n body descend cs
  bracket : ∀ body cs m, 3 * cs.length + 1 ≤ n → n ≤ m → bracket m body cs = bracket n body cs
  condition : ∀ raw m, 3 * raw.length + 1 ≤ n → n ≤ m → condition m raw = condition n raw

section Ends

variable {n m : Nat}

theorem Ends.condition_succ (h : Ends n) (hn : 3 * raw.length ≤ n) (hm : n ≤ m) :
    Json.condition (m + 1) raw = Json.condition (n + 1) raw := by
  have htext := length_conditionText_le raw
  unfold Json.condition
  dsimp only
  split
  next left op right heq =>
    obtain ⟨path, rfl, hlength⟩ := left_of_comparison? heq
    have hbody := length_pathBody_lt path
    rw [List.length_cons] at hlength
    rw [h.steps _ _ m (by omega) hm]
  next =>
    split
    next path heq =>
      have hbody := length_pathBody_lt path
      rw [heq, List.length_cons] at htext
      rw [heq, h.steps _ _ m (by omega) hm]
    next => rfl

theorem Ends.stepInside (h : Ends n) (hn : 3 * inside.length ≤ n + 2) (hm : n ≤ m) :
    stepInside m body inside = stepInside n body inside := by
  unfold Json.stepInside
  split
  · rfl
  · rw [h.condition _ m (by simp only [List.length_cons] at hn; omega) hm]
  all_goals rfl

theorem Ends.bracket_succ (h : Ends n) (hn : 3 * cs.length ≤ n) (hm : n ≤ m) :
    Json.bracket (m + 1) body cs = Json.bracket (n + 1) body cs := by
  cases hclose : closeBracket? none 1 [] cs with
  | none => rw [bracket_of_closeBracket?_eq_none hclose, bracket_of_closeBracket?_eq_none hclose]
  | some found =>
      obtain ⟨inside, rest⟩ := found
      have hlength := length_of_closeBracket? hclose
      have htrim := Text.length_trim_le inside
      rw [bracket_of_closeBracket? hclose, bracket_of_closeBracket? hclose,
        h.stepInside (by omega) hm]

theorem Ends.stepAfterDot_succ (h : Ends n) {descend : Bool} (hn : 3 * cs.length ≤ n + 1)
    (hm : n ≤ m) : Json.stepAfterDot (m + 1) body descend cs =
      Json.stepAfterDot (n + 1) body descend cs := by
  by_cases hstar : cs.head? = some '*'
  · obtain ⟨after, rfl⟩ := List.head?_eq_some_iff.1 hstar
    rw [stepAfterDot_star, stepAfterDot_star]
  · by_cases hopen : descend = true ∧ cs.head? = some '['
    · obtain ⟨rfl, hhead⟩ := hopen
      obtain ⟨after, rfl⟩ := List.head?_eq_some_iff.1 hhead
      rw [List.length_cons] at hn
      rw [stepAfterDot_bracket, stepAfterDot_bracket, h.bracket _ _ m (by omega) hm]
    · have hname : descend = true → cs.head? ≠ some '[' :=
        fun hdescend hhead => hopen ⟨hdescend, hhead⟩
      rw [stepAfterDot_name hstar hname, stepAfterDot_name hstar hname]

theorem Ends.firstStep (h : Ends n) (hn : 3 * cs.length + 2 ≤ n) (hm : n ≤ m) :
    firstStep m body cs = firstStep n body cs := by
  unfold Json.firstStep
  split
  · simp only [List.length_cons] at hn
    rw [h.stepAfterDot _ _ _ m (by omega) hm]
  · simp only [List.length_cons] at hn
    rw [h.stepAfterDot _ _ _ m (by omega) hm]
  · simp only [List.length_cons] at hn
    rw [h.bracket _ _ m (by omega) hm]
  · rfl

theorem Ends.steps_succ (h : Ends n) (hn : 3 * cs.length + 2 ≤ n) (hm : n ≤ m) :
    Json.steps (m + 1) body cs = Json.steps (n + 1) body cs := by
  cases cs with
  | nil => rfl
  | cons c cs =>
      rw [List.length_cons] at hn
      by_cases hblank : c = ' '
      · subst hblank
        exact h.steps body cs m (by omega) hm
      · rw [steps_cons hblank, steps_cons hblank,
          h.firstStep (by rw [List.length_cons]; omega) hm]
        cases hstep : Json.firstStep n body (c :: cs) with
        | error fault => rfl
        | ok found =>
            obtain ⟨step, rest⟩ := found
            have hlength := length_lt_of_firstStep hstep
            rw [List.length_cons] at hlength
            have hrest := h.steps body rest m (by omega) hm
            simp only [bind, Except.bind, hrest]

theorem ends (n : Nat) : Ends n := by
  -- the readers call each other, so one induction carries all four
  induction n with
  | zero =>
      constructor <;> intros <;> omega
  | succ n ih =>
      constructor
      · intro body cs m hn hm
        cases m with
        | zero => omega
        | succ m => exact ih.steps_succ (by omega) (by omega)
      · intro body descend cs m hn hm
        cases m with
        | zero => omega
        | succ m => exact ih.stepAfterDot_succ (by omega) (by omega)
      · intro body cs m hn hm
        cases m with
        | zero => omega
        | succ m => exact ih.bracket_succ (by omega) (by omega)
      · intro raw m hn hm
        cases m with
        | zero => omega
        | succ m => exact ih.condition_succ (by omega) (by omega)

end Ends

end BookRules.Json
