import BookRules.Proofs.Text.Spans
import BookRules.Proofs.Text.Trimming
import BookRules.Select.XPathRule

/-!
# Steps of location paths

A step closes its own quotes and brackets and hides its slashes in them, so the scan of a
path comes to its end as it began and cuts the path between the steps and nowhere else.
Each step is then read by itself, and the blanks around it do not matter: no predicate
reaches into them.
-/

namespace BookRules.Select.XPathRule

open Text (trim isBlank replaceSpans firstSpan?)

variable {nesting : Nesting} {cs rest front back : List Char} {c : Char}

/-! ## The scan of a path -/

namespace Nesting

def afterAll (nesting : Nesting) (cs : List Char) : Nesting :=
  cs.foldl after nesting

/-- Every slash stands inside quotes or brackets. -/
def HidesSlashes : Nesting → List Char → Prop
  | _, [] => True
  | nesting, c :: rest => ¬ (c = '/' ∧ nesting.isTop = true) ∧ (nesting.after c).HidesSlashes rest

instance decidableHidesSlashes : ∀ nesting cs, Decidable (HidesSlashes nesting cs)
  | _, [] => isTrue trivial
  | nesting, c :: rest =>
    have := decidableHidesSlashes (nesting.after c) rest
    inferInstanceAs (Decidable (¬ (c = '/' ∧ nesting.isTop = true) ∧ _))

theorem hidesSlashes_append_iff : nesting.HidesSlashes (front ++ back) ↔
    nesting.HidesSlashes front ∧ (nesting.afterAll front).HidesSlashes back := by
  induction front generalizing nesting with
  | nil => simp [HidesSlashes, afterAll]
  | cons c front ih => simp [HidesSlashes, ih, afterAll, and_assoc]

theorem hidesSlashes_of_not_mem (h : '/' ∉ cs) (nesting : Nesting) : nesting.HidesSlashes cs := by
  induction cs generalizing nesting with
  | nil => trivial
  | cons c cs ih =>
      rw [List.mem_cons, not_or] at h
      exact ⟨fun hslash => h.1 hslash.1.symm, ih h.2 _⟩

theorem after_of_isBlank (hc : isBlank c = true) (nesting : Nesting)
    (hquote : nesting.quote? = none) : nesting.after c = nesting := by
  have hsigns : isBlank '\'' = false ∧ isBlank '"' = false ∧ isBlank '[' = false ∧
      isBlank ']' = false := by decide
  have hne : c ≠ '\'' ∧ c ≠ '"' ∧ c ≠ '[' ∧ c ≠ ']' := by
    refine ⟨?_, ?_, ?_, ?_⟩ <;> rintro rfl <;> simp [hsigns] at hc
  simp [after, hquote, Rule.isQuote, hne]

theorem afterAll_of_isBlank (h : ∀ c ∈ cs, isBlank c = true) : afterAll {} cs = {} := by
  induction cs with
  | nil => rfl
  | cons c cs ih =>
      rw [List.forall_mem_cons] at h
      have hhere : after {} c = {} := after_of_isBlank h.1 {} rfl
      simpa [afterAll, hhere] using ih h.2

theorem quote?_afterAll (hquote : nesting.quote? = none) (h : ∀ c ∈ cs, Rule.isQuote c = false) :
    (nesting.afterAll cs).quote? = none := by
  induction cs generalizing nesting with
  | nil => exact hquote
  | cons c cs ih =>
      rw [List.forall_mem_cons] at h
      have hhere : (nesting.after c).quote? = none := by
        simp only [after, hquote, h.1, Bool.false_eq_true, if_false]
        split_ifs
        · rfl
        · rfl
        · exact hquote
      exact ih hhere h.2

theorem hidesSlashes_of_quote {quote : Char} (hquote : nesting.quote? = some quote)
    (h : quote ∉ cs) : nesting.HidesSlashes cs := by
  induction cs with
  | nil => trivial
  | cons c cs ih =>
      rw [List.mem_cons, not_or] at h
      have hsame : nesting.after c = nesting := by simp [after, hquote, Ne.symm h.1]
      refine ⟨fun hslash => by simp [isTop, hquote] at hslash, ?_⟩
      rw [hsame]
      exact ih h.2

end Nesting

theorem Nesting.after_slash (hquote : nesting.quote? ≠ some '/') : nesting.after '/' = nesting := by
  cases hq : nesting.quote? with
  | none => simp [after, hq, Rule.isQuote]
  | some quote =>
      have hne : ¬ '/' = quote := fun heq => hquote (heq ▸ hq)
      simp [after, hq, hne]

theorem segmentsFrom_slash_inside (htop : nesting.isTop = false) (hquote : nesting.quote? ≠ some '/')
    (anyDepth : Bool) (read rest : List Char) :
    segmentsFrom nesting anyDepth read ('/' :: rest) =
      segmentsFrom nesting anyDepth ('/' :: read) rest := by
  -- two slashes are passed at once
  induction hlength : rest.length using Nat.strongRecOn generalizing read rest with
  | ind length ih =>
      cases rest with
      | nil => simp [segmentsFrom, htop]
      | cons d rest =>
          by_cases hslash : d = '/'
          · subst hslash
            rw [ih rest.length (by simp [← hlength]) ('/' :: read) rest rfl]
            simp [segmentsFrom, htop]
          · simp [segmentsFrom, htop, Nesting.after_slash hquote, hslash]

theorem Nesting.quote?_after (hquote : nesting.quote? ≠ some '/') (c : Char) :
    (nesting.after c).quote? ≠ some '/' := by
  unfold Nesting.after
  split
  next quote hq =>
    split_ifs
    · simp
    · exact hquote
  next hq =>
    split_ifs with hc
    · intro heq
      obtain rfl := Option.some.inj heq
      simp [Rule.isQuote] at hc
    · exact hquote
    · exact hquote
    · exact hquote

theorem segmentsFrom_cons (hquote : nesting.quote? ≠ some '/')
    (h : ¬ (c = '/' ∧ nesting.isTop = true)) (anyDepth : Bool) (read rest : List Char) :
    segmentsFrom nesting anyDepth read (c :: rest) =
      segmentsFrom (nesting.after c) anyDepth (c :: read) rest := by
  by_cases hslash : c = '/'
  · subst hslash
    have htop : nesting.isTop = false := by simpa using h
    rw [segmentsFrom_slash_inside htop hquote, Nesting.after_slash hquote]
  · simp [segmentsFrom, hslash]

/-- A text that hides its slashes is read to its end. -/
theorem segmentsFrom_append (hquote : nesting.quote? ≠ some '/') (h : nesting.HidesSlashes cs)
    (anyDepth : Bool) (read rest : List Char) :
    segmentsFrom nesting anyDepth read (cs ++ rest) =
      segmentsFrom (nesting.afterAll cs) anyDepth (cs.reverse ++ read) rest := by
  induction cs generalizing nesting read with
  | nil => rfl
  | cons c cs ih =>
      rw [List.cons_append, segmentsFrom_cons hquote h.1, ih (Nesting.quote?_after hquote c) h.2]
      simp [Nesting.afterAll]

/-! ## Paths of steps -/

/-- What stands between two steps. -/
inductive Separator
  | child
  | descendant
  deriving DecidableEq, Repr

namespace Separator

def text : Separator → String
  | .child => "/"
  | .descendant => "//"

/-- The combinator of selectors. -/
def between : Separator → String
  | .child => " > "
  | .descendant => " "

def anyDepth : Separator → Bool
  | .child => false
  | .descendant => true

end Separator

def pathText (front : List (List Char × Separator)) (last : List Char) : List Char :=
  front.flatMap (fun part => part.1 ++ part.2.text.toList) ++ last

def segmentsOf (anyDepth : Bool) : List (List Char × Separator) → List Char → List Segment
  | [], last => [⟨anyDepth, last⟩]
  | (step, separator) :: front, last =>
    ⟨anyDepth, step⟩ :: segmentsOf separator.anyDepth front last

/-- A text that closes its quotes and brackets and has its slashes in them. -/
structure IsClosed (cs : List Char) : Prop where
  nonempty : cs ≠ []
  closed : Nesting.afterAll {} cs = {}
  hidesSlashes : Nesting.HidesSlashes {} cs

theorem segmentsFrom_separator (hrest : ∀ d ∈ rest.head?, d ≠ '/') (anyDepth : Bool)
    (read : List Char) (separator : Separator) :
    segmentsFrom {} anyDepth read (separator.text.toList ++ rest) =
      finished anyDepth read ++ segmentsFrom {} separator.anyDepth [] rest := by
  have htop : Nesting.isTop {} = true := rfl
  cases separator with
  | child =>
      cases rest with
      | nil => simp [Separator.text, Separator.anyDepth, segmentsFrom, htop]
      | cons d rest =>
          have hd : d ≠ '/' := hrest d rfl
          simp [Separator.text, Separator.anyDepth, segmentsFrom, htop, hd]
  | descendant => simp [Separator.text, Separator.anyDepth, segmentsFrom, htop]

theorem head?_ne_of_hidesSlashes (h : Nesting.HidesSlashes {} cs) : ∀ d ∈ cs.head?, d ≠ '/' := by
  intro d hd hslash
  cases cs with
  | nil => simp at hd
  | cons c rest =>
      obtain rfl : c = d := by simpa using hd
      exact h.1 ⟨hslash, rfl⟩

theorem hidesSlashes_head?_pathText {front : List (List Char × Separator)} {last : List Char}
    (hfront : ∀ part ∈ front, IsClosed part.1) (hlast : Nesting.HidesSlashes {} last) :
    ∀ d ∈ (pathText front last).head?, d ≠ '/' := by
  cases front with
  | nil => simpa [pathText] using head?_ne_of_hidesSlashes hlast
  | cons part front =>
      have hpart := hfront part (by simp)
      obtain ⟨c, more, hstep⟩ := List.exists_cons_of_ne_nil hpart.nonempty
      have hhead := head?_ne_of_hidesSlashes hpart.hidesSlashes
      simpa [pathText, hstep] using hhead

/-- A path is cut between its steps. -/
theorem segmentsFrom_pathText {front : List (List Char × Separator)} {last : List Char}
    (hfront : ∀ part ∈ front, IsClosed part.1) (hne : last ≠ [])
    (hlast : Nesting.HidesSlashes {} last) (anyDepth : Bool) :
    segmentsFrom {} anyDepth [] (pathText front last) = segmentsOf anyDepth front last := by
  have hquote : ({} : Nesting).quote? ≠ some '/' := by simp
  induction front generalizing anyDepth with
  | nil =>
      have hread := segmentsFrom_append hquote hlast anyDepth [] []
      rw [List.append_nil, List.append_nil] at hread
      rw [pathText, List.flatMap_nil, List.nil_append, hread, segmentsFrom]
      simp [finished, hne, segmentsOf]
  | cons part front ih =>
      obtain ⟨step, separator⟩ := part
      rw [List.forall_mem_cons] at hfront
      obtain ⟨hstep, hfront⟩ := hfront
      have hcons : pathText ((step, separator) :: front) last =
          step ++ (separator.text.toList ++ pathText front last) := by
        simp [pathText]
      rw [hcons, segmentsFrom_append hquote hstep.hidesSlashes, hstep.closed,
        segmentsFrom_separator (hidesSlashes_head?_pathText hfront hlast), ih hfront]
      simp [finished, hstep.nonempty, segmentsOf]

end BookRules.Select.XPathRule
