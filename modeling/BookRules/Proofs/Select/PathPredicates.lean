import BookRules.Proofs.Text.Spans
import BookRules.Proofs.Text.Trimming
import BookRules.Proofs.Unicode.Runs
import BookRules.Select.XPathRule

/-!
# Predicates of location paths

Every test of a predicate opens with a bracket and takes what it reads off the text.  The
tests that ask for no value hold no quote, so a quote behind a text ends what they read in
it; the others read two quotes.  The test of a position ends with a bracket, which no blanks
behind the text can stand for.
-/

namespace BookRules.Select.XPathRule

open Text (isBlank Recogniser TakesOff)

variable {cs rest front back word out after digits name : List Char} {c sign : Char}

/-- A character that a name may hold behind its first one. -/
def isNameChar (c : Char) : Bool :=
  Unicode.isWord c.toNat || c == '-'

/-- A decimal digit of any script. -/
def isDigitChar (c : Char) : Bool :=
  Unicode.isDecimal c.toNat

theorem name?_cons (c : Char) (rest : List Char) : name? (c :: rest) =
    if c.isAlpha || c == '_' then
      some (c :: rest.takeWhile isNameChar, rest.dropWhile isNameChar)
    else none :=
  rfl

theorem digits?_eq (cs : List Char) : digits? cs =
    if (cs.takeWhile isDigitChar).isEmpty then none
    else some (cs.takeWhile isDigitChar, cs.dropWhile isDigitChar) :=
  rfl

/-! ## Signs that are not read -/

section Sign

variable {accept : Char → Bool}

theorem takeWhile_append_sign (hsign : accept sign = false) (front back : List Char) :
    (front ++ sign :: back).takeWhile accept = front.takeWhile accept := by
  induction front with
  | nil => simp [hsign]
  | cons c front ih => by_cases hc : accept c = true <;> simp [hc, ih]

theorem dropWhile_append_sign (hsign : accept sign = false) (front back : List Char) :
    (front ++ sign :: back).dropWhile accept = front.dropWhile accept ++ sign :: back := by
  induction front with
  | nil => simp [hsign]
  | cons c front ih => by_cases hc : accept c = true <;> simp [hc, ih]

theorem this?_append_sign (hsign : sign ≠ c) (front back : List Char) :
    this? c (front ++ sign :: back) = (this? c front).map (· ++ sign :: back) := by
  cases front with
  | nil => simp [this?, one?, hsign]
  | cons d front => by_cases hd : d = c <;> simp [this?, one?, hd]

theorem stripFront?_append_sign (hsign : sign ∉ word) (front back : List Char) :
    Text.stripFront? word (front ++ sign :: back) =
      (Text.stripFront? word front).map (· ++ sign :: back) := by
  induction word generalizing front with
  | nil => rfl
  | cons w word ih =>
      rw [List.mem_cons, not_or] at hsign
      cases front with
      | nil => simp [Text.stripFront?, Ne.symm hsign.1]
      | cons d front => by_cases hd : w = d <;> simp [Text.stripFront?, hd, ih hsign.2]

end Sign

section Quote

variable {quote : Char} (hquote : Rule.isQuote quote = true)

include hquote

theorem eq_of_isQuote : quote = '\'' ∨ quote = '"' := by
  simpa [Rule.isQuote] using hquote

theorem spaces_append_quote (front back : List Char) :
    spaces (front ++ quote :: back) = spaces front ++ quote :: back := by
  have hblank : isBlank quote = false := by
    rcases eq_of_isQuote hquote with rfl | rfl <;> decide
  exact dropWhile_append_sign hblank front back

theorem name?_append_quote (front back : List Char) :
    name? (front ++ quote :: back) =
      (name? front).map fun found => (found.1, found.2 ++ quote :: back) := by
  have hmore : isNameChar quote = false := by
    rcases eq_of_isQuote hquote with rfl | rfl <;> decide
  cases front with
  | nil =>
      have hstart : (quote.isAlpha || quote == '_') = false := by
        rcases eq_of_isQuote hquote with rfl | rfl <;> decide
      rw [List.nil_append, name?_cons, hstart]
      rfl
  | cons c front =>
      rw [List.cons_append, name?_cons, name?_cons, takeWhile_append_sign hmore,
        dropWhile_append_sign hmore]
      split <;> rfl

theorem digits?_append_quote (front back : List Char) :
    digits? (front ++ quote :: back) =
      (digits? front).map fun found => (found.1, found.2 ++ quote :: back) := by
  have hdigit : isDigitChar quote = false := by
    rcases eq_of_isQuote hquote with rfl | rfl
    · exact Unicode.isDecimal_eq_isDigit (by decide)
    · exact Unicode.isDecimal_eq_isDigit (by decide)
  rw [digits?_eq, digits?_eq, takeWhile_append_sign hdigit, dropWhile_append_sign hdigit]
  split <;> rfl

theorem call?_append_quote (front back : List Char) :
    call? (front ++ quote :: back) = (call? front).map (· ++ quote :: back) := by
  have hopen : quote ≠ '(' ∧ quote ≠ ')' := by
    rcases eq_of_isQuote hquote with rfl | rfl <;> decide
  simp only [call?, spaces_append_quote hquote, this?_append_sign hopen.1, Option.bind_eq_bind,
    Option.bind_map, Function.comp_def, this?_append_sign hopen.2, Option.map_bind]

theorem presenceTest_endsBefore (back : List Char) :
    Recogniser.EndsBefore presenceTest (quote :: back) := by
  have hsigns : quote ≠ '[' ∧ quote ≠ '@' ∧ quote ≠ ']' := by
    rcases eq_of_isQuote hquote with rfl | rfl <;> decide
  intro front
  simp only [presenceTest, bracketName?, Option.bind_eq_bind, Option.bind_assoc, Option.pure_def,
    Option.bind_map, Option.map_bind, Option.map_some, Function.comp_def,
    this?_append_sign hsigns.1, this?_append_sign hsigns.2.1, this?_append_sign hsigns.2.2,
    name?_append_quote hquote]

theorem lastTest_endsBefore (back : List Char) :
    Recogniser.EndsBefore lastTest (quote :: back) := by
  have hsigns : quote ≠ '[' ∧ quote ≠ ']' ∧ quote ∉ "last".toList := by
    rcases eq_of_isQuote hquote with rfl | rfl <;> decide
  intro front
  unfold lastTest
  -- what the test stands for does not matter
  generalize ":last-of-type".toList = out
  simp only [Option.bind_eq_bind, Option.pure_def, Option.bind_map, Option.map_bind,
    Option.map_some, Function.comp_def, this?_append_sign hsigns.1, this?_append_sign hsigns.2.1,
    stripFront?_append_sign hsigns.2.2, spaces_append_quote hquote, call?_append_quote hquote]

theorem positionTest_endsBefore (back : List Char) :
    Recogniser.EndsBefore positionTest (quote :: back) := by
  have hsigns : quote ≠ '[' ∧ quote ≠ ']' := by
    rcases eq_of_isQuote hquote with rfl | rfl <;> decide
  intro front
  simp only [positionTest, Option.bind_eq_bind, Option.pure_def, Option.bind_map, Option.map_bind,
    Option.map_some, Function.comp_def, this?_append_sign hsigns.1, this?_append_sign hsigns.2,
    spaces_append_quote hquote, digits?_append_quote hquote]

theorem skipTest_endsBefore (back : List Char) :
    Recogniser.EndsBefore skipTest (quote :: back) := by
  have hsigns : quote ≠ '[' ∧ quote ≠ '>' ∧ quote ≠ ']' ∧ quote ∉ "position".toList := by
    rcases eq_of_isQuote hquote with rfl | rfl <;> decide
  intro front
  simp only [skipTest, Option.bind_eq_bind, Option.pure_def, Option.bind_map, Option.map_bind,
    Option.map_some, Function.comp_def, this?_append_sign hsigns.1, this?_append_sign hsigns.2.1,
    this?_append_sign hsigns.2.2.1, stripFront?_append_sign hsigns.2.2.2,
    spaces_append_quote hquote, call?_append_quote hquote, digits?_append_quote hquote]

theorem knownTest_endsBefore (back : List Char) :
    Recogniser.EndsBefore knownTest (quote :: back) := by
  have hsigns : quote ≠ ')' ∧ quote ∉ ":last-of-type".toList ∧
      quote ∉ ":nth-of-type(".toList := by
    rcases eq_of_isQuote hquote with rfl | rfl <;> decide
  intro front
  unfold knownTest
  rw [stripFront?_append_sign hsigns.2.1]
  cases Text.stripFront? ":last-of-type".toList front with
  | some rest => rfl
  | none =>
      simp only [Option.map_none, Option.bind_eq_bind, Option.pure_def, Option.bind_map,
        Option.map_bind, Option.map_some, Function.comp_def, stripFront?_append_sign hsigns.2.2,
        digits?_append_quote hquote, this?_append_sign hsigns.1]

end Quote

/-! ## What the tests read -/

theorem this?_eq_some_iff : this? c cs = some rest ↔ cs = c :: rest := by
  cases cs with
  | nil => simp [this?, one?]
  | cons d cs => simp [this?, one?]

theorem this?_isSuffix (h : this? c cs = some rest) : rest <:+ cs :=
  this?_eq_some_iff.1 h ▸ List.suffix_cons c rest

theorem stripFront?_isSuffix (h : Text.stripFront? word cs = some rest) : rest <:+ cs :=
  ⟨word, Text.stripFront?_eq_some_iff.1 h⟩

theorem spaces_isSuffix (cs : List Char) : spaces cs <:+ cs :=
  List.dropWhile_suffix isBlank

theorem append_of_name? (h : name? cs = some (name, rest)) : name ++ rest = cs := by
  cases cs with
  | nil => simp [name?] at h
  | cons c cs =>
      rw [name?_cons, Option.ite_none_right_eq_some] at h
      obtain ⟨rfl, rfl⟩ := Prod.mk.inj (Option.some.inj h.2)
      rw [List.cons_append, List.takeWhile_append_dropWhile]

theorem name?_isSuffix (h : name? cs = some (name, rest)) : rest <:+ cs := by
  rw [← append_of_name? h]
  exact List.suffix_append name rest

theorem digits?_isSuffix (h : digits? cs = some (digits, rest)) : rest <:+ cs := by
  rw [digits?_eq, Option.ite_none_left_eq_some] at h
  obtain ⟨-, h⟩ := h
  obtain ⟨-, rfl⟩ := Prod.mk.inj (Option.some.inj h)
  exact List.dropWhile_suffix isDigitChar

theorem isDigitChar_of_digits? (h : digits? cs = some (digits, rest)) :
    ∀ c ∈ digits, isDigitChar c = true := by
  rw [digits?_eq, Option.ite_none_left_eq_some] at h
  obtain ⟨rfl, -⟩ := Prod.mk.inj (Option.some.inj h.2)
  exact fun c hc => List.mem_takeWhile_imp hc

theorem call?_isSuffix (h : call? cs = some rest) : rest <:+ cs := by
  obtain ⟨more, hopen, hclose⟩ := Option.bind_eq_some_iff.1 h
  exact (this?_isSuffix hclose).trans ((spaces_isSuffix more).trans
    ((this?_isSuffix hopen).trans (spaces_isSuffix cs)))

theorem exists_of_presenceTest (h : presenceTest cs = some (out, after)) :
    ∃ name rest, cs = '[' :: '@' :: rest ∧ name? rest = some (name, ']' :: after) ∧
      out = '[' :: name ++ [']'] := by
  simp only [presenceTest, bracketName?, Option.bind_eq_bind, Option.pure_def, Option.bind_assoc,
    Option.bind_eq_some_iff, this?_eq_some_iff, Option.some.injEq, Prod.mk.injEq, Prod.exists] at h
  obtain ⟨_, rfl, rest, rfl, name, _, hname, _, rfl, rfl, rfl⟩ := h
  exact ⟨name, rest, rfl, hname, rfl⟩

theorem exists_of_lastTest (h : lastTest cs = some (out, after)) :
    ∃ rest word closing, cs = '[' :: rest ∧
      Text.stripFront? "last".toList (spaces rest) = some word ∧ call? word = some closing ∧
      spaces closing = ']' :: after ∧ out = ":last-of-type".toList := by
  simp only [lastTest, Option.bind_eq_bind, Option.pure_def, Option.bind_eq_some_iff,
    this?_eq_some_iff, Option.some.injEq, Prod.mk.injEq] at h
  obtain ⟨rest, rfl, word, hword, closing, hcall, _, hclosing, rfl, rfl⟩ := h
  exact ⟨rest, word, closing, rfl, hword, hcall, hclosing, rfl⟩

theorem exists_of_positionTest (h : positionTest cs = some (out, after)) :
    ∃ rest digits closing, cs = '[' :: rest ∧ digits? (spaces rest) = some (digits, closing) ∧
      spaces closing = ']' :: after ∧ out = nthOfType digits := by
  simp only [positionTest, Option.bind_eq_bind, Option.pure_def, Option.bind_eq_some_iff,
    this?_eq_some_iff, Option.some.injEq, Prod.mk.injEq, Prod.exists] at h
  obtain ⟨rest, rfl, digits, closing, hdigits, _, hclosing, rfl, rfl⟩ := h
  exact ⟨rest, digits, closing, rfl, hdigits, hclosing, rfl⟩

theorem exists_of_skipTest (h : skipTest cs = some (out, after)) :
    ∃ rest word sign number closing, cs = '[' :: rest ∧
      Text.stripFront? "position".toList (spaces rest) = some word ∧ call? word = some sign ∧
      spaces sign = '>' :: number ∧ digits? (spaces number) = some (out, closing) ∧
      spaces closing = ']' :: after := by
  simp only [skipTest, Option.bind_eq_bind, Option.pure_def, Option.bind_eq_some_iff,
    this?_eq_some_iff, Option.some.injEq, Prod.mk.injEq, Prod.exists] at h
  obtain ⟨rest, rfl, word, hword, sign, hcall, number, hsign, _, closing, hdigits, _, hclosing,
    rfl, rfl⟩ := h
  exact ⟨rest, word, sign, number, closing, rfl, hword, hcall, hsign, hdigits, hclosing⟩

theorem isSuffix_of_spaces_eq (h : spaces cs = c :: rest) : c :: rest <:+ cs :=
  h ▸ spaces_isSuffix cs

theorem presenceTest_standsIn : Recogniser.StandsIn presenceTest '[' ']' := by
  intro out cs after h
  obtain ⟨name, rest, rfl, hname, -⟩ := exists_of_presenceTest h
  exact ⟨'@' :: rest, rfl, (name?_isSuffix hname).trans (List.suffix_cons '@' rest)⟩

theorem lastTest_standsIn : Recogniser.StandsIn lastTest '[' ']' := by
  intro out cs after h
  obtain ⟨rest, word, closing, rfl, hword, hcall, hclosing, -⟩ := exists_of_lastTest h
  have hrest : word <:+ rest := (stripFront?_isSuffix hword).trans (spaces_isSuffix rest)
  exact ⟨rest, rfl, (isSuffix_of_spaces_eq hclosing).trans ((call?_isSuffix hcall).trans hrest)⟩

theorem positionTest_standsIn : Recogniser.StandsIn positionTest '[' ']' := by
  intro out cs after h
  obtain ⟨rest, digits, closing, rfl, hdigits, hclosing, -⟩ := exists_of_positionTest h
  exact ⟨rest, rfl, (isSuffix_of_spaces_eq hclosing).trans
    ((digits?_isSuffix hdigits).trans (spaces_isSuffix rest))⟩

theorem skipTest_standsIn : Recogniser.StandsIn skipTest '[' ']' := by
  intro out cs after h
  obtain ⟨rest, word, sign, number, closing, rfl, hword, hcall, hsign, hdigits, hclosing⟩ :=
    exists_of_skipTest h
  have hrest : word <:+ rest := (stripFront?_isSuffix hword).trans (spaces_isSuffix rest)
  have hnumber : number <:+ rest := (List.suffix_cons '>' number).trans
    ((isSuffix_of_spaces_eq hsign).trans ((call?_isSuffix hcall).trans hrest))
  exact ⟨rest, rfl, (isSuffix_of_spaces_eq hclosing).trans
    ((digits?_isSuffix hdigits).trans ((spaces_isSuffix number).trans hnumber))⟩

/-! ## Blanks behind a text -/

section Blanks

variable (hback : ∀ c ∈ back, isBlank c = true)

include hback

theorem spaces_append_blank (front : List Char) :
    spaces front = [] ∧ spaces (front ++ back) = [] ∨
      spaces front ≠ [] ∧ spaces (front ++ back) = spaces front ++ back := by
  by_cases hnil : spaces front = []
  · have hall : ∀ c ∈ front ++ back, isBlank c = true := by
      intro c hc
      rcases List.mem_append.1 hc with hc | hc
      · exact List.dropWhile_eq_nil_iff.1 hnil c hc
      · exact hback c hc
    exact Or.inl ⟨hnil, List.dropWhile_eq_nil_iff.2 hall⟩
  · exact Or.inr ⟨hnil, Text.trimStart_append hnil back⟩

theorem this?_append_blank (hc : isBlank c = false) (front : List Char) :
    this? c (front ++ back) = (this? c front).map (· ++ back) := by
  cases front with
  | nil =>
      cases back with
      | nil => rfl
      | cons d back =>
          have hd : d ≠ c := by
            rintro rfl
            simp [hback] at hc
          simp [this?, one?, hd]
  | cons d front => by_cases hd : d = c <;> simp [this?, one?, hd]

theorem this?_spaces_append_blank (hc : isBlank c = false) (front : List Char) :
    this? c (spaces (front ++ back)) = (this? c (spaces front)).map (· ++ back) := by
  rcases spaces_append_blank hback front with ⟨hnil, heq⟩ | ⟨-, heq⟩
  · rw [hnil, heq]
    rfl
  · rw [heq]
    exact this?_append_blank hback hc (spaces front)

theorem stripFront?_append_blank (hword : ∀ c ∈ word, isBlank c = false) (front : List Char) :
    Text.stripFront? word (front ++ back) = (Text.stripFront? word front).map (· ++ back) := by
  induction word generalizing front with
  | nil => rfl
  | cons w word ih =>
      rw [List.forall_mem_cons] at hword
      cases front with
      | nil =>
          cases back with
          | nil => rfl
          | cons d back =>
              have hd : w ≠ d := by
                rintro rfl
                simp [hback] at hword
              simp [Text.stripFront?, hd]
      | cons d front => by_cases hd : w = d <;> simp [Text.stripFront?, hd, ih hword.2]

theorem stripFront?_spaces_append_blank (hword : ∀ c ∈ word, isBlank c = false) (hne : word ≠ [])
    (front : List Char) :
    Text.stripFront? word (spaces (front ++ back)) =
      (Text.stripFront? word (spaces front)).map (· ++ back) := by
  rcases spaces_append_blank hback front with ⟨hnil, heq⟩ | ⟨-, heq⟩
  · rw [hnil, heq]
    cases word with
    | nil => exact absurd rfl hne
    | cons w word => rfl
  · rw [heq]
    exact stripFront?_append_blank hback hword (spaces front)

theorem call?_append_blank (front : List Char) :
    call? (front ++ back) = (call? front).map (· ++ back) := by
  have hsigns : isBlank '(' = false ∧ isBlank ')' = false := by decide
  simp only [call?, Option.bind_eq_bind, this?_spaces_append_blank hback hsigns.1, Option.bind_map,
    Function.comp_def, this?_spaces_append_blank hback hsigns.2, Option.map_bind]

end Blanks

/-- Read a number up to the bracket that closes its predicate. -/
def closedNumber? (cs : List Char) : Option (List Char × List Char) := do
  let (digits, rest) ← digits? (spaces cs)
  return (digits, ← this? ']' (spaces rest))

theorem digits?_append (hstop : cs.dropWhile isDigitChar ≠ []) (back : List Char) :
    digits? (cs ++ back) = (digits? cs).map fun found => (found.1, found.2 ++ back) := by
  have hshort : (cs.takeWhile isDigitChar).length ≠ cs.length := by
    intro hlength
    have hparts := congrArg List.length (List.takeWhile_append_dropWhile (p := isDigitChar) (l := cs))
    rw [List.length_append, hlength, Nat.add_eq_left, List.length_eq_zero_iff] at hparts
    exact hstop hparts
  rw [digits?_eq, digits?_eq, List.takeWhile_append, if_neg hshort, List.dropWhile_append,
    if_neg (mt List.isEmpty_iff.1 hstop)]
  by_cases hnone : (cs.takeWhile isDigitChar).isEmpty = true
  · rw [if_pos hnone, if_pos hnone, Option.map_none]
  · rw [if_neg hnone, if_neg hnone, Option.map_some]

theorem closedNumber?_append_blank (hback : ∀ c ∈ back, isBlank c = true) (front : List Char) :
    closedNumber? (front ++ back) =
      (closedNumber? front).map fun found => (found.1, found.2 ++ back) := by
  have hbracket : isBlank ']' = false := by decide
  unfold closedNumber?
  rcases spaces_append_blank hback front with ⟨hnil, heq⟩ | ⟨-, heq⟩
  · rw [hnil, heq]
    rfl
  · rw [heq]
    by_cases hstop : (spaces front).dropWhile isDigitChar = []
    · -- the number may reach into the blanks, and then nothing closes the predicate
      have hlater : (spaces front ++ back).dropWhile isDigitChar = back.dropWhile isDigitChar := by
        simp [List.dropWhile_append, hstop]
      have hblank : spaces (back.dropWhile isDigitChar) = [] :=
        List.dropWhile_eq_nil_iff.2 fun c hc =>
          hback c ((List.dropWhile_sublist isDigitChar).subset hc)
      have hopen : this? ']' (spaces []) = none := rfl
      have hopen' : this? ']' (spaces (back.dropWhile isDigitChar)) = none := by rw [hblank]; rfl
      rw [digits?_eq, digits?_eq, hlater, hstop]
      split_ifs <;> simp [hopen, hopen']
    · rw [digits?_append hstop]
      simp only [Option.bind_eq_bind, Option.pure_def, Option.bind_map, Function.comp_def,
        this?_spaces_append_blank hback hbracket, Option.map_bind, Option.map_some]

theorem skipTest_eq (cs : List Char) : skipTest cs = (this? '[' cs).bind fun rest =>
    (Text.stripFront? "position".toList (spaces rest)).bind fun word =>
    (call? word).bind fun sign => (this? '>' (spaces sign)).bind closedNumber? :=
  rfl

theorem skipTest_endsBefore_blank (hback : ∀ c ∈ back, isBlank c = true) :
    Recogniser.EndsBefore skipTest back := by
  have hsigns : isBlank '[' = false ∧ isBlank '>' = false ∧
      ∀ c ∈ "position".toList, isBlank c = false := by decide
  intro front
  simp only [skipTest_eq, this?_append_blank hback hsigns.1, Option.bind_map, Function.comp_def,
    stripFront?_spaces_append_blank hback hsigns.2.2 (by decide), call?_append_blank hback,
    this?_spaces_append_blank hback hsigns.2.1, closedNumber?_append_blank hback, Option.map_bind]

/-! ## Taking the number of matches off a step -/

/-- The predicate that leaves matches out, replaced by nothing. -/
def withoutSkip : Recogniser := fun cs =>
  (skipTest cs).map fun found => ([], found.2)

def skipNumber (digits : List Char) : Nat :=
  ((Decimal.natural? digits).filter (· ≤ skipMax)).getD 0

theorem withoutSkip_eq_none_iff : withoutSkip cs = none ↔ skipTest cs = none :=
  Option.map_eq_none_iff

theorem withoutSkip_standsIn : Recogniser.StandsIn withoutSkip '[' ']' := by
  intro out cs after h
  obtain ⟨⟨digits, rest⟩, hskip, hfound⟩ := Option.map_eq_some_iff.1 h
  obtain ⟨-, rfl⟩ := Prod.mk.inj hfound
  exact skipTest_standsIn digits cs rest hskip

theorem eq_nil_of_withoutSkip (h : withoutSkip cs = some (out, after)) : out = [] := by
  obtain ⟨found, -, hfound⟩ := Option.map_eq_some_iff.1 h
  exact (Prod.mk.inj hfound).1.symm

theorem withoutSkip_endsBefore (hends : Recogniser.EndsBefore skipTest back) :
    Recogniser.EndsBefore withoutSkip back := by
  intro front
  simp only [withoutSkip, hends front, Option.map_map, Function.comp_def]

theorem splitSkip_fst (cs : List Char) :
    (splitSkip cs).1 = (Text.firstSpan? skipTest cs).map skipNumber := by
  unfold splitSkip
  cases Text.firstSpan? skipTest cs <;> rfl

theorem splitSkip_snd (cs : List Char) :
    (splitSkip cs).2 = Text.replaceSpans withoutSkip cs := by
  unfold splitSkip
  cases hfirst : Text.firstSpan? skipTest cs with
  | none =>
      have hpasses := (Text.firstSpan?_eq_none_iff skipTest_standsIn.opensWith.takesOff).1 hfirst
      exact (Text.replaceSpans_eq_self fun tail htail =>
        withoutSkip_eq_none_iff.2 (hpasses tail htail)).symm
  | some digits => rfl

/-! ## Tests that read a value

Such a test opens with a bracket and reads a text in quotes, which has two of them.  So it
reads nothing in a text with fewer quotes, and behind the first quote of a value without
quotes there is no test of this kind.
-/

open Rule (isQuote)

variable {wanted value : List Char}

theorem one?_isQuote_eq_some (h : one? isQuote cs = some rest) :
    ∃ quote, isQuote quote = true ∧ cs = quote :: rest := by
  cases cs with
  | nil => simp [one?] at h
  | cons c cs =>
      rw [one?, Option.ite_none_right_eq_some] at h
      exact ⟨c, h.1, by rw [Option.some.inj h.2]⟩

/-- A text in quotes has two of them. -/
theorem quotes_of_quotedText? (h : quotedText? cs = some (value, rest)) :
    rest <:+ cs ∧ 2 ≤ cs.countP isQuote := by
  simp only [quotedText?, Option.bind_eq_bind, Option.pure_def, Option.bind_eq_some_iff,
    Option.some.injEq, Prod.mk.injEq] at h
  obtain ⟨more, hopen, closing, hclose, -, rfl⟩ := h
  obtain ⟨first, hfirst, rfl⟩ := one?_isQuote_eq_some hopen
  obtain ⟨second, hsecond, hmore⟩ := one?_isQuote_eq_some hclose
  have hsuffix : second :: closing <:+ more := hmore ▸ List.dropWhile_suffix _
  have hcount : (second :: closing).countP isQuote ≤ more.countP isQuote :=
    hsuffix.sublist.countP_le
  rw [List.countP_cons_of_pos hsecond] at hcount
  refine ⟨(List.suffix_cons second closing).trans (hsuffix.trans (List.suffix_cons first more)), ?_⟩
  rw [List.countP_cons_of_pos hfirst]
  omega

/-- A test that opens with a bracket and reads a text in quotes. -/
structure IsValueTest (test : Recogniser) : Prop where
  opensWith : Recogniser.OpensWith test '['
  quotes : ∀ out cs after, test.Reads out cs after → 2 ≤ cs.countP isQuote

/-- The end of a test: what is read in quotes stands at the end of `rest`. -/
theorem isValueTest_of_suffix {test : Recogniser}
    (h : ∀ out cs after, test.Reads out cs after → ∃ rest quoted value closing,
      cs = '[' :: rest ∧ quoted <:+ rest ∧ quotedText? quoted = some (value, closing) ∧
        after <:+ closing) : IsValueTest test where
  opensWith out cs after hreads := by
    obtain ⟨rest, quoted, value, closing, hcs, hquoted, hvalue, hafter⟩ := h out cs after hreads
    exact ⟨rest, hcs, hafter.trans ((quotes_of_quotedText? hvalue).1.trans hquoted)⟩
  quotes out cs after hreads := by
    obtain ⟨rest, quoted, value, closing, rfl, hquoted, hvalue, -⟩ := h out cs after hreads
    have htwo := (quotes_of_quotedText? hvalue).2
    exact htwo.trans (hquoted.trans (List.suffix_cons '[' rest)).sublist.countP_le

theorem exists_of_named? (h : named? wanted cs = some (value, after)) :
    ∃ more quoted, cs = '[' :: '@' :: wanted ++ more ∧ spaces more = '=' :: quoted ∧
      quotedText? (spaces quoted) = some (value, ']' :: after) := by
  simp only [named?, Option.bind_eq_bind, Option.pure_def, Option.bind_eq_some_iff,
    this?_eq_some_iff, Option.ite_none_left_eq_some, Option.some.injEq, Prod.mk.injEq,
    Prod.exists] at h
  obtain ⟨more, hfront, quoted, hequals, _, _, hquoted, -, _, rfl, rfl, rfl⟩ := h
  exact ⟨more, quoted, (Text.stripFront?_eq_some_iff.1 hfront).symm, hequals, hquoted⟩

theorem isValueTest_of_named {test : Recogniser} {write : List Char × List Char → List Char}
    (htest : ∀ cs, test cs = (named? wanted cs).map fun found => (write found, found.2)) :
    IsValueTest test := by
  apply isValueTest_of_suffix
  intro out cs after h
  rw [Recogniser.Reads, htest] at h
  obtain ⟨⟨value, rest⟩, hnamed, hfound⟩ := Option.map_eq_some_iff.1 h
  obtain ⟨-, rfl⟩ := Prod.mk.inj hfound
  obtain ⟨more, quoted, rfl, hequals, hquoted⟩ := exists_of_named? hnamed
  have hmore : spaces quoted <:+ more :=
    (spaces_isSuffix quoted).trans
      ((List.suffix_cons '=' quoted).trans (isSuffix_of_spaces_eq hequals))
  exact ⟨'@' :: wanted ++ more, spaces quoted, value, ']' :: rest, rfl,
    hmore.trans (List.suffix_append _ more), hquoted, List.suffix_cons ']' rest⟩

theorem classTest_eq (cs : List Char) : classTest cs = (named? "class".toList cs).map fun found =>
    ((Text.words found.1).flatMap ('.' :: ·), found.2) := by
  rw [classTest, Option.map_eq_bind]
  rfl

theorem idTest_eq (cs : List Char) : idTest cs = (named? "id".toList cs).map fun found =>
    ('#' :: found.1, found.2) := by
  rw [idTest, Option.map_eq_bind]
  rfl

theorem isValueTest_containsTest : IsValueTest containsTest := by
  apply isValueTest_of_suffix
  intro out cs after h
  simp only [Recogniser.Reads, containsTest, Option.bind_eq_bind, Option.pure_def,
    Option.bind_eq_some_iff, this?_eq_some_iff, Option.ite_none_left_eq_some, Option.some.injEq,
    Prod.mk.injEq, Prod.exists] at h
  obtain ⟨opened, hfront, inside, hopened, named, hinside, name, more, hname, quoted, hmore, value,
    closing, hquoted, -, last, hclosing, _, rfl, -, rfl⟩ := h
  have hcs : cs = '[' :: ("contains".toList ++ opened) :=
    (Text.stripFront?_eq_some_iff.1 hfront).symm
  have hopened' : inside <:+ opened :=
    (List.suffix_cons '(' inside).trans (isSuffix_of_spaces_eq hopened)
  have hinside' : named <:+ opened :=
    ((List.suffix_cons '@' named).trans (isSuffix_of_spaces_eq hinside)).trans hopened'
  have hmore' : quoted <:+ opened :=
    ((List.suffix_cons ',' quoted).trans (isSuffix_of_spaces_eq hmore)).trans
      ((name?_isSuffix hname).trans hinside')
  exact ⟨"contains".toList ++ opened, spaces quoted, value, closing, hcs,
    ((spaces_isSuffix quoted).trans hmore').trans (List.suffix_append _ opened), hquoted,
    (List.suffix_cons ']' _).trans ((List.suffix_cons ')' _).trans
      (isSuffix_of_spaces_eq hclosing))⟩

theorem exists_of_equalsTest (h : equalsTest cs = some (out, after)) :
    ∃ rest name more quoted value, cs = '[' :: '@' :: rest ∧ name? rest = some (name, more) ∧
      spaces more = '=' :: quoted ∧ quotedText? (spaces quoted) = some (value, ']' :: after) := by
  simp only [equalsTest, attributeEquals?, bracketName?, Option.bind_eq_bind, Option.pure_def,
    Option.bind_assoc, Option.bind_eq_some_iff, this?_eq_some_iff, Option.some.injEq,
    Prod.mk.injEq, Prod.exists] at h
  obtain ⟨_, rfl, rest, rfl, name, more, hname, quoted, hmore, value, _, hquoted, _, rfl, _, _, _,
    ⟨-, rfl⟩, -, rfl⟩ := h
  exact ⟨rest, name, more, quoted, value, rfl, hname, hmore, hquoted⟩

theorem isValueTest_equalsTest : IsValueTest equalsTest := by
  apply isValueTest_of_suffix
  intro out cs after h
  obtain ⟨rest, name, more, quoted, value, rfl, hname, hmore, hquoted⟩ := exists_of_equalsTest h
  have hquoted' : spaces quoted <:+ rest :=
    ((spaces_isSuffix quoted).trans ((List.suffix_cons '=' quoted).trans
      (isSuffix_of_spaces_eq hmore))).trans (name?_isSuffix hname)
  exact ⟨'@' :: rest, spaces quoted, value, ']' :: after, rfl,
    hquoted'.trans (List.suffix_cons '@' rest), hquoted, List.suffix_cons ']' after⟩

/-- Behind the value of a test there is no second quote to read. -/
theorem IsValueTest.passesOver {test : Recogniser} (htest : IsValueTest test)
    (hcs : cs.countP isQuote < 2) : test.PassesOver cs := by
  intro tail htail
  rw [Option.eq_none_iff_forall_ne_some]
  rintro ⟨out, after⟩ hsome
  have htwo := htest.quotes out tail after hsome
  have hle : tail.countP isQuote ≤ cs.countP isQuote := htail.sublist.countP_le
  omega

end BookRules.Select.XPathRule
