import BookRules.Proofs.Css.Names
import BookRules.Proofs.Text.Trimming
import BookRules.Select.CssRule
import Mathlib.Tactic.IntervalCases

/-!
# Names of classes and ids in selectors

A backslash in front of a character that names do not hold makes it stand for itself, so an
escaped name is read back character by character.  Not so in front of a digit: there the
backslash opens the number of another character.  A hyphen in front of a digit, or alone,
is not escaped and starts no identifier.  All other names are read back as they are, and
only then a step looks for the elements with the name.
-/

namespace BookRules.Select.CssRule

open BookRules.Markup (Element)
open Text (isBlank)

variable {c d : Char} {name rest : List Char} {e : Element}

/-- A character of a name behind the first one. -/
def escapeChar (c : Char) : List Char :=
  if needsEscape false c then ['\\', c] else [c]

structure IsPlainName (name : List Char) : Prop where
  nonempty : name ≠ []
  plain : ∀ c ∈ name, isBlank c = false ∧ c ≠ '\x00'

/-- No backslash makes such a name an identifier: it starts with a digit, or with a hyphen
that has a digit or nothing behind it. -/
def startsLikeNumber : List Char → Bool
  | ['-'] => true
  | '-' :: d :: _ => d.isDigit
  | c :: _ => c.isDigit
  | [] => false

/-! ## Characters that are escaped -/

theorem isAlphanum_of_isHexDigit (h : Text.isHexDigit c = true) : c.isAlphanum = true := by
  have hhex : 48 ≤ c.toNat ∧ c.toNat ≤ 57 ∨ 97 ≤ c.toNat ∧ c.toNat ≤ 102 ∨
      65 ≤ c.toNat ∧ c.toNat ≤ 70 := by
    unfold Text.isHexDigit Text.hexValue? at h
    split_ifs at h with hdigit hlower hupper
    · simp only [Bool.and_eq_true, decide_eq_true_eq] at hdigit
      exact Or.inl hdigit
    · simp only [Bool.and_eq_true, decide_eq_true_eq] at hlower
      exact Or.inr (Or.inl hlower)
    · simp only [Bool.and_eq_true, decide_eq_true_eq] at hupper
      exact Or.inr (Or.inr hupper)
    · simp at h
  have halphanum : c.isAlphanum = (c.isAlpha || c.isDigit) := rfl
  rw [halphanum, Bool.or_eq_true, Css.isAlpha_iff]
  rcases hhex with hdigit | hletter
  · exact Or.inr (Char.isDigit_iff_toNat.2 hdigit)
  · omega

theorem isHexDigit_eq_false (h : needsEscape false c = true) : Text.isHexDigit c = false := by
  by_contra hhex
  rw [Bool.not_eq_false] at hhex
  simp [needsEscape, isAlphanum_of_isHexDigit hhex] at h

theorem isNameChar_of_needsEscape (h : needsEscape false c = false) : Css.isNameChar c = true := by
  simp only [needsEscape, Bool.and_eq_false_iff, decide_eq_false_iff_not, Bool.false_and,
    Bool.or_false, Bool.not_eq_false', Bool.or_eq_true, Char.isAlphanum] at h
  simp only [Css.isNameChar, Css.isNameStart, Bool.or_eq_true, decide_eq_true_eq]
  rcases h with hbeyond | ((halpha | hdigit) | hhyphen) | hunder
  · exact Or.inl (Or.inl (Or.inr (Nat.not_lt.1 hbeyond)))
  · simp [halpha]
  · simp [hdigit]
  · simp [hhyphen]
  · simp [hunder]

theorem isLineEnd_eq_false (h : isBlank c = false) : Css.isLineEnd c = false := by
  have hne : c ≠ '\n' ∧ c ≠ '\r' ∧ c ≠ '\x0c' := by
    refine ⟨?_, ?_, ?_⟩ <;> rintro rfl <;> exact absurd h (by decide)
  simp [Css.isLineEnd, hne]

theorem isSpace_eq_false (h : isBlank c = false) : Css.isSpace c = false := by
  have hne : c ≠ ' ' ∧ c ≠ '\t' ∧ c ≠ '\n' ∧ c ≠ '\r' ∧ c ≠ '\x0c' := by
    refine ⟨?_, ?_, ?_, ?_, ?_⟩ <;> rintro rfl <;> exact absurd h (by decide)
  simp [Css.isSpace, hne]

theorem name_escapeChar (hc : isBlank c = false ∧ c ≠ '\x00') (fuel : Nat) (rest : List Char) :
    Css.name (fuel + 1) (escapeChar c ++ rest) =
      (c :: (Css.name fuel rest).1, (Css.name fuel rest).2) := by
  by_cases hescape : needsEscape false c = true
  · rw [escapeChar, if_pos hescape]
    exact Css.name_backslash (isHexDigit_eq_false hescape) (isLineEnd_eq_false hc.1) hc.2 fuel rest
  · rw [escapeChar, if_neg hescape]
    exact Css.name_cons (isNameChar_of_needsEscape (by simpa using hescape)) hc.2 fuel rest

/-- Escaped characters are read back, with or without a first one of its own. -/
theorem name_flatMap_escapeChar (hplain : ∀ c ∈ name, isBlank c = false ∧ c ≠ '\x00') {fuel : Nat}
    (hfuel : name.length ≤ fuel) : Css.name fuel (name.flatMap escapeChar) = (name, []) := by
  induction name generalizing fuel with
  | nil => exact Css.name_nil fuel
  | cons c name ih =>
      rw [List.forall_mem_cons] at hplain
      cases fuel with
      | zero => simp at hfuel
      | succ fuel =>
          have hlater := ih hplain.2 (Nat.le_of_succ_le_succ hfuel)
          rw [List.flatMap_cons, name_escapeChar hplain.1, hlater]

/-! ## Names that are read back -/

theorem escapeName_cons (hc : c.isDigit = false) (rest : List Char) :
    escapeName (c :: rest) = (c :: rest).flatMap escapeChar := by
  have hfirst : needsEscape true c = needsEscape false c := by simp [needsEscape, hc]
  have hname : escapeName (c :: rest) =
      (if needsEscape true c then ['\\', c] else [c]) ++ rest.flatMap escapeChar := rfl
  rw [hname, hfirst, List.flatMap_cons, escapeChar]

/-- What starts an escaped text is a backslash or needs none. -/
theorem exists_of_flatMap_eq_cons (h : name.flatMap escapeChar = d :: rest) (hd : d ≠ '\\') :
    ∃ more, name = d :: more ∧ more.flatMap escapeChar = rest ∧ needsEscape false d = false := by
  cases name with
  | nil => simp at h
  | cons c more =>
      rw [List.flatMap_cons] at h
      by_cases hescape : needsEscape false c = true
      · rw [escapeChar, if_pos hescape] at h
        exact absurd (List.cons.inj h).1.symm hd
      · rw [escapeChar, if_neg hescape] at h
        obtain ⟨rfl, hrest⟩ := List.cons.inj h
        exact ⟨more, rfl, hrest, by simpa using hescape⟩

theorem startsLikeNumber_iff : startsLikeNumber name = true ↔
    (∃ c rest, name = c :: rest ∧ c.isDigit = true) ∨
      ∃ rest, name = '-' :: rest ∧ ∀ d ∈ rest.head?, d.isDigit = true := by
  cases name with
  | nil => simp [startsLikeNumber]
  | cons c rest =>
      by_cases hc : c = '-'
      · subst hc
        have hdigit : Char.isDigit '-' = false := rfl
        cases rest with
        | nil => simp [startsLikeNumber]
        | cons d more => simp [startsLikeNumber, hdigit]
      · simp [startsLikeNumber, hc]

/-- All other names begin with what starts an identifier. -/
theorem exists_of_startsLikeNumber (hname : IsPlainName name) (h : startsLikeNumber name = false) :
    ∃ c rest, name = c :: rest ∧ c.isDigit = false ∧
      (c = '-' → ∃ d more, rest = d :: more ∧ d.isDigit = false) := by
  obtain ⟨c, rest, rfl⟩ := List.exists_cons_of_ne_nil hname.nonempty
  refine ⟨c, rest, rfl, ?_, ?_⟩
  · by_contra hdigit
    rw [Bool.not_eq_false] at hdigit
    rw [startsLikeNumber_iff.2 (Or.inl ⟨c, rest, rfl, hdigit⟩)] at h
    exact Bool.false_ne_true h.symm
  · rintro rfl
    cases rest with
    | nil => exact absurd h (by decide)
    | cons d more => exact ⟨d, more, rfl, h⟩

theorem isNameStart_of_isNameChar (h : Css.isNameChar c = true) (hdigit : c.isDigit = false)
    (hhyphen : c ≠ '-') : Css.isNameStart c = true := by
  simpa [Css.isNameChar, hdigit, hhyphen] using h

theorem startsIdent_backslash (hc : isBlank c = false) (rest : List Char) :
    Css.startsIdent ('\\' :: c :: rest) = true := by
  simp [Css.startsIdent, Css.escapes, isLineEnd_eq_false hc]

theorem startsIdent_escapeName (hname : IsPlainName name) (hstart : startsLikeNumber name = false) :
    Css.startsIdent (escapeName name) = true := by
  obtain ⟨c, rest, rfl, hdigit, hhyphen⟩ := exists_of_startsLikeNumber hname hstart
  have hblank : ∀ d ∈ c :: rest, isBlank d = false := fun d hd => (hname.plain d hd).1
  rw [escapeName_cons hdigit, List.flatMap_cons]
  by_cases hescape : needsEscape false c = true
  · rw [escapeChar, if_pos hescape]
    exact startsIdent_backslash (hblank c (by simp)) _
  · have hletter := isNameChar_of_needsEscape (by simpa using hescape : needsEscape false c = false)
    rw [escapeChar, if_neg hescape]
    by_cases hc : c = '-'
    · -- the second character decides
      obtain ⟨d, more, rfl, hdigit'⟩ := hhyphen hc
      subst hc
      rw [List.flatMap_cons]
      by_cases hescape' : needsEscape false d = true
      · rw [escapeChar, if_pos hescape']
        simp [Css.startsIdent, Css.escapes, isLineEnd_eq_false (hblank d (by simp))]
      · have hletter' := isNameChar_of_needsEscape
          (by simpa using hescape' : needsEscape false d = false)
        have hbackslash : d ≠ '\\' := by
          rintro rfl
          exact absurd hescape' (by decide)
        rw [escapeChar, if_neg hescape']
        by_cases hd : d = '-'
        · simp [Css.startsIdent, hd]
        · simp [Css.startsIdent, isNameStart_of_isNameChar hletter' hdigit' hd]
    · have hbackslash : c ≠ '\\' := by
        rintro rfl
        exact absurd hescape (by decide)
      simp [Css.startsIdent, hc, isNameStart_of_isNameChar hletter hdigit hc]

theorem length_le_length_flatMap (name : List Char) :
    name.length ≤ (name.flatMap escapeChar).length := by
  induction name with
  | nil => simp
  | cons c name ih =>
      have hone : 1 ≤ (escapeChar c).length := by
        unfold escapeChar
        split_ifs <;> simp
      rw [List.flatMap_cons, List.length_append, List.length_cons]
      omega

theorem readName_escapeName (hname : IsPlainName name) (hstart : startsLikeNumber name = false) :
    Css.readName (escapeName name) = (String.ofList name, []) := by
  obtain ⟨c, rest, rfl, hdigit, -⟩ := exists_of_startsLikeNumber hname hstart
  have hfuel := Nat.le_succ_of_le (length_le_length_flatMap (c :: rest))
  rw [escapeName_cons hdigit, Css.readName, name_flatMap_escapeChar hname.plain hfuel]

theorem not_isPrefix_escapeName (hname : IsPlainName name) (hstart : startsLikeNumber name = false) :
    ¬ ['-', '-', '>'] <+: escapeName name := by
  obtain ⟨c, rest, rfl, hdigit, -⟩ := exists_of_startsLikeNumber hname hstart
  rw [escapeName_cons hdigit]
  rintro ⟨after, hafter⟩
  obtain ⟨second, -, hsecond, -⟩ := exists_of_flatMap_eq_cons hafter.symm (by decide)
  obtain ⟨third, -, hthird, -⟩ := exists_of_flatMap_eq_cons hsecond (by decide)
  obtain ⟨-, -, -, hescape⟩ := exists_of_flatMap_eq_cons hthird (by decide)
  exact absurd hescape (by decide)

/-! ## Names that start with a digit -/

theorem isHexDigit_of_isDigit (h : c.isDigit = true) : Text.isHexDigit c = true := by
  have hdigit : 48 ≤ c.val ∧ c.val ≤ 57 := by simpa [Char.isDigit] using h
  have hrange : '0' ≤ c ∧ c ≤ '9' := hdigit
  simp [Text.isHexDigit, Text.hexValue?, hrange]

theorem flatMap_escapeChar_of_isHexDigit (h : ∀ c ∈ name, Text.isHexDigit c = true) :
    name.flatMap escapeChar = name := by
  induction name with
  | nil => rfl
  | cons c name ih =>
      rw [List.forall_mem_cons] at h
      have hkept : needsEscape false c = false := by
        simp [needsEscape, isAlphanum_of_isHexDigit h.1]
      rw [List.flatMap_cons, ih h.2, escapeChar, hkept]
      rfl

/-- An escaped character is no digit, so a number ends in front of it. -/
theorem takeWhile_take_flatMap (name : List Char) (n : Nat) :
    ((name.flatMap escapeChar).take n).takeWhile Text.isHexDigit =
      (name.take n).takeWhile Text.isHexDigit := by
  have hbackslash : Text.isHexDigit '\\' = false := by decide
  induction name generalizing n with
  | nil => rfl
  | cons c name ih =>
      cases n with
      | zero => simp
      | succ n =>
          rw [List.flatMap_cons]
          by_cases hescape : needsEscape false c = true
          · rw [escapeChar, if_pos hescape]
            simp [hbackslash, isHexDigit_eq_false hescape]
          · rw [escapeChar, if_neg hescape, List.singleton_append, List.take_succ_cons,
              List.take_succ_cons]
            by_cases hhex : Text.isHexDigit c = true
            · rw [List.takeWhile_cons_of_pos hhex, List.takeWhile_cons_of_pos hhex, ih]
            · rw [List.takeWhile_cons_of_neg hhex, List.takeWhile_cons_of_neg hhex]

theorem isSpace_head?_flatMap (hplain : ∀ c ∈ name, isBlank c = false ∧ c ≠ '\x00') :
    ∀ d ∈ (name.flatMap escapeChar).head?, Css.isSpace d = false := by
  intro d hd
  cases name with
  | nil => simp at hd
  | cons c name =>
      have hc := isSpace_eq_false (hplain c (by simp)).1
      by_cases hescape : needsEscape false c = true
      · rw [List.flatMap_cons, escapeChar, if_pos hescape] at hd
        obtain rfl : '\\' = d := by simpa using hd
        rfl
      · rw [List.flatMap_cons, escapeChar, if_neg hescape] at hd
        obtain rfl : c = d := by simpa using hd
        exact hc

theorem escapeName_digit (hdigit : c.isDigit = true) (rest : List Char) :
    escapeName (c :: rest) = '\\' :: c :: rest.flatMap escapeChar := by
  have hcode : c.toNat < 128 := lt_of_le_of_lt (Char.isDigit_iff_toNat.1 hdigit).2 (by decide)
  have hfirst : needsEscape true c = true := by simp [needsEscape, hdigit, hcode]
  have hname : escapeName (c :: rest) =
      (if needsEscape true c then ['\\', c] else [c]) ++ rest.flatMap escapeChar := rfl
  rw [hname, if_pos hfirst]
  rfl

/-- The digit and the hexadecimal digits behind it are read as the number of a character. -/
theorem exists_escape_digit (hplain : ∀ d ∈ rest, isBlank d = false ∧ d ≠ '\x00')
    (hdigit : c.isDigit = true) : ∃ hexs more, rest = hexs ++ more ∧
      Css.escape (c :: rest.flatMap escapeChar) =
        (Css.codePoint (c :: hexs), more.flatMap escapeChar) := by
  let hexs := (rest.take 5).takeWhile Text.isHexDigit
  obtain ⟨more, hmore⟩ : hexs <+: rest :=
    (List.takeWhile_prefix _).trans (List.take_prefix 5 rest)
  have hhexs : ∀ d ∈ hexs, Text.isHexDigit d = true := fun d hd => List.mem_takeWhile_imp hd
  have hdigits : ((c :: rest.flatMap escapeChar).take 6).takeWhile Text.isHexDigit = c :: hexs := by
    rw [List.take_succ_cons, List.takeWhile_cons_of_pos (isHexDigit_of_isDigit hdigit),
      takeWhile_take_flatMap]
  have hdrop : (c :: rest.flatMap escapeChar).drop (c :: hexs).length = more.flatMap escapeChar := by
    rw [← hmore, List.flatMap_append, flatMap_escapeChar_of_isHexDigit hhexs, List.length_cons,
      List.drop_succ_cons, List.drop_left]
  have hspace : ∀ d ∈ (more.flatMap escapeChar).head?, Css.isSpace d = false :=
    isSpace_head?_flatMap fun d hd => hplain d (hmore ▸ List.mem_append_right hexs hd)
  rw [← hdrop] at hspace
  have hescape := Css.escape_digits (List.cons_ne_nil c hexs) hdigits hspace
  rw [hdrop] at hescape
  exact ⟨hexs, more, hmore.symm, hescape⟩

theorem readName_digit (hname : IsPlainName (c :: rest)) (hdigit : c.isDigit = true) :
    Css.startsIdent (escapeName (c :: rest)) = true ∧ ∃ hexs more, rest = hexs ++ more ∧
      Css.readName (escapeName (c :: rest)) =
        (String.ofList (Css.codePoint (c :: hexs) :: more), []) := by
  have hplain := List.forall_mem_cons.1 hname.plain
  obtain ⟨hexs, more, rfl, hescape⟩ := exists_escape_digit hplain.2 hdigit
  have hescapes : Css.escapes (c :: (hexs ++ more).flatMap escapeChar) = true := by
    simp [Css.escapes, isLineEnd_eq_false hplain.1.1]
  have hmore : ∀ d ∈ more, isBlank d = false ∧ d ≠ '\x00' := fun d hd =>
    hplain.2 d (List.mem_append_right hexs hd)
  have hfuel : more.length ≤ ((hexs ++ more).flatMap escapeChar).length + 1 + 1 := by
    have hle := length_le_length_flatMap (hexs ++ more)
    rw [List.length_append] at hle
    omega
  have hread := name_flatMap_escapeChar hmore hfuel
  rw [escapeName_digit hdigit]
  refine ⟨startsIdent_backslash hplain.1.1 _, hexs, more, rfl, ?_⟩
  simp only [Css.readName, List.length_cons, Css.name, hescapes, if_true, hescape, hread]

theorem codePoint_digit_ne (hdigit : c.isDigit = true) : Css.codePoint [c] ≠ c := by
  obtain ⟨hlow, hhigh⟩ : 48 ≤ c.toNat ∧ c.toNat ≤ 57 := Char.isDigit_iff_toNat.1 hdigit
  have hchar : c = Char.ofNat c.toNat := (Char.ofNat_toNat c).symm
  rw [hchar]
  generalize c.toNat = code at hlow hhigh
  interval_cases code <;> decide

/-- What is read is another name. -/
theorem exists_ne_of_isDigit (hname : IsPlainName (c :: rest)) (hdigit : c.isDigit = true) :
    ∃ other, other ≠ c :: rest ∧ Css.startsIdent (escapeName (c :: rest)) = true ∧
      Css.readName (escapeName (c :: rest)) = (String.ofList other, []) := by
  obtain ⟨hstart, hexs, more, rfl, hread⟩ := readName_digit hname hdigit
  refine ⟨Css.codePoint (c :: hexs) :: more, fun heq => ?_, hstart, hread⟩
  obtain ⟨hfirst, hrest⟩ := List.cons.inj heq
  have hnone : hexs = [] := by
    have hlength := congrArg List.length hrest
    rw [List.length_append] at hlength
    exact List.eq_nil_of_length_eq_zero (by omega)
  rw [hnone] at hfirst
  exact codePoint_digit_ne hdigit hfirst

/-! ## Hyphens -/

theorem escapeName_hyphen (rest : List Char) :
    escapeName ('-' :: rest) = '-' :: rest.flatMap escapeChar := by
  have hkept : escapeChar '-' = ['-'] := by decide
  rw [escapeName_cons (by decide), List.flatMap_cons, hkept, List.singleton_append]

theorem isDigit_head?_flatMap (h : ∀ d ∈ rest.head?, d.isDigit = true) :
    ∀ d ∈ (rest.flatMap escapeChar).head?, d.isDigit = true := by
  cases rest with
  | nil => simp
  | cons c rest =>
      have hdigit : c.isDigit = true := h c rfl
      have hkept : needsEscape false c = false := by simp [needsEscape, Char.isAlphanum, hdigit]
      rw [List.flatMap_cons, escapeChar, hkept]
      exact h

/-! ## Elements with a name -/

def withClass (e : Element) (name : List Char) : List Element :=
  e.descendants.filter fun inner =>
    inner.tag.attributes.any fun a =>
      a.name == "class" && (Text.words a.value.toList).contains name

def withId (e : Element) (name : List Char) : List Element :=
  e.descendants.filter fun inner => inner.tag.value? "id" == some (String.ofList name)

theorem matching_eq {selector : String} {test : Css.Simple}
    (h : Css.parse? selector = some [.mk [test] .start]) :
    matching [e] selector = .ok (e.descendants.filter (test.matches e e)) := by
  have htest : Css.anyMatches e e [.mk [test] .start] = test.matches e e := by
    funext inner
    simp [Css.anyMatches, Css.Complex.matches, Css.allMatch, Css.Chain.matches]
  simp [matching, h, Css.select, htest]

theorem matching_eq_error {selector : String} (h : Css.parse? selector = none) :
    matching [e] selector = .error (.invalidSelector selector) := by
  simp [matching, h]

theorem words_eq_singleton (hname : IsPlainName name) : Text.words name = [name] := by
  have hwhole : name.splitOnP isBlank = [name] :=
    List.splitOnP_eq_singleton (fun c hc => by simp [(hname.plain c hc).1])
  simp [Text.words, hwhole, hname.nonempty]

section Steps

variable (hname : IsPlainName name)

include hname

theorem trim_step {kind : List Char} (hkind : ∀ c ∈ kind, isBlank c = false) :
    Text.trim (kind ++ name) = kind ++ name := by
  apply Text.trim_eq_self_of_forall
  intro c hc
  rcases List.mem_append.1 hc with hc | hc
  · exact hkind c hc
  · exact (hname.plain c hc).1

theorem located_class : located e ("class.".toList ++ name) =
    matching [e] (String.ofList ('.' :: escapeName name)) := by
  have htrim : Text.trim ("class.".toList ++ name) = "class.".toList ++ name :=
    trim_step hname (by decide)
  have hcut : Text.cutAt? ['.'] ("class.".toList ++ name) = some ("class".toList, name) := rfl
  have hwhole : ("class.".toList ++ name == "children".toList) = false := rfl
  simp only [located, htrim, hcut, hwhole, Option.getD_some, String.ofList_toList]
  simp [words_eq_singleton hname]

theorem located_id : located e ("id.".toList ++ name) =
    (matching [e] (String.ofList ('#' :: escapeName name))).map (·.take 1) := by
  have htrim : Text.trim ("id.".toList ++ name) = "id.".toList ++ name :=
    trim_step hname (by decide)
  have hcut : Text.cutAt? ['.'] ("id.".toList ++ name) = some ("id".toList, name) := rfl
  have hwhole : ("id.".toList ++ name == "children".toList) = false := rfl
  simp only [located, htrim, hcut, hwhole, Option.getD_some, String.ofList_toList]
  simp
  rfl

end Steps

section Found

variable (hname : IsPlainName name) (hstart : startsLikeNumber name = false)

include hname hstart

theorem located_class_eq : located e ("class.".toList ++ name) = .ok (withClass e name) := by
  have hparse := Css.parse?_class (startsIdent_escapeName hname hstart)
    (readName_escapeName hname hstart) (not_isPrefix_escapeName hname hstart)
  have htest : (Css.Simple.class_ (String.ofList name)).matches e e = fun inner =>
      inner.tag.attributes.any fun a =>
        a.name == "class" && (Text.words a.value.toList).contains name := by
    funext inner
    simp [Css.Simple.matches]
  rw [located_class hname, matching_eq hparse, htest]
  rfl

theorem located_id_eq : located e ("id.".toList ++ name) = .ok ((withId e name).take 1) := by
  have hparse := Css.parse?_id (startsIdent_escapeName hname hstart)
    (readName_escapeName hname hstart)
  have htest : (Css.Simple.id (String.ofList name)).matches e e =
      fun inner => inner.tag.value? "id" == some (String.ofList name) := by
    funext inner
    simp [Css.Simple.matches]
  rw [located_id hname, matching_eq hparse, htest]
  rfl

end Found

/-! ## Names that are not found -/

/-- An element with one element inside, which has one attribute. -/
def holder (key : String) (name : List Char) : Element where
  tag := ⟨.html, "div", []⟩
  children := [.element ⟨.html, "p", [⟨.none, key, String.ofList name⟩]⟩ []]
  above := []

def held (key : String) (name : List Char) : Element where
  tag := ⟨.html, "p", [⟨.none, key, String.ofList name⟩]⟩
  children := []
  above := [⟨.element ⟨.html, "div", []⟩, [], []⟩]

theorem descendants_holder (key : String) (name : List Char) :
    (holder key name).descendants = [held key name] := rfl

theorem withClass_holder (hname : IsPlainName name) :
    withClass (holder "class" name) name = [held "class" name] := by
  simp [withClass, descendants_holder, held, words_eq_singleton hname]

theorem withId_holder (name : List Char) :
    withId (holder "id" name) name = [held "id" name] := by
  simp [withId, descendants_holder, held, Markup.Tag.value?]

section Missed

variable (hname : IsPlainName name) (hstart : startsLikeNumber name = true)

include hname hstart

/-- Either another name is looked for or the selector is faulty. -/
theorem exists_ne_or_hyphen :
    (∃ other, other ≠ name ∧ Css.startsIdent (escapeName name) = true ∧
      Css.readName (escapeName name) = (String.ofList other, []) ∧
      ¬ ['-', '-', '>'] <+: escapeName name) ∨
    ∃ rest, escapeName name = '-' :: rest ∧ ∀ d ∈ rest.head?, d.isDigit = true := by
  rcases startsLikeNumber_iff.1 hstart with ⟨c, rest, rfl, hdigit⟩ | ⟨rest, rfl, hdigit⟩
  · obtain ⟨other, hne, hident, hread⟩ := exists_ne_of_isDigit hname hdigit
    refine Or.inl ⟨other, hne, hident, hread, ?_⟩
    rw [escapeName_digit hdigit]
    rintro ⟨after, hafter⟩
    simp at hafter
  · exact Or.inr ⟨_, escapeName_hyphen rest, isDigit_head?_flatMap hdigit⟩

theorem readName_escapeName_ne : ¬ (Css.startsIdent (escapeName name) = true ∧
    Css.readName (escapeName name) = (String.ofList name, [])) := by
  rintro ⟨hident, hread⟩
  rcases exists_ne_or_hyphen hname hstart with ⟨other, hne, -, hother, -⟩ | ⟨rest, hrest, hdigit⟩
  · rw [hother, Prod.mk.injEq, String.ofList_inj] at hread
    exact hne hread.1
  · rw [hrest, Css.startsIdent_hyphen_eq_false hdigit] at hident
    exact Bool.false_ne_true hident

theorem located_class_ne : located (holder "class" name) ("class.".toList ++ name) ≠
    .ok (withClass (holder "class" name) name) := by
  rw [located_class hname, withClass_holder hname]
  rcases exists_ne_or_hyphen hname hstart with
    ⟨other, hne, hident, hread, hclose⟩ | ⟨rest, hrest, hdigit⟩
  · rw [matching_eq (Css.parse?_class hident hread hclose), descendants_holder]
    simp [Css.Simple.matches, held, words_eq_singleton hname, hne]
  · rw [hrest, matching_eq_error (Css.parse?_class_hyphen hdigit)]
    simp

theorem located_id_ne : located (holder "id" name) ("id.".toList ++ name) ≠
    .ok ((withId (holder "id" name) name).take 1) := by
  rw [located_id hname, withId_holder]
  rcases exists_ne_or_hyphen hname hstart with ⟨other, hne, hident, hread, -⟩ | ⟨rest, hrest, hdigit⟩
  · have hvalue : String.ofList name ≠ String.ofList other := fun heq =>
      hne (String.ofList_inj.1 heq).symm
    have hnone : ((held "id" name).tag.value? "id" == some (String.ofList other)) = false := by
      simp [held, Markup.Tag.value?, hvalue]
    rw [matching_eq (Css.parse?_id hident hread), descendants_holder]
    simp [Css.Simple.matches, hnone, Except.map]
  · rw [hrest, matching_eq_error (Css.parse?_id_hyphen hdigit)]
    simp [Except.map]

end Missed

/-- A name is read back, and a step finds what has it, unless it starts like a number. -/
theorem escapeName_faithful_iff (hname : IsPlainName name) :
    (Css.startsIdent (escapeName name) = true ∧
        Css.readName (escapeName name) = (String.ofList name, []) ↔
      startsLikeNumber name = false) ∧
    ((∀ e, located e ("class.".toList ++ name) = .ok (withClass e name)) ↔
      startsLikeNumber name = false) ∧
    ((∀ e, located e ("id.".toList ++ name) = .ok ((withId e name).take 1)) ↔
      startsLikeNumber name = false) := by
  by_cases hstart : startsLikeNumber name = true
  · simp only [hstart, Bool.true_eq_false, iff_false]
    refine ⟨readName_escapeName_ne hname hstart, fun hclass => ?_, fun hid => ?_⟩
    · exact located_class_ne hname hstart (hclass (holder "class" name))
    · exact located_id_ne hname hstart (hid (holder "id" name))
  · rw [Bool.not_eq_true] at hstart
    simp only [hstart, iff_true]
    exact ⟨⟨startsIdent_escapeName hname hstart, readName_escapeName hname hstart⟩,
      fun e => located_class_eq hname hstart, fun e => located_id_eq hname hstart⟩

theorem escapeName_faithful_iff_fraction :
    IsPlainName "w-1/2".toList ∧
      Css.readName (escapeName "w-1/2".toList) = ("w-1/2", []) ∧
      (∀ e, located e "class.w-1/2".toList = .ok (withClass e "w-1/2".toList)) ∧
      ∀ e, located e "id.w-1/2".toList = .ok ((withId e "w-1/2".toList).take 1) := by
  have hname : IsPlainName "w-1/2".toList := ⟨by decide, by decide⟩
  have hstart : startsLikeNumber "w-1/2".toList = false := by decide
  obtain ⟨hread, hclass, hid⟩ := escapeName_faithful_iff hname
  exact ⟨hname, (hread.2 hstart).2, hclass.2 hstart, hid.2 hstart⟩

/-- The digits in front are read as the number of a character. -/
theorem not_readName_escapeName : ¬ ∀ name, IsPlainName name →
    Css.startsIdent (escapeName name) = true ∧
      Css.readName (escapeName name) = (String.ofList name, []) := by
  intro h
  have hname : IsPlainName "1a".toList := ⟨by decide, by decide⟩
  have hread : Css.readName (escapeName "1a".toList) = ("\x1a", []) := by decide
  have heq := (h _ hname).2
  rw [hread] at heq
  exact absurd heq (by decide)

end BookRules.Select.CssRule
