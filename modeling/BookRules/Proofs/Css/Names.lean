import BookRules.Css.Parser
import Mathlib.Tactic.Common

/-!
# Names in selectors

A name is read character by character, so what one character is read as is said once for the
characters that stand for themselves and once for those behind a backslash.  A text that
starts an identifier is read as one token by the lexer, and behind a dot or a hash sign this
token is the whole selector.
-/

namespace BookRules.Css

variable {c d : Char} {cs rest : List Char} {read : String}

/-! ## Reading a name -/

theorem name_nil (fuel : Nat) : name fuel [] = ([], []) := by
  cases fuel <;> rfl

/-- A character that names hold stands for itself. -/
theorem name_cons (hname : isNameChar c = true) (hnul : c ≠ '\x00') (fuel : Nat)
    (rest : List Char) :
    name (fuel + 1) (c :: rest) = (c :: (name fuel rest).1, (name fuel rest).2) := by
  have hbackslash : c ≠ '\\' := by
    rintro rfl
    exact absurd hname (by decide)
  -- the backslash has an equation of its own
  simp [name, hname, hnul]

/-- So does one behind a backslash, unless it is a hexadecimal digit. -/
theorem name_backslash (hhex : Text.isHexDigit c = false) (hend : isLineEnd c = false)
    (hnul : c ≠ '\x00') (fuel : Nat) (rest : List Char) :
    name (fuel + 1) ('\\' :: c :: rest) = (c :: (name fuel rest).1, (name fuel rest).2) := by
  have hescape : escape (c :: rest) = (c, rest) := by
    simp [escape, hhex, hnul]
  have hescapes : escapes (c :: rest) = true := by simp [escapes, hend]
  simp [name, hescapes, hescape]

/-- The character a number in hexadecimal digits stands for behind a backslash. -/
def codePoint (digits : List Char) : Char :=
  let code := Text.hexNumber digits
  if code == 0 || 0x10FFFF < code || (0xD800 ≤ code && code ≤ 0xDFFF) then '\uFFFD'
  else Char.ofNat code

/-- Hexadecimal digits behind a backslash are a number, up to six of them. -/
theorem escape_digits {digits : List Char} (hne : digits ≠ [])
    (hdigits : (cs.take 6).takeWhile Text.isHexDigit = digits)
    (hspace : ∀ c ∈ (cs.drop digits.length).head?, isSpace c = false) :
    escape cs = (codePoint digits, cs.drop digits.length) := by
  cases cs with
  | nil => exact absurd hdigits.symm hne
  | cons c rest =>
      have hnot : digits.isEmpty = false := List.isEmpty_eq_false_iff.2 hne
      simp only [escape, hdigits, hnot]
      cases hafter : (c :: rest).drop digits.length with
      | nil => simp [codePoint]
      | cons d more =>
          have hd : isSpace d = false := hspace d (by simp [hafter])
          have hreturn : d ≠ '\r' := by
            rintro rfl
            exact absurd hd (by decide)
          simp [codePoint, hd, hreturn]

/-! ## Identifiers as tokens -/

theorem isAlpha_iff : c.isAlpha = true ↔
    (65 ≤ c.toNat ∧ c.toNat ≤ 90) ∨ (97 ≤ c.toNat ∧ c.toNat ≤ 122) := by
  have halpha : c.isAlpha = (decide (65 ≤ c.val ∧ c.val ≤ 90) ||
      decide (97 ≤ c.val) && decide (c.val ≤ 122)) := rfl
  rw [halpha]
  simp only [Bool.or_eq_true, Bool.and_eq_true, decide_eq_true_eq, UInt32.le_iff_toNat_le]
  exact Iff.rfl

theorem isNameStart_of_isDigit (h : c.isDigit = true) : isNameStart c = false := by
  have hdigit : 48 ≤ c.toNat ∧ c.toNat ≤ 57 := Char.isDigit_iff_toNat.1 h
  have hsigns : c ≠ '_' ∧ c ≠ '\x00' := by
    constructor <;> rintro rfl <;> exact absurd hdigit (by decide)
  have hletter : c.isAlpha = false := by
    rw [Bool.eq_false_iff, ne_eq, isAlpha_iff]
    omega
  simp [isNameStart, hletter, hsigns]
  omega

/-- What an identifier may begin with. -/
theorem startsIdent_front (h : startsIdent (c :: rest) = true) :
    (isNameStart c || c == '-' || c == '\\') = true := by
  unfold startsIdent at h
  split at h <;> simp_all

theorem startsIdent_hyphen (h : startsIdent ('-' :: c :: rest) = true) :
    (isNameStart c || c == '-' || c == '\\') = true := by
  by_cases hc : c = '\\'
  · simp [hc]
  · have hsecond : (isNameStart c || c == '-') = true := by simpa [startsIdent, hc] using h
    rw [hsecond, Bool.true_or]

theorem isDigit_of_front (h : (isNameStart c || c == '-' || c == '\\') = true) :
    c.isDigit = false := by
  by_contra hdigit
  rw [Bool.not_eq_false] at hdigit
  have hne : c ≠ '-' ∧ c ≠ '\\' := by
    constructor <;> rintro rfl <;> exact absurd hdigit (by decide)
  simp [isNameStart_of_isDigit hdigit, hne] at h

theorem startsNumber_of_startsIdent (h : startsIdent cs = true) : startsNumber cs = false := by
  unfold startsNumber
  split
  next c rest => exact absurd h (by simp [startsIdent]; decide)
  next c rest =>
    have hfront := startsIdent_hyphen h
    have hdot : c ≠ '.' := by
      rintro rfl
      exact absurd hfront (by decide)
    simp [isDigit_of_front hfront, hdot]
  next c rest => exact absurd h (by simp [startsIdent]; decide)
  next c rest _ _ _ => exact isDigit_of_front (startsIdent_front h)
  next => rfl

theorem lexemes_nil (fuel : Nat) : lexemes fuel [] = [] := by
  cases fuel <;> rfl

theorem lexemes_ident (hstart : startsIdent cs = true) (hread : readName cs = (read, []))
    (hclose : ¬ ['-', '-', '>'] <+: cs) (fuel : Nat) :
    lexemes (fuel + 1) cs = [.ident read] := by
  cases cs with
  | nil => simp [startsIdent] at hstart
  | cons c rest =>
      have hfront := startsIdent_front hstart
      have hne : c ≠ ' ' ∧ c ≠ '\t' ∧ c ≠ '\n' ∧ c ≠ '\r' ∧ c ≠ '\x0c' ∧ c ≠ '/' ∧ c ≠ '"' ∧
          c ≠ '\'' ∧ c ≠ '#' ∧ c ≠ '@' ∧ c ≠ '<' := by
        refine ⟨?_, ?_, ?_, ?_, ?_, ?_, ?_, ?_, ?_, ?_, ?_⟩ <;> rintro rfl <;>
          exact absurd hfront (by decide)
      have hspace : isSpace c = false := by simp [isSpace, hne]
      have hnumber := startsNumber_of_startsIdent hstart
      have hclose' : (['-', '-', '>'].isPrefixOf (c :: rest)) = false := by
        rw [Bool.eq_false_iff, ne_eq, List.isPrefixOf_iff_prefix]
        exact hclose
      have hopen : (['<', '!', '-', '-'].isPrefixOf (c :: rest)) = false := by
        simp [List.isPrefixOf, Ne.symm hne.2.2.2.2.2.2.2.2.2.2]
      simp only [lexemes, hspace, hnumber, hclose', hopen, hstart, hread]
      simp [hne, lexemes_nil]

theorem lexemes_dot (hhead : ∀ c ∈ cs.head?, c.isDigit = false) (fuel : Nat) :
    lexemes (fuel + 1) ('.' :: cs) = .delim '.' :: lexemes fuel cs := by
  have hnumber : startsNumber ('.' :: cs) = false := by
    cases cs with
    | nil => rfl
    | cons c rest => simpa [startsNumber] using hhead c rfl
  have hident : startsIdent ('.' :: cs) = false := rfl
  have hspace : isSpace '.' = false := rfl
  simp [lexemes, hspace, hnumber, hident, List.isPrefixOf]

theorem lexemes_hash (hstart : startsIdent cs = true) (hread : readName cs = (read, []))
    (fuel : Nat) : lexemes (fuel + 1) ('#' :: cs) = [.hash read true] := by
  have hnumber : startsNumber ('#' :: cs) = false := rfl
  have hspace : isSpace '#' = false := rfl
  simp [lexemes, hspace, hnumber, hstart, hread, lexemes_nil]

/-! ## One test as a selector -/

theorem parse?_eq_some {text : String} {part : List Token} {tests : List Simple}
    (hparts : (tokens text).splitOnP Token.isComma = [part])
    (hcompound : ∀ fuel, compound? false (fuel + 4) part = some (tests, [])) :
    parse? text = some [.mk tests .start] := by
  have hfuel : 6 * text.length + 8 = (6 * text.length + 1 + 4) + 3 := rfl
  have hskip : skipSpaces [] = [] := rfl
  rw [parse?, hparts, hfuel]
  simp [complexes?, complex?, chain?, hcompound, relation?, hskip]

theorem parse?_eq_none {text : String} {part : List Token} {others : List (List Token)}
    (hparts : (tokens text).splitOnP Token.isComma = part :: others)
    (hcompound : ∀ fuel, compound? false fuel part = none) : parse? text = none := by
  have hfuel : 6 * text.length + 8 = (6 * text.length + 5) + 3 := rfl
  rw [parse?, hparts, hfuel]
  simp [complexes?, complex?, chain?, hcompound]

section Identifier

variable (hstart : startsIdent cs = true) (hread : readName cs = (read, []))

include hstart hread

theorem parse?_class (hclose : ¬ ['-', '-', '>'] <+: cs) :
    parse? (String.ofList ('.' :: cs)) = some [.mk [.class_ read] .start] := by
  have hhead : ∀ c ∈ cs.head?, c.isDigit = false := by
    intro c hc
    obtain ⟨rest, rfl⟩ := List.head?_eq_some_iff.1 hc
    exact isDigit_of_front (startsIdent_front hstart)
  have htokens : tokens (String.ofList ('.' :: cs)) = [.delim '.', .ident read] := by
    rw [tokens, String.toList_ofList, List.length_cons, lexemes_dot hhead,
      lexemes_ident hstart hread hclose]
    rfl
  have hparts : (tokens (String.ofList ('.' :: cs))).splitOnP Token.isComma =
      [[.delim '.', .ident read]] := by
    rw [htokens]
    rfl
  refine parse?_eq_some hparts fun fuel => ?_
  have hskip : skipSpaces [.delim '.', .ident read] = [.delim '.', .ident read] := rfl
  simp [compound?, qualifiedName?, hskip, tests?]

theorem parse?_id : parse? (String.ofList ('#' :: cs)) = some [.mk [.id read] .start] := by
  have htokens : tokens (String.ofList ('#' :: cs)) = [.hash read true] := by
    rw [tokens, String.toList_ofList, List.length_cons, lexemes_hash hstart hread]
    rfl
  have hparts : (tokens (String.ofList ('#' :: cs))).splitOnP Token.isComma =
      [[.hash read true]] := by
    rw [htokens]
    rfl
  refine parse?_eq_some hparts fun fuel => ?_
  have hskip : skipSpaces [.hash read true] = [.hash read true] := rfl
  simp [compound?, qualifiedName?, hskip, tests?]

end Identifier

/-! ## Hyphens that start no identifier -/

/-- A dot that no name stands behind. -/
theorem parse?_dot_eq_none {text : String} {t : Token} {more : List Token}
    (htokens : tokens text = .delim '.' :: t :: more) (hcomma : t.isComma = false)
    (hident : ∀ name, t ≠ .ident name) : parse? text = none := by
  obtain ⟨first, others, hmore⟩ := List.exists_cons_of_ne_nil
    (List.splitOnP_ne_nil Token.isComma more)
  have hdot : Token.isComma (.delim '.') = false := rfl
  have hparts : (tokens text).splitOnP Token.isComma = (.delim '.' :: t :: first) :: others := by
    rw [htokens, List.splitOnP_cons_eq_if_modifyHead, hdot, List.splitOnP_cons_eq_if_modifyHead,
      hcomma, hmore]
    rfl
  have htests : ∀ fuel, tests? false fuel (.delim '.' :: t :: first) = none := by
    intro fuel
    cases fuel with
    | zero => rfl
    | succ fuel =>
        cases t with
        | ident name => exact absurd rfl (hident name)
        | _ => simp [tests?]
  refine parse?_eq_none hparts fun fuel => ?_
  cases fuel with
  | zero => rfl
  | succ fuel =>
      have hskip : skipSpaces (.delim '.' :: t :: first) = .delim '.' :: t :: first := rfl
      simp [compound?, qualifiedName?, hskip, htests]

/-- The sign of a number, or a hyphen by itself. -/
def Lexeme.IsSign : Lexeme → Prop
  | .delim c => c = '-'
  | .number _ _ | .dimension _ _ | .other => True
  | _ => False

theorem exists_token_of_isSign {l : Lexeme} (hl : l.IsSign) (fuel : Nat) (ls : List Lexeme) :
    ∃ t, (grouped (fuel + 1) none (l :: ls)).1 = t :: (grouped fuel none ls).1 ∧
      t.isComma = false ∧ ∀ name, t ≠ .ident name := by
  cases l with
  | delim c =>
      obtain rfl : c = '-' := hl
      exact ⟨.delim '-', by simp [grouped], rfl, by simp⟩
  | number value signed => exact ⟨.number value signed, by simp [grouped], rfl, by simp⟩
  | dimension value unit => exact ⟨.dimension value unit, by simp [grouped], rfl, by simp⟩
  | other => exact ⟨.other, by simp [grouped], rfl, by simp⟩
  | _ => exact hl.elim

section Hyphen

variable (hrest : ∀ d ∈ rest.head?, d.isDigit = true)

include hrest

theorem startsIdent_hyphen_eq_false : startsIdent ('-' :: rest) = false := by
  cases rest with
  | nil => rfl
  | cons d rest =>
      have hd : d.isDigit = true := hrest d rfl
      have hne : d ≠ '-' ∧ d ≠ '\\' := by
        constructor <;> rintro rfl <;> exact absurd hd (by decide)
      simp [startsIdent, hne, isNameStart_of_isDigit hd]

theorem lexemes_hyphen (fuel : Nat) :
    ∃ l ls, lexemes (fuel + 1) ('-' :: rest) = l :: ls ∧ l.IsSign := by
  have hspace : isSpace '-' = false := rfl
  cases rest with
  | nil =>
      refine ⟨.delim '-', [], ?_, rfl⟩
      simp [lexemes, hspace, startsNumber, startsIdent_hyphen_eq_false hrest, lexemes_nil]
  | cons d rest =>
      have hnumber : startsNumber ('-' :: d :: rest) = true := by simp [startsNumber, hrest d rfl]
      cases hread : number ('-' :: d :: rest) with
      | mk value more =>
          obtain ⟨signed, after⟩ := more
          by_cases hunit : startsIdent after = true
          · refine ⟨.dimension value (readName after).1, lexemes fuel (readName after).2, ?_, trivial⟩
            simp [lexemes, hspace, hnumber, hread, hunit]
          · by_cases hpercent : ∃ more, after = '%' :: more
            · obtain ⟨more, rfl⟩ := hpercent
              refine ⟨.other, lexemes fuel more, ?_, trivial⟩
              simp [lexemes, hspace, hnumber, hread, hunit]
            · rw [not_exists] at hpercent
              refine ⟨.number value signed, lexemes fuel after, ?_, trivial⟩
              simp [lexemes, hspace, hnumber, hread, hunit]

theorem parse?_class_hyphen : parse? (String.ofList ('.' :: '-' :: rest)) = none := by
  have hhead : ∀ c ∈ ('-' :: rest).head?, c.isDigit = false := by
    intro c hc
    obtain rfl : '-' = c := by simpa using hc
    rfl
  obtain ⟨l, ls, hlexemes, hsign⟩ := lexemes_hyphen hrest (rest.length + 1)
  obtain ⟨t, hgrouped, hcomma, hident⟩ := exists_token_of_isSign hsign (2 * ls.length + 4) ls
  have htokens : tokens (String.ofList ('.' :: '-' :: rest)) =
      .delim '.' :: t :: (grouped (2 * ls.length + 4) none ls).1 := by
    have hfuel : 2 * (ls.length + 2) + 2 = 2 * ls.length + 4 + 2 := rfl
    rw [tokens, String.toList_ofList, List.length_cons, List.length_cons, lexemes_dot hhead,
      hlexemes, List.length_cons, List.length_cons, hfuel, ← hgrouped]
    simp [grouped]
  exact parse?_dot_eq_none htokens hcomma hident

/-- Behind the hash sign there is a name, but no identifier. -/
theorem parse?_id_hyphen : parse? (String.ofList ('#' :: '-' :: rest)) = none := by
  let read := (readName ('-' :: rest)).1
  let ls := lexemes (rest.length + 2) (readName ('-' :: rest)).2
  have hnumber : startsNumber ('#' :: '-' :: rest) = false := rfl
  have hspace : isSpace '#' = false := rfl
  have hlexemes : lexemes (rest.length + 3) ('#' :: '-' :: rest) = .hash read false :: ls := by
    simp [lexemes, hspace, hnumber, startsIdent_hyphen_eq_false hrest, read, ls]
  have htokens : tokens (String.ofList ('#' :: '-' :: rest)) =
      .hash read false :: (grouped (2 * ls.length + 3) none ls).1 := by
    have hfuel : 2 * (ls.length + 1) + 2 = 2 * ls.length + 3 + 1 := rfl
    rw [tokens, String.toList_ofList, List.length_cons, List.length_cons, hlexemes,
      List.length_cons, hfuel]
    simp [grouped]
  obtain ⟨first, others, hmore⟩ := List.exists_cons_of_ne_nil
    (List.splitOnP_ne_nil Token.isComma (grouped (2 * ls.length + 3) none ls).1)
  have hhash : Token.isComma (.hash read false) = false := rfl
  have hparts : (tokens (String.ofList ('#' :: '-' :: rest))).splitOnP Token.isComma =
      (.hash read false :: first) :: others := by
    rw [htokens, List.splitOnP_cons_eq_if_modifyHead, hhash, hmore]
    rfl
  have hskip : skipSpaces (.hash read false :: first) = .hash read false :: first := rfl
  refine parse?_eq_none hparts fun fuel => ?_
  rcases fuel with _ | _ | fuel
  · rfl
  · simp [compound?, qualifiedName?, hskip, tests?]
  · simp [compound?, qualifiedName?, hskip, tests?]

end Hyphen

end BookRules.Css
