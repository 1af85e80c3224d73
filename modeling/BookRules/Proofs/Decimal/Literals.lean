import BookRules.Decimal.Whole
import BookRules.Json.Printer
import Mathlib.Data.List.Basic

/-!
# Whole numbers in decimal

A number that is written in decimal is read back.  Reading one that may have a sign takes
digits, or digits behind a sign, and nothing else.
-/

namespace BookRules.Decimal

open BookRules.Word (inSigned64)

variable {cs digits : List Char} {n : Int}

theorem natural?_eq_some_iff {value : Nat} : natural? digits = some value ↔
    digits ≠ [] ∧ (∀ c ∈ digits, isDigit c) ∧ value = valueOf digits := by
  have hempty : digits.isEmpty = false ↔ digits ≠ [] := by simp
  unfold natural?
  split_ifs with hbad
  · rw [false_iff]
    rintro ⟨hne, hall, -⟩
    simp [hempty.2 hne, List.all_eq_true.2 hall] at hbad
  · simp only [Bool.or_eq_true, Bool.not_eq_true', not_or, Bool.not_eq_true,
      Bool.not_eq_false, hempty, List.all_eq_true] at hbad
    rw [Option.some.injEq, eq_comm]
    exact ⟨fun h => ⟨hbad.1, hbad.2, h⟩, fun h => h.2.2⟩

/-- A text that spells a number of 64 bits: digits, perhaps behind a minus. -/
def IsLiteral (cs : List Char) (n : Int) : Prop :=
  inSigned64 n ∧ ∃ digits, digits ≠ [] ∧ (∀ c ∈ digits, isDigit c) ∧
    ((cs = digits ∧ n = valueOf digits) ∨ (cs = '-' :: digits ∧ n = -valueOf digits))

theorem isDigit_or_minus_of_isLiteral (h : IsLiteral cs n) :
    ∀ c ∈ cs, isDigit c ∨ c = '-' := by
  obtain ⟨-, digits, -, hall, ⟨rfl, -⟩ | ⟨rfl, -⟩⟩ := h
  · exact fun c hc => .inl (hall c hc)
  · intro c hc
    rcases List.mem_cons.1 hc with rfl | hdigit
    · exact .inr rfl
    · exact .inl (hall c hdigit)

theorem IsLiteral.ne_nil (h : IsLiteral cs n) : cs ≠ [] := by
  obtain ⟨-, digits, hne, -, ⟨rfl, -⟩ | ⟨rfl, -⟩⟩ := h
  · exact hne
  · simp

theorem whole?_eq_some_iff (hplus : '+' ∉ cs) : whole? cs = some n ↔
    ∃ digits, digits ≠ [] ∧ (∀ c ∈ digits, isDigit c) ∧
      ((cs = digits ∧ n = valueOf digits) ∨ (cs = '-' :: digits ∧ n = -valueOf digits)) := by
  unfold whole?
  split
  next rest =>
    simp only [Option.map_eq_some_iff, bind_pure_comp, Option.map_eq_map,
      natural?_eq_some_iff, exists_exists_and_eq_and]
    constructor
    · rintro ⟨value, ⟨hne, hall, rfl⟩, rfl⟩
      exact ⟨rest, hne, hall, .inr ⟨rfl, rfl⟩⟩
    · rintro ⟨digits, hne, hall, ⟨rfl, -⟩ | ⟨heq, rfl⟩⟩
      · exact absurd (hall '-' List.mem_cons_self) (by decide)
      · obtain rfl := (List.cons.inj heq).2
        exact ⟨_, ⟨hne, hall, rfl⟩, rfl⟩
  next rest => exact absurd List.mem_cons_self hplus
  next hminus _ =>
    simp only [Option.map_eq_some_iff, bind_pure_comp, Option.map_eq_map,
      natural?_eq_some_iff, exists_exists_and_eq_and]
    constructor
    · rintro ⟨value, ⟨hne, hall, rfl⟩, rfl⟩
      exact ⟨_, hne, hall, .inl ⟨rfl, rfl⟩⟩
    · rintro ⟨digits, hne, hall, ⟨rfl, rfl⟩ | ⟨heq, -⟩⟩
      · exact ⟨_, ⟨hne, hall, rfl⟩, rfl⟩
      · exact absurd heq (hminus digits)

theorem signed64?_eq_some_iff (hplus : '+' ∉ cs) : signed64? cs = some n ↔ IsLiteral cs n := by
  rw [signed64?, Option.filter_eq_some_iff, whole?_eq_some_iff hplus, IsLiteral, and_comm]

/-! ## Numbers that are written -/

theorem valueOf_digitsOf (n : Nat) : valueOf (digitsOf n) = n :=
  Nat.ofDigitChars_ten_toDigits

theorem isDigit_of_mem_digitsOf {n : Nat} : ∀ c ∈ digitsOf n, isDigit c = true := by
  intro c hc
  have hdigit : c.isDigit = true := Nat.isDigit_of_mem_toDigits (by decide) (by decide) hc
  simp only [Char.isDigit, Bool.and_eq_true, decide_eq_true_eq] at hdigit
  rw [isDigit, Bool.and_eq_true, decide_eq_true_eq, decide_eq_true_eq]
  exact hdigit

/-- Digits, perhaps with a minus in front. -/
theorem isDigit_or_minus_of_mem_signed {p : Prop} [Decidable p] {size : Nat} {c : Char}
    (hc : c ∈ if p then '-' :: digitsOf size else digitsOf size) : isDigit c ∨ c = '-' := by
  split_ifs at hc
  · exact (List.mem_cons.1 hc).symm.imp_left (isDigit_of_mem_digitsOf c)
  · exact .inl (isDigit_of_mem_digitsOf c hc)

theorem signed_ne_nil {p : Prop} [Decidable p] {size : Nat} :
    (if p then '-' :: digitsOf size else digitsOf size) ≠ [] := by
  split_ifs
  · exact List.cons_ne_nil _ _
  · exact Nat.toDigits_ne_nil

theorem digitChar_digitValue {c : Char} (hc : isDigit c = true) :
    digitValue c < 10 ∧ Nat.digitChar (digitValue c) = c := by
  simp only [isDigit, Bool.and_eq_true, decide_eq_true_eq] at hc
  have hlow : 48 ≤ c.toNat := hc.1
  have hhigh : c.toNat ≤ 57 := hc.2
  have hvalue : digitValue c < 10 := by
    change c.toNat - 48 < 10
    omega
  refine ⟨hvalue, Char.toNat_inj.1 ?_⟩
  rw [Nat.toNat_digitChar_of_lt_ten hvalue]
  change 48 + (c.toNat - 48) = c.toNat
  omega

theorem digitsOf_digit {c : Char} (hc : isDigit c = true) : digitsOf (valueOf [c]) = [c] := by
  obtain ⟨hvalue, hdigit⟩ := digitChar_digitValue hc
  have hnumber : valueOf [c] = digitValue c := by simp [valueOf]
  rw [hnumber, digitsOf, Nat.toDigits_of_lt_base hvalue, hdigit]

theorem digitsOf_concat {c : Char} (hpos : 0 < valueOf digits) (hc : isDigit c = true) :
    digitsOf (valueOf (digits ++ [c])) = digitsOf (valueOf digits) ++ [c] := by
  obtain ⟨hvalue, hdigit⟩ := digitChar_digitValue hc
  have hnumber : valueOf (digits ++ [c]) = 10 * valueOf digits + digitValue c := by
    simp [valueOf]
  have happend := Nat.toDigits_append_toDigits (b := 10) (by decide) hpos hvalue
  rw [Nat.toDigits_of_lt_base hvalue, hdigit] at happend
  rw [hnumber]
  exact happend.symm

/-- A number is not written with a zero in front. -/
theorem eq_zero_of_head?_digitsOf {n : Nat} (h : (digitsOf n).head? = some '0') : n = 0 := by
  induction n using Nat.strongRecOn with
  | ind n ih =>
      by_cases hsmall : n < 10
      · rw [digitsOf, Nat.toDigits_of_lt_base hsmall, List.head?_cons, Option.some.injEq] at h
        have hdigit := Nat.toNat_digitChar_of_lt_ten hsmall
        rw [h] at hdigit
        change 48 = 48 + n at hdigit
        omega
      · have hfront : (digitsOf (n / 10)).head? = some '0' := by
          rw [digitsOf, Nat.toDigits_of_base_le (by decide) (by omega),
            List.head?_append_of_ne_nil _ Nat.toDigits_ne_nil] at h
          exact h
        have hzero := ih (n / 10) (by omega) hfront
        omega

theorem isLiteral_wholeText (h : inSigned64 n) : IsLiteral (Json.wholeText n) n := by
  refine ⟨h, digitsOf n.natAbs, Nat.toDigits_ne_nil, isDigit_of_mem_digitsOf, ?_⟩
  unfold Json.wholeText
  rw [valueOf_digitsOf]
  by_cases hneg : n < 0
  · rw [if_pos hneg]
    exact .inr ⟨rfl, by omega⟩
  · rw [if_neg hneg]
    exact .inl ⟨rfl, by omega⟩

end BookRules.Decimal
