/-!
# Machine words

Some numbers are kept in words of 32 or 64 bits.  A signed word of `n` bits
holds the numbers from minus a half of the `n`-bit range up to, and without,
that half; an unsigned one starts at zero and ends before the whole range.
-/

namespace BookRules.Word

/-- How many numbers 32 bits tell apart. -/
def range32 : Nat := 0x100000000

/-- Half of the 32-bit range. -/
def half32 : Nat := 0x80000000

/-- How many numbers 64 bits tell apart. -/
def range64 : Nat := 0x10000000000000000

/-- Half of the 64-bit range. -/
def half64 : Nat := 0x8000000000000000

/-- The range of a signed 64-bit word. -/
def inSigned64 (n : Int) : Bool :=
  -(half64 : Int) ≤ n && n < half64

theorem inSigned64_iff {n : Int} :
    inSigned64 n = true ↔ -0x8000000000000000 ≤ n ∧ n < 0x8000000000000000 := by
  have hhalf : (half64 : Int) = 0x8000000000000000 := rfl
  simp [inSigned64, hhalf]

/-- A number, if a signed 64-bit word holds it. -/
def checked64? (n : Int) : Option Int :=
  if inSigned64 n then some n else none

theorem checked64?_eq_some {n : Int} (h : inSigned64 n) : checked64? n = some n :=
  if_pos h

/-- The signed 64-bit word with the low bits of a number. -/
def signed64 (n : Int) : Int :=
  n.bmod range64

theorem signed64_eq_self {n : Int} (h : inSigned64 n) : signed64 n = n := by
  rw [inSigned64_iff] at h
  have hrange : (range64 : Int) = 2 ^ 64 := rfl
  rw [signed64, Int.bmod_eq_of_le] <;> omega

theorem signed64_le (n : Nat) : signed64 n ≤ n := by
  have hrange : (range64 : Int) = 2 ^ 64 := rfl
  simp only [signed64, Int.bmod, hrange]
  split <;> omega

/-- The low 64 bits of a number. -/
def bits64 (n : Int) : Nat :=
  (n % range64).toNat

/-- The signed 32-bit word nearest to a number. -/
def saturated32 (n : Int) : Int :=
  max (-half32) (min (half32 - 1) n)

end BookRules.Word
