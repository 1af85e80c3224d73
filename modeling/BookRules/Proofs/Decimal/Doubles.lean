import Mathlib

/-!
# The double nearest to a whole number

A double has 53 binary digits.  A whole number with more of them is brought to the nearest one
that has no more, of two that are as near to the one that is even; the doubles themselves are
kept in a binary format and are rounded by shifting, so what is proved here is that shifting,
packing and unpacking come to this.  The nearest double grows with the number, and it is the
number itself up to `2 ^ 53`.
-/

namespace BookRules.Decimal

open Float.Model (Format UnpackedFloat)
open Float.Model.UnpackedFloat (ExtendedMantissa Sign)

variable {m n k : Nat}

/-! ## Rounding -/

/-- A number divided by another, to the nearest whole number and of two to the even one. -/
def halfEven (n d : Nat) : Nat :=
  if 2 * (n % d) < d then n / d
  else if d < 2 * (n % d) then n / d + 1
  else n / d + n / d % 2

theorem halfEven_mono {d : Nat} (h : m ≤ n) : halfEven m d ≤ halfEven n d := by
  have hquotient : m / d ≤ n / d := Nat.div_le_div_right h
  have hm : d * (m / d) + m % d = m := Nat.div_add_mod m d
  have hn : d * (n / d) + n % d = n := Nat.div_add_mod n d
  rcases Nat.eq_or_lt_of_le hquotient with hsame | hless
  · have hrest : m % d ≤ n % d := by
      rw [hsame] at hm
      omega
    unfold halfEven
    rw [hsame]
    split_ifs <;> omega
  · have hlow : halfEven m d ≤ m / d + 1 := by
      unfold halfEven
      split_ifs <;> omega
    have hhigh : n / d ≤ halfEven n d := by
      unfold halfEven
      split_ifs <;> omega
    omega

theorem halfEven_one (n : Nat) : halfEven n 1 = n := by
  simp [halfEven, Nat.mod_one]

theorem halfEven_mul {d : Nat} (hd : 0 < d) (q : Nat) : halfEven (q * d) d = q := by
  unfold halfEven
  rw [Nat.mul_mod_left, Nat.mul_div_cancel q hd, if_pos (by omega)]

/-- How many binary digits do not fit into a double. -/
def surplus (n : Nat) : Nat :=
  n.log2 - 52

/-- The whole number that is the double nearest to a whole number. -/
def nearest (n : Nat) : Nat :=
  halfEven n (2 ^ surplus n) * 2 ^ surplus n

theorem nearest_eq_self (h : n < 2 ^ 53) : nearest n = n := by
  have hfits : surplus n = 0 := by
    rcases Nat.eq_zero_or_pos n with rfl | hpos
    · rfl
    · have hlog : n.log2 < 53 := (Nat.log2_lt (Nat.pos_iff_ne_zero.1 hpos)).2 h
      unfold surplus
      omega
  rw [nearest, hfits, Nat.pow_zero, halfEven_one, Nat.mul_one]

/-- A number with a surplus lies between two powers, and what is left of it between two more. -/
theorem halfEven_bounds (hk : surplus n = k) (h : 2 ^ 52 ≤ n) :
    2 ^ 52 ≤ halfEven n (2 ^ k) ∧ halfEven n (2 ^ k) ≤ 2 ^ 53 := by
  have hne : n ≠ 0 := by
    rintro rfl
    exact absurd h (by decide)
  have hlog : n.log2 = 52 + k := by
    have hle : 52 ≤ n.log2 := (Nat.le_log2 hne).2 h
    unfold surplus at hk
    omega
  obtain ⟨hlow, hhigh⟩ := (Nat.log2_eq_iff hne).1 hlog
  have hpos : 0 < 2 ^ k := Nat.two_pow_pos k
  rw [Nat.pow_add] at hlow
  have hhigh' : n ≤ 2 ^ 53 * 2 ^ k := by
    have hsplit : 2 ^ (52 + k + 1) = 2 ^ 53 * 2 ^ k := by ring
    omega
  constructor
  · calc
      2 ^ 52 = halfEven (2 ^ 52 * 2 ^ k) (2 ^ k) := (halfEven_mul hpos _).symm
      _ ≤ halfEven n (2 ^ k) := halfEven_mono hlow
  · calc
      halfEven n (2 ^ k) ≤ halfEven (2 ^ 53 * 2 ^ k) (2 ^ k) := halfEven_mono hhigh'
      _ = 2 ^ 53 := halfEven_mul hpos _

theorem surplus_mono (h : m ≤ n) : surplus m ≤ surplus n := by
  have hlog : m.log2 ≤ n.log2 := by
    rw [Nat.log2_eq_log_two, Nat.log2_eq_log_two]
    exact Nat.log_mono_right h
  unfold surplus
  omega

theorem nearest_mono (h : m ≤ n) : nearest m ≤ nearest n := by
  rcases Nat.eq_or_lt_of_le (surplus_mono h) with hsame | hless
  · unfold nearest
    rw [hsame]
    exact Nat.mul_le_mul_right _ (halfEven_mono h)
  · -- the greater number has more digits than fit, so its rounding is above that of the other
    have hlarge : 2 ^ 53 ≤ n := by
      by_contra hsmall
      have hne : n ≠ 0 := by
        rintro rfl
        simp [surplus] at hless
      have hlog : n.log2 < 53 := (Nat.log2_lt hne).2 (by omega)
      unfold surplus at hless
      omega
    have hn : 2 ^ 52 ≤ halfEven n (2 ^ surplus n) := (halfEven_bounds rfl (by omega)).1
    have hm : nearest m ≤ 2 ^ 53 * 2 ^ surplus m := by
      by_cases hsmall : m < 2 ^ 52
      · rw [nearest_eq_self (by omega)]
        exact Nat.le_trans (by omega) (Nat.le_mul_of_pos_right _ (Nat.two_pow_pos _))
      · exact Nat.mul_le_mul_right _ (halfEven_bounds rfl (by omega)).2
    calc
      nearest m ≤ 2 ^ 53 * 2 ^ surplus m := hm
      _ = 2 ^ 52 * 2 ^ (surplus m + 1) := by ring
      _ ≤ 2 ^ 52 * 2 ^ surplus n := Nat.mul_le_mul_left _ (Nat.pow_le_pow_right (by decide) hless)
      _ ≤ nearest n := Nat.mul_le_mul_right _ hn

/-- The whole number that is the double nearest to a whole number with a sign. -/
def nearestInt (n : Int) : Int :=
  if n < 0 then -nearest n.natAbs else nearest n.natAbs

theorem nearestInt_natCast (n : Nat) : nearestInt n = nearest n := by
  rw [nearestInt, if_neg (by omega), Int.natAbs_natCast]

theorem nearestInt_neg_natCast (n : Nat) : nearestInt (-n) = -nearest n := by
  unfold nearestInt
  rw [Int.natAbs_neg, Int.natAbs_natCast]
  split_ifs with hneg
  · rfl
  · obtain rfl : n = 0 := by omega
    rfl

theorem nearestInt_mono {a b : Int} (h : a ≤ b) : nearestInt a ≤ nearestInt b := by
  unfold nearestInt
  split_ifs with ha hb hb
  · have hmono := nearest_mono (m := b.natAbs) (n := a.natAbs) (by omega)
    omega
  · omega
  · omega
  · have hmono := nearest_mono (m := a.natAbs) (n := b.natAbs) (by omega)
    omega

theorem nearestInt_eq_self {a : Int} (h : a.natAbs < 2 ^ 53) : nearestInt a = a := by
  unfold nearestInt
  rw [nearest_eq_self h]
  split_ifs <;> omega

/-- A double below `2 ^ 53` is nearest to one whole number only. -/
theorem eq_of_nearestInt_eq {a b : Int} (hb : b.natAbs < 2 ^ 53)
    (h : nearestInt a = nearestInt b) : a = b := by
  have hlimit : nearest (2 ^ 53) = 2 ^ 53 := by decide
  rw [nearestInt_eq_self hb] at h
  by_cases ha : a.natAbs < 2 ^ 53
  · rwa [nearestInt_eq_self ha] at h
  · have hlarge : 2 ^ 53 ≤ nearest a.natAbs := hlimit ▸ nearest_mono (by omega)
    unfold nearestInt at h
    split_ifs at h <;> omega

/-! ## Shifting -/

/-- A number without its last binary digits, and what its rounding has to know of them. -/
def shifted (n k : Nat) : ExtendedMantissa where
  mantissa := n / 2 ^ k
  roundBit := decide (2 ^ k ≤ 2 * (n % 2 ^ k))
  stickyBit := decide (2 * (n % 2 ^ k) % 2 ^ k ≠ 0)

theorem shiftRightOne_shifted (n k : Nat) :
    (shifted n k).shiftRightOne = shifted n (k + 1) := by
  have hpos : 0 < 2 ^ k := Nat.two_pow_pos k
  have hrest : n % 2 ^ k < 2 ^ k := Nat.mod_lt n hpos
  have hdigit : n / 2 ^ k % 2 < 2 := Nat.mod_lt _ (by decide)
  have hmod : n % 2 ^ (k + 1) = n % 2 ^ k + 2 ^ k * (n / 2 ^ k % 2) := Nat.mod_pow_succ
  have hdiv : n / 2 ^ (k + 1) = n / 2 ^ k / 2 := by
    rw [Nat.pow_succ, Nat.div_div_eq_div_mul]
  -- the digit that goes becomes the round bit, and the bits from before the sticky one
  have hround : (n / 2 ^ k % 2 ≠ 0) ↔ 2 ^ (k + 1) ≤ 2 * (n % 2 ^ (k + 1)) := by
    rw [hmod]
    rcases Nat.lt_or_ge (n / 2 ^ k % 2) 1 with hzero | hone
    · have hzero' : n / 2 ^ k % 2 = 0 := by omega
      rw [hzero']
      omega
    · have hone' : n / 2 ^ k % 2 = 1 := by omega
      rw [hone']
      omega
  have hsticky : (2 ^ k ≤ 2 * (n % 2 ^ k) ∨ 2 * (n % 2 ^ k) % 2 ^ k ≠ 0) ↔
      2 * (n % 2 ^ (k + 1)) % 2 ^ (k + 1) ≠ 0 := by
    have hlast : 2 * (n % 2 ^ (k + 1)) % 2 ^ (k + 1) = 2 * (n % 2 ^ k) := by
      rw [hmod, Nat.pow_succ', Nat.mul_mod_mul_left, Nat.add_mul_mod_self_left,
        Nat.mod_mod]
    rw [hlast]
    constructor
    · rintro (hhigh | hlow)
      · omega
      · intro hzero
        exact hlow (by rw [hzero, Nat.zero_mod])
    · intro hne
      by_cases hhigh : 2 ^ k ≤ 2 * (n % 2 ^ k)
      · exact .inl hhigh
      · exact .inr (by rwa [Nat.mod_eq_of_lt (by omega)])
  simp only [shifted, ExtendedMantissa.shiftRightOne, ExtendedMantissa.mk.injEq]
  refine ⟨hdiv.symm, ?_, ?_⟩
  · rw [Bool.eq_iff_iff, bne_iff_ne, decide_eq_true_iff]
    exact hround
  · simp only [← hsticky, Bool.decide_or]

theorem shiftRight_eq_shifted (n k : Nat) :
    (⟨n, false, false⟩ : ExtendedMantissa) >>> k = shifted n k := by
  change k.repeat ExtendedMantissa.shiftRightOne _ = _
  induction k with
  | zero => simp [Nat.repeat, shifted, Nat.mod_one]
  | succ k ih => rw [Nat.repeat, ih, shiftRightOne_shifted]

theorem roundedMantissa_shifted (n k : Nat) :
    (shifted n k).roundedMantissa = halfEven n (2 ^ k) := by
  have hrest : n % 2 ^ k < 2 ^ k := Nat.mod_lt n (Nat.two_pow_pos k)
  unfold halfEven
  split_ifs with hless hmore
  · have hround : decide (2 ^ k ≤ 2 * (n % 2 ^ k)) = false := decide_eq_false (by omega)
    unfold shifted
    rw [hround]
    cases decide (2 * (n % 2 ^ k) % 2 ^ k ≠ 0) <;> rfl
  · have hround : decide (2 ^ k ≤ 2 * (n % 2 ^ k)) = true := decide_eq_true (by omega)
    have hsticky : decide (2 * (n % 2 ^ k) % 2 ^ k ≠ 0) = true := by
      rw [Nat.mod_eq_sub_mod (by omega), Nat.mod_eq_of_lt (by omega)]
      exact decide_eq_true (by omega)
    unfold shifted
    rw [hround, hsticky]
    rfl
  · have hhalf : 2 * (n % 2 ^ k) = 2 ^ k := by omega
    unfold shifted
    rw [hhalf, Nat.mod_self, decide_eq_true (Nat.le_refl _)]
    rfl

/-! ## Whole numbers as doubles -/

theorem targetExponent_eq {m : Nat} {e target : Int} (hlow : -52 ≤ target)
    (htarget : (m.log2 : Int) + e = 52 + target) :
    Format.binary64.targetExponent (Float.Model.totalExponent m e) = target := by
  have hmin : Format.binary64.minExponent = -1074 := by decide
  have hbits : Format.binary64.mantissaBits = 53 := rfl
  unfold Format.targetExponent Float.Model.totalExponent
  rw [hmin, hbits]
  omega

theorem shiftToTargetExponent_eq {m : Nat} {e : Int} (hlow : -52 ≤ e) (hlog : m.log2 = 52 + k) :
    UnpackedFloat.shiftToTargetExponent Format.binary64 m e .exact = (shifted m k, e + k) := by
  have hamount : (e + k - e).toNat = k := by omega
  unfold UnpackedFloat.shiftToTargetExponent UnpackedFloat.shiftToExponent
  rw [targetExponent_eq (by omega : -52 ≤ e + k) (by omega)]
  dsimp only
  rw [hamount, ← shiftRight_eq_shifted]
  rfl

/-- Digits are dropped twice: those that do not fit, and one more when the rounding has carried
over. -/
theorem roundWithAccuracy_eq {s : Sign} {m carry : Nat} {e : Int} (hlow : -52 ≤ e)
    (hlog : m.log2 = 52 + k) (hcarry : (halfEven m (2 ^ k)).log2 = 52 + carry)
    (hpos : 0 < halfEven m (2 ^ k) / 2 ^ carry) :
    UnpackedFloat.roundWithAccuracy Format.binary64 s m e .exact =
      .finite s (halfEven m (2 ^ k) / 2 ^ carry) (e + k + carry) hpos := by
  unfold UnpackedFloat.roundWithAccuracy
  rw [shiftToTargetExponent_eq hlow hlog]
  dsimp only
  rw [roundedMantissa_shifted, shiftToTargetExponent_eq (by omega) hcarry]
  exact dif_neg (Nat.pos_iff_ne_zero.1 hpos)

/-- The double is a whole number.  Its mantissa has 53 digits, the last of them at most 52 places
behind the point. -/
inductive IsWhole : UnpackedFloat → Int → Prop
  | zero (s : Sign) : IsWhole (.zero s) 0
  | finite (s : Sign) (m k : Nat) (hpos : 0 < m) (v : Int) (hlog : m.log2 = 52) (hk : k ≤ 64)
      (hvalue : v * 2 ^ 52 = s.apply (m * 2 ^ k)) : IsWhole (.finite s m (k - 52) hpos) v

theorem log2_mul_two_pow (hpos : 0 < n) (k : Nat) : (n * 2 ^ k).log2 = n.log2 + k := by
  have hne : n ≠ 0 := Nat.pos_iff_ne_zero.1 hpos
  obtain ⟨hlow, hhigh⟩ := (Nat.log2_eq_iff hne).1 rfl
  have hscaled : 0 < n * 2 ^ k := Nat.mul_pos hpos (Nat.two_pow_pos k)
  rw [Nat.log2_eq_iff (Nat.pos_iff_ne_zero.1 hscaled)]
  constructor
  · rw [Nat.pow_add]
    exact Nat.mul_le_mul_right _ hlow
  · rw [Nat.add_right_comm, Nat.pow_add]
    exact Nat.mul_lt_mul_of_pos_right hhigh (Nat.two_pow_pos k)

/-- The exponent of the mantissa only goes down here. -/
theorem ofNat_eq_roundWithAccuracy (hpos : 0 < n) {up : Nat} (hup : up = 52 - n.log2) :
    UnpackedFloat.ofNat Format.binary64 n =
      UnpackedFloat.roundWithAccuracy Format.binary64 .positive (n * 2 ^ up) (-up) .exact := by
  have hcompare : compare (n : Int) 0 = .gt := Int.compare_eq_gt.2 (by omega)
  have hamount : (0 - ((n.log2 : Int) - 52)).toNat = up := by omega
  unfold UnpackedFloat.ofNat UnpackedFloat.ofInt UnpackedFloat.normalize
  rw [hcompare]
  dsimp only
  unfold UnpackedFloat.round UnpackedFloat.decreaseExponent
  rw [Int.toNat_natCast, targetExponent_eq (by omega : -52 ≤ (n.log2 : Int) - 52) (by omega)]
  dsimp only
  rw [hamount, Nat.shiftLeft_eq, Int.zero_sub]

theorem isWhole_ofNat_of_small (hpos : 0 < n) (hsmall : n.log2 ≤ 52) :
    IsWhole (UnpackedFloat.ofNat Format.binary64 n) n := by
  obtain ⟨up, hup⟩ : ∃ up, up = 52 - n.log2 := ⟨_, rfl⟩
  have hscaled : 0 < n * 2 ^ up := Nat.mul_pos hpos (Nat.two_pow_pos _)
  have hlog : (n * 2 ^ up).log2 = 52 := by
    rw [log2_mul_two_pow hpos]
    omega
  have hkept : halfEven (n * 2 ^ up) (2 ^ 0) / 2 ^ 0 = n * 2 ^ up := by
    rw [Nat.pow_zero, halfEven_one, Nat.div_one]
  have hcarry : (halfEven (n * 2 ^ up) (2 ^ 0)).log2 = 52 + 0 := by
    rw [Nat.pow_zero, halfEven_one, hlog]
  have hround : UnpackedFloat.ofNat Format.binary64 n =
      .finite .positive (n * 2 ^ up) ((n.log2 : Int) - 52) hscaled := by
    rw [ofNat_eq_roundWithAccuracy hpos hup,
      roundWithAccuracy_eq (by omega) hlog hcarry (by rwa [hkept])]
    simp only [hkept, UnpackedFloat.finite.injEq, true_and]
    omega
  rw [hround]
  refine .finite _ _ _ _ _ hlog (by omega) ?_
  have hsplit : n * 2 ^ 52 = n * 2 ^ up * 2 ^ n.log2 := by
    rw [Nat.mul_assoc, ← Nat.pow_add, hup, Nat.sub_add_cancel hsmall]
  simp only [Sign.apply]
  exact_mod_cast hsplit

theorem isWhole_ofNat_of_large (hlow : 53 ≤ n.log2) (hhigh : n.log2 ≤ 63) :
    IsWhole (UnpackedFloat.ofNat Format.binary64 n) (nearest n) := by
  obtain ⟨k, hk⟩ : ∃ k, n.log2 = 52 + k := ⟨n.log2 - 52, by omega⟩
  have hne : n ≠ 0 := by
    rintro rfl
    exact absurd hlow (by decide)
  have hsurplus : surplus n = k := by
    unfold surplus
    omega
  obtain ⟨hleast, hgreatest⟩ := halfEven_bounds hsurplus ((Nat.le_log2 hne).1 (by omega))
  have hfirst : UnpackedFloat.ofNat Format.binary64 n =
      UnpackedFloat.roundWithAccuracy Format.binary64 .positive n 0 .exact := by
    have hup : 0 = 52 - n.log2 := by omega
    simpa using ofNat_eq_roundWithAccuracy (Nat.pos_iff_ne_zero.2 hne) hup
  rw [hfirst]
  unfold nearest
  rw [hsurplus]
  -- the rounding may give a number of one more digit
  rcases Nat.eq_or_lt_of_le hgreatest with hcarried | hless
  · have hcarry : (halfEven n (2 ^ k)).log2 = 52 + 1 := by
      rw [hcarried, Nat.log2_two_pow]
    rw [roundWithAccuracy_eq (by omega) hk hcarry (by rw [hcarried]; decide)]
    have hexponent : (0 : Int) + k + (1 : Nat) = (k + 53 : Nat) - 52 := by omega
    simp only [hexponent, hcarried]
    refine .finite _ _ _ _ _ (by decide) (by omega) ?_
    simp only [Sign.apply]
    have hvalue : 2 ^ 53 * 2 ^ k * 2 ^ 52 = 2 ^ 53 / 2 ^ 1 * 2 ^ (k + 53) := by
      rw [Nat.pow_add]
      omega
    exact_mod_cast hvalue
  · have hcarry : (halfEven n (2 ^ k)).log2 = 52 + 0 :=
      (Nat.log2_eq_iff (by omega)).2 ⟨hleast, hless⟩
    have hkept : halfEven n (2 ^ k) / 2 ^ 0 = halfEven n (2 ^ k) := Nat.div_one _
    rw [roundWithAccuracy_eq (by omega) hk hcarry (by omega)]
    have hexponent : (0 : Int) + k + (0 : Nat) = (k + 52 : Nat) - 52 := by omega
    simp only [hexponent, hkept]
    refine .finite _ _ _ _ _ hcarry (by omega) ?_
    simp only [Sign.apply]
    rw [Nat.cast_mul, Int.mul_assoc, pow_add]
    norm_cast

theorem isWhole_ofNat (h : n < 2 ^ 64) :
    IsWhole (UnpackedFloat.ofNat Format.binary64 n) (nearest n) := by
  rcases Nat.eq_zero_or_pos n with rfl | hpos
  · exact .zero .positive
  · have hne : n ≠ 0 := Nat.pos_iff_ne_zero.1 hpos
    by_cases hsmall : n.log2 ≤ 52
    · rw [nearest_eq_self ((Nat.log2_lt hne).1 (by omega))]
      exact isWhole_ofNat_of_small hpos hsmall
    · exact isWhole_ofNat_of_large (by omega) (by have := (Nat.log2_lt hne).2 h; omega)

/-! ## Packing -/

theorem unpack_packComponents {f : Format} {s : Sign} {exponent : BitVec f.exponentBits}
    {mantissa : BitVec f.mantissaBitsWithoutImplicit} (hinfinite : exponent ≠ -1#_)
    (hsubnormal : exponent ≠ 0#_) :
    UnpackedFloat.unpack f (UnpackedFloat.packComponents f s exponent mantissa) =
      .finite s (1#1 ++ mantissa).toNat
        (exponent.toNat - (f.exponentBias + f.mantissaBitsWithoutImplicit)) (by simp) := by
  unfold UnpackedFloat.unpack
  dsimp only
  rw [if_neg (by rwa [UnpackedFloat.unpackExponent_packComponents]),
    if_neg (by rwa [UnpackedFloat.unpackExponent_packComponents])]
  simp only [UnpackedFloat.unpackMantissa_packComponents,
    UnpackedFloat.unpackExponent_packComponents, UnpackedFloat.unpackSign_packComponents,
    Sign.ofBitVec_toBitVec]

theorem unpack_pack {u : UnpackedFloat} {v : Int} (h : IsWhole u v) :
    UnpackedFloat.unpack Format.binary64 (UnpackedFloat.pack Format.binary64 u) = u := by
  cases h with
  | zero s => exact UnpackedFloat.unpack_packedZero
  | finite s m k hpos v hlog hk hvalue =>
      have hbias : Format.binary64.exponentBias = 1023 := by decide
      have hbiased : ((k : Int) - 52 + (1023 : Nat) + (52 : Nat)).toNat = k + 1023 := by omega
      obtain ⟨hleast, hless⟩ := (Nat.log2_eq_iff (Nat.pos_iff_ne_zero.1 hpos)).1 hlog
      have hexponent : (BitVec.ofNat 11 (k + 1023)).toNat = k + 1023 := by
        rw [BitVec.toNat_ofNat, Nat.mod_eq_of_lt (by omega)]
      have hinfinite : BitVec.ofNat 11 (k + 1023) ≠ -1#_ := by
        intro heq
        have hall : k + 1023 = 2047 := hexponent ▸ congrArg BitVec.toNat heq
        omega
      have hsubnormal : BitVec.ofNat 11 (k + 1023) ≠ 0#_ := by
        intro heq
        have hnone : k + 1023 = 0 := hexponent ▸ congrArg BitVec.toNat heq
        omega
      have hmantissa : (1#1 ++ BitVec.ofNat 52 m).toNat = m := by
        have hone : (1#1).toNat = 1 := rfl
        have hkept : (BitVec.ofNat 52 m).toNat = m % 2 ^ 52 := BitVec.toNat_ofNat m 52
        rw [BitVec.toNat_append, ← Nat.shiftLeft_add_eq_or_of_lt (BitVec.isLt _), hkept, hone,
          Nat.shiftLeft_eq]
        omega
      have hbits : 52 + 1 = Format.binary64.mantissaBits := rfl
      have hpacked : UnpackedFloat.pack Format.binary64 (.finite s m (k - 52) hpos) =
          UnpackedFloat.packComponents Format.binary64 s (BitVec.ofNat 11 (k + 1023))
            (BitVec.ofNat 52 m) := by
        unfold UnpackedFloat.pack
        dsimp only
        rw [hbias, hbiased, if_neg (by omega), hlog, if_pos hbits]
      rw [hpacked, unpack_packComponents hinfinite hsubnormal]
      have hback : ((k + 1023 : Nat) : Int) - ((1023 : Nat) + (52 : Nat)) = k - 52 := by omega
      simp only [hmantissa, hexponent, hbias, hback]

/-! ## Comparing -/

theorem mul_two_pow_lt {m₁ m₂ k₁ k₂ : Nat} (h₁ : m₁.log2 = 52) (h₂ : m₂.log2 = 52)
    (hk : k₁ < k₂) : m₁ * 2 ^ k₁ < m₂ * 2 ^ k₂ := by
  have hne : m₂ ≠ 0 := by
    rintro rfl
    exact absurd h₂ (by decide)
  have hless : m₁ < 2 ^ (m₁.log2 + 1) := Nat.lt_log2_self
  have hleast : 2 ^ m₂.log2 ≤ m₂ := Nat.log2_self_le hne
  rw [h₁] at hless
  rw [h₂] at hleast
  calc
    m₁ * 2 ^ k₁ < 2 ^ 53 * 2 ^ k₁ := Nat.mul_lt_mul_of_pos_right hless (Nat.two_pow_pos k₁)
    _ = 2 ^ 52 * 2 ^ (k₁ + 1) := by ring
    _ ≤ 2 ^ 52 * 2 ^ k₂ := Nat.mul_le_mul_left _ (Nat.pow_le_pow_right (by decide) hk)
    _ ≤ m₂ * 2 ^ k₂ := Nat.mul_le_mul_right _ hleast

/-- With mantissas of one length the exponent decides first. -/
theorem compare_parts {m₁ m₂ k₁ k₂ : Nat} (h₁ : m₁.log2 = 52) (h₂ : m₂.log2 = 52) :
    (compare ((k₁ : Int) - 52) ((k₂ : Int) - 52)).then (compare m₁ m₂) =
      compare ((m₁ : Int) * 2 ^ k₁) ((m₂ : Int) * 2 ^ k₂) := by
  rcases Nat.lt_trichotomy k₁ k₂ with hk | rfl | hk
  · have hless : (m₁ : Int) * 2 ^ k₁ < (m₂ : Int) * 2 ^ k₂ := by
      exact_mod_cast mul_two_pow_lt h₁ h₂ hk
    rw [Int.compare_eq_lt.2 hless, Int.compare_eq_lt.2 (by omega)]
    rfl
  · have hpos : (0 : Int) < 2 ^ k₁ := Int.pow_pos (by decide)
    rw [Int.compare_eq_eq.2 rfl, Ordering.eq_then]
    rcases Nat.lt_trichotomy m₁ m₂ with hm | rfl | hm
    · rw [Nat.compare_eq_lt.2 hm, Int.compare_eq_lt.2 (Int.mul_lt_mul_of_pos_right (by omega) hpos)]
    · rw [Nat.compare_eq_eq.2 rfl, Int.compare_eq_eq.2 rfl]
    · rw [Nat.compare_eq_gt.2 hm, Int.compare_eq_gt.2 (Int.mul_lt_mul_of_pos_right (by omega) hpos)]
  · have hmore : (m₂ : Int) * 2 ^ k₂ < (m₁ : Int) * 2 ^ k₁ := by
      exact_mod_cast mul_two_pow_lt h₂ h₁ hk
    rw [Int.compare_eq_gt.2 hmore, Int.compare_eq_gt.2 (by omega)]
    rfl

theorem compare_neg (a b : Int) : compare (-a) (-b) = (compare a b).swap := by
  rcases Int.lt_trichotomy a b with h | rfl | h
  · rw [Int.compare_eq_lt.2 h, Int.compare_eq_gt.2 (by omega)]
    rfl
  · rw [Int.compare_eq_eq.2 rfl, Int.compare_eq_eq.2 rfl]
    rfl
  · rw [Int.compare_eq_gt.2 h, Int.compare_eq_lt.2 (by omega)]
    rfl

theorem compare_scaled (v w : Int) : compare (v * 2 ^ 52) (w * 2 ^ 52) = compare v w := by
  rcases Int.lt_trichotomy v w with h | rfl | h
  · rw [Int.compare_eq_lt.2 h, Int.compare_eq_lt.2 (by omega)]
  · rw [Int.compare_eq_eq.2 rfl, Int.compare_eq_eq.2 rfl]
  · rw [Int.compare_eq_gt.2 h, Int.compare_eq_gt.2 (by omega)]

theorem pos_of_value {m k : Nat} {v : Int} (hpos : 0 < m)
    (hvalue : v * 2 ^ 52 = Sign.positive.apply (m * 2 ^ k)) : 0 < v := by
  have hscaled : 0 < (m : Int) * 2 ^ k := Int.mul_pos (by omega) (Int.pow_pos (by decide))
  simp only [Sign.apply] at hvalue
  omega

theorem neg_of_value {m k : Nat} {v : Int} (hpos : 0 < m)
    (hvalue : v * 2 ^ 52 = Sign.negative.apply (m * 2 ^ k)) : v < 0 := by
  have hscaled : 0 < (m : Int) * 2 ^ k := Int.mul_pos (by omega) (Int.pow_pos (by decide))
  simp only [Sign.apply] at hvalue
  omega

theorem compare_of_isWhole {u u' : UnpackedFloat} {v w : Int} (hu : IsWhole u v)
    (hu' : IsWhole u' w) : u.compare u' = some (compare v w) := by
  cases hu with
  | zero s =>
      cases hu' with
      | zero s' => rfl
      | finite s' m k hpos w hlog hk hvalue =>
          cases s' with
          | negative =>
              rw [Int.compare_eq_gt.2 (neg_of_value hpos hvalue)]
              rfl
          | positive =>
              rw [Int.compare_eq_lt.2 (pos_of_value hpos hvalue)]
              rfl
  | finite s m k hpos v hlog hk hvalue =>
      cases hu' with
      | zero s' =>
          cases s with
          | negative =>
              rw [Int.compare_eq_lt.2 (neg_of_value hpos hvalue)]
              rfl
          | positive =>
              rw [Int.compare_eq_gt.2 (pos_of_value hpos hvalue)]
              rfl
      | finite s' m' k' hpos' w hlog' hk' hvalue' =>
          have hparts := @compare_parts m m' k k' hlog hlog'
          -- of two negative doubles the one with the greater size is less
          cases s with
          | negative =>
              cases s' with
              | negative =>
                  rw [← compare_scaled v w, hvalue, hvalue']
                  simp only [Sign.apply]
                  rw [compare_neg, ← hparts]
                  rfl
              | positive =>
                  have hless : v < w :=
                    (neg_of_value hpos hvalue).trans (pos_of_value hpos' hvalue')
                  rw [Int.compare_eq_lt.2 hless]
                  rfl
          | positive =>
              cases s' with
              | negative =>
                  have hmore : w < v :=
                    (neg_of_value hpos' hvalue').trans (pos_of_value hpos hvalue)
                  rw [Int.compare_eq_gt.2 hmore]
                  rfl
              | positive =>
                  rw [← compare_scaled v w, hvalue, hvalue']
                  simp only [Sign.apply]
                  rw [← hparts]
                  rfl

theorem isWhole_neg {u : UnpackedFloat} {v : Int} (h : IsWhole u v) : IsWhole u.neg (-v) := by
  cases h with
  | zero s => exact .zero (-s)
  | finite s m k hpos v hlog hk hvalue =>
      refine .finite (-s) m k hpos (-v) hlog hk ?_
      rw [Int.neg_mul, hvalue]
      cases s
      · exact Int.neg_neg _
      · rfl

/-! ## Doubles -/

/-- The double is a whole number. -/
def IsWholeFloat (x : Float) (v : Int) : Prop :=
  IsWhole x.toModel.unpack v

variable {x y : Float} {v w : Int}

theorem isWholeFloat_ofNat (h : n < 2 ^ 64) :
    IsWholeFloat (UInt64.ofNat n).toFloat (nearest n) := by
  have hword : (UInt64.ofNat n).toNat = n := UInt64.toNat_ofNat_of_lt' h
  have hwhole := isWhole_ofNat h
  change IsWhole (UnpackedFloat.unpack _ (UnpackedFloat.pack _
    (UnpackedFloat.ofNat _ (UInt64.ofNat n).toNat))) _
  rw [hword, unpack_pack hwhole]
  exact hwhole

theorem isWholeFloat_neg (h : IsWholeFloat x v) : IsWholeFloat (-x) (-v) := by
  have hneg := isWhole_neg h
  change IsWhole (UnpackedFloat.unpack _ (UnpackedFloat.pack _ x.toModel.unpack.neg)) _
  rw [unpack_pack hneg]
  exact hneg

theorem lt_iff_of_isWholeFloat (hx : IsWholeFloat x v) (hy : IsWholeFloat y w) :
    x < y ↔ v < w := by
  change decide (x.toModel < y.toModel) = true ↔ v < w
  rw [decide_eq_true_iff]
  change (x.toModel.unpack.compare y.toModel.unpack == some .lt) = true ↔ v < w
  rw [compare_of_isWhole hx hy, beq_iff_eq, Option.some.injEq, Int.compare_eq_lt]

theorem beq_iff_of_isWholeFloat (hx : IsWholeFloat x v) (hy : IsWholeFloat y w) :
    (x == y) = true ↔ v = w := by
  change (x.toModel.unpack.compare y.toModel.unpack == some .eq) = true ↔ v = w
  rw [compare_of_isWhole hx hy, beq_iff_eq, Option.some.injEq, Int.compare_eq_eq]

end BookRules.Decimal
