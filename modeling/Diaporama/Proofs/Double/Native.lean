import Diaporama.Proofs.Double.Rounding

/-!
# Doubles counted in steps

The doubles from zero to infinity are counted in steps of `2 ^ -1074`, the least of them. A double
has the count of a rounded number, and one with more than 2045 digits in excess is infinite. The
arithmetic of doubles works on significands with two residual bits; what it ends in is the double
whose count is the exact one, rounded.
-/

namespace Diaporama.Double

open Float.Model Float.Model.UnpackedFloat

def maxExcess : Nat := 2045

/-- The count at which doubles end in infinity. -/
def limit : Nat :=
  2 ^ (53 + maxExcess)

def ofSteps (n : Nat) : UnpackedFloat :=
  if limit ≤ n then .infinity .positive
  else if h : n / 2 ^ excess n = 0 then .zero .positive
  else .finite .positive (n / 2 ^ excess n) (excess n - 1074) (Nat.pos_of_ne_zero h)

theorem limit_pos : 0 < limit :=
  Nat.two_pow_pos _

theorem ofSteps_zero : ofSteps 0 = .zero .positive := by
  rw [ofSteps, if_neg (Nat.not_le.mpr limit_pos), dif_pos (Nat.zero_div _)]

theorem ofSteps_of_limit_le {n : Nat} (h : limit ≤ n) : ofSteps n = .infinity .positive :=
  if_pos h

section

variable {m k : Nat} (hm : m < 2 ^ 53) (hk : 2 ^ 52 ≤ m ∨ k = 0)

include hm hk

theorem mul_two_pow_lt_limit_iff : m * 2 ^ k < limit ↔ k ≤ maxExcess := by
  constructor
  · intro h
    by_contra hLarge
    have hFull : 2 ^ 52 ≤ m := hk.resolve_right (by omega)
    have hLe : limit ≤ m * 2 ^ k := by
      calc
        limit ≤ 2 ^ (52 + k) := Nat.pow_le_pow_right (by omega) (by omega)
        _ = 2 ^ 52 * 2 ^ k := Nat.pow_add 2 52 k
        _ ≤ m * 2 ^ k := Nat.mul_le_mul_right _ hFull
    omega
  · intro h
    calc
      m * 2 ^ k < 2 ^ 53 * 2 ^ k := Nat.mul_lt_mul_of_pos_right hm (Nat.two_pow_pos k)
      _ = 2 ^ (53 + k) := (Nat.pow_add 2 53 k).symm
      _ ≤ limit := Nat.pow_le_pow_right (by omega) (by omega)

theorem excess_mul_two_pow_of_lt : excess (m * 2 ^ k) = k := by
  rcases hk with hFull | rfl
  · apply excess_eq
    · rw [Nat.pow_add]
      exact Nat.mul_le_mul_right _ hFull
    · rw [Nat.pow_add]
      exact Nat.mul_lt_mul_of_pos_right hm (Nat.two_pow_pos k)
  · rw [Nat.pow_zero, Nat.mul_one, excess_eq_zero_iff]
    exact hm

theorem ofSteps_mul_two_pow (h : 0 < m) (hFinite : k ≤ maxExcess) :
    ofSteps (m * 2 ^ k) = .finite .positive m (k - 1074) h := by
  have hBelow := (mul_two_pow_lt_limit_iff hm hk).mpr hFinite
  have hExcess := excess_mul_two_pow_of_lt hm hk
  have hQuotient : m * 2 ^ k / 2 ^ k = m := Nat.mul_div_cancel m (Nat.two_pow_pos k)
  simp only [ofSteps, hExcess, hQuotient, if_neg (Nat.not_le.mpr hBelow), dif_neg h.ne']

end

/-! ## Packing -/

theorem unpack_pack_infinity (s : Sign) : (pack (.infinity s)).unpack = .infinity s := by
  cases s <;> rfl

theorem unpack_pack_zero (s : Sign) : (pack (.zero s)).unpack = .zero s := by
  cases s <;> rfl

theorem toNat_one_append (m : BitVec 52) : (1#1 ++ m).toNat = 2 ^ 52 + m.toNat := by
  rw [BitVec.toNat_append, ← Nat.shiftLeft_add_eq_or_of_lt m.isLt, Nat.shiftLeft_eq]
  rfl

theorem exponentBias_binary64 : Format.binary64.exponentBias = 1023 := by rfl

section

variable {m k : Nat} (s : Sign) (h : 0 < m)

theorem pack_finite :
    UnpackedFloat.pack Format.binary64 (.finite s m (k - 1074) h) =
      if 2 ^ 11 ≤ k + 1 + 1 then packedInfinity Format.binary64 s
      else if m.log2 + 1 = 53 then
        packComponents Format.binary64 s (BitVec.ofNat 11 (k + 1)) (BitVec.ofNat 52 m)
      else packComponents Format.binary64 s 0#11 (BitVec.ofNat 52 m) := by
  have hBiased : ((k : Int) - 1074 + (Format.binary64.exponentBias : Nat) + (52 : Nat)).toNat =
      k + 1 := by
    rw [exponentBias_binary64]
    omega
  unfold UnpackedFloat.pack
  simp only [hBiased]
  rfl

theorem unpack_subnormal (hm : m < 2 ^ 52) :
    UnpackedFloat.unpack Format.binary64
        (packComponents Format.binary64 s 0#11 (BitVec.ofNat 52 m)) =
      .finite s m (0 - 1074) h := by
  have hMantissa : (BitVec.ofNat 52 m).toNat = m := by
    rw [BitVec.toNat_ofNat, Nat.mod_eq_of_lt hm]
  have hNonzero : BitVec.ofNat 52 m ≠ 0#52 := by
    intro hZero
    rw [hZero] at hMantissa
    exact h.ne hMantissa
  unfold UnpackedFloat.unpack
  simp only [unpackMantissa_packComponents, unpackExponent_packComponents,
    unpackSign_packComponents, Sign.ofBitVec_toBitVec]
  rw [if_neg (by decide), if_pos trivial, dif_neg hNonzero]
  simp only [hMantissa]
  rfl

theorem unpack_normal (hm : m < 2 ^ 53) (hFull : 2 ^ 52 ≤ m) (hk : k ≤ maxExcess) :
    UnpackedFloat.unpack Format.binary64
        (packComponents Format.binary64 s (BitVec.ofNat 11 (k + 1)) (BitVec.ofNat 52 m)) =
      .finite s m (k - 1074) h := by
  unfold maxExcess at hk
  have hExponent : (BitVec.ofNat 11 (k + 1)).toNat = k + 1 := by
    rw [BitVec.toNat_ofNat, Nat.mod_eq_of_lt (by omega)]
  have hNotTop : BitVec.ofNat 11 (k + 1) ≠ -1#11 := by
    intro hTop
    rw [hTop] at hExponent
    have hOnes : (-1#11 : BitVec 11).toNat = 2047 := by rfl
    omega
  have hNotZero : BitVec.ofNat 11 (k + 1) ≠ 0#11 := by
    intro hZero
    rw [hZero] at hExponent
    have hNone : (0#11 : BitVec 11).toNat = 0 := by rfl
    omega
  have hMantissa : (1#1 ++ BitVec.ofNat 52 m).toNat = m := by
    rw [toNat_one_append, BitVec.toNat_ofNat]
    omega
  unfold UnpackedFloat.unpack
  simp only [unpackMantissa_packComponents, unpackExponent_packComponents,
    unpackSign_packComponents, Sign.ofBitVec_toBitVec]
  rw [if_neg hNotTop, if_neg hNotZero]
  simp only [hMantissa, hExponent, exponentBias_binary64]
  congr 1
  omega

/-- Packing keeps a finite double whose exponent is not too large. -/
theorem unpack_pack_of_le (hm : m < 2 ^ 53) (hk : 2 ^ 52 ≤ m ∨ k = 0) (hFinite : k ≤ maxExcess) :
    (pack (.finite s m (k - 1074) h)).unpack = .finite s m (k - 1074) h := by
  change UnpackedFloat.unpack Format.binary64 (UnpackedFloat.pack Format.binary64 _) = _
  rw [pack_finite, if_neg (by unfold maxExcess at hFinite; omega)]
  rcases Nat.lt_or_ge m (2 ^ 52) with hSmall | hFull
  · obtain rfl : k = 0 := hk.resolve_left (by omega)
    have hLog : m.log2 < 52 := (Nat.log2_lt h.ne').mpr hSmall
    rw [if_neg (by omega)]
    exact unpack_subnormal s h hSmall
  · have hUpper : m.log2 < 53 := (Nat.log2_lt h.ne').mpr hm
    have hLower : 52 ≤ m.log2 := (Nat.le_log2 h.ne').mpr hFull
    rw [if_pos (by omega)]
    exact unpack_normal s h hm hFull hFinite

/-- Where the exponent is too large, packing leaves infinity. -/
theorem unpack_pack_finite (hm : m < 2 ^ 53) (hk : 2 ^ 52 ≤ m ∨ k = 0) :
    (pack (.finite .positive m (k - 1074) h)).unpack = ofSteps (m * 2 ^ k) := by
  rcases Nat.lt_or_ge maxExcess k with hLarge | hFinite
  · have hLimit : limit ≤ m * 2 ^ k := by
      by_contra hBelow
      have := (mul_two_pow_lt_limit_iff hm hk).mp (Nat.lt_of_not_le hBelow)
      omega
    change UnpackedFloat.unpack Format.binary64 (UnpackedFloat.pack Format.binary64 _) = _
    rw [pack_finite, ofSteps_of_limit_le hLimit, if_pos (by unfold maxExcess at hLarge; omega)]
    rfl
  · rw [ofSteps_mul_two_pow hm hk h hFinite, unpack_pack_of_le .positive h hm hk hFinite]

end

/-! ## Residual bits -/

/-- A significand stands for the quotient `n / d`: its two bits tell on which side of the half way
the rest lies, and whether it is there or at zero exactly. -/
structure Represents (em : ExtendedMantissa) (n d : Nat) : Prop where
  mantissa : em.mantissa = n / d
  roundBit : em.roundBit = true ↔ d ≤ 2 * (n % d)
  stickyBit : em.stickyBit = true ↔ 2 * (n % d) ≠ 0 ∧ 2 * (n % d) ≠ d

section

variable {em : ExtendedMantissa} {n d : Nat}

theorem represents_exact (n : Nat) :
    Represents (ExtendedMantissa.ofMantissaAndAccuracy n .exact) n 1 where
  mantissa := (Nat.div_one n).symm
  roundBit := by simp [ExtendedMantissa.ofMantissaAndAccuracy, Nat.mod_one]
  stickyBit := by simp [ExtendedMantissa.ofMantissaAndAccuracy, Nat.mod_one]

theorem Represents.shiftRightOne (h : Represents em n d) (hd : 0 < d) :
    Represents em.shiftRightOne n (d * 2) := by
  have hRest := Nat.mod_lt n hd
  have hMod : n % (d * 2) = n % d + d * (n / d % 2) := Nat.mod_mul
  have hBit : n / d % 2 = 0 ∨ n / d % 2 = 1 := Nat.mod_two_eq_zero_or_one _
  refine ⟨?_, ?_, ?_⟩
  · rw [ExtendedMantissa.shiftRightOne, h.mantissa, Nat.div_div_eq_div_mul]
  · rw [ExtendedMantissa.shiftRightOne, h.mantissa, hMod, bne_iff_ne]
    rcases hBit with hBit | hBit <;> rw [hBit] <;> omega
  · rw [ExtendedMantissa.shiftRightOne, Bool.or_eq_true, h.roundBit, h.stickyBit, hMod]
    rcases hBit with hBit | hBit <;> rw [hBit] <;> omega

theorem Represents.shiftRight (h : Represents em n d) (hd : 0 < d) (k : Nat) :
    Represents (em >>> k) n (d * 2 ^ k) := by
  change Represents (k.repeat ExtendedMantissa.shiftRightOne em) n (d * 2 ^ k)
  induction k with
  | zero => simpa [Nat.repeat] using h
  | succ k ih =>
      rw [Nat.repeat, Nat.pow_succ, ← Nat.mul_assoc]
      exact ih.shiftRightOne (Nat.mul_pos hd (Nat.two_pow_pos k))

theorem Represents.roundedMantissa (h : Represents em n d) : em.roundedMantissa = roundDiv n d := by
  obtain ⟨hMantissa, hRound, hSticky⟩ := h
  obtain ⟨mantissa, roundBit, stickyBit⟩ := em
  unfold roundDiv
  cases roundBit <;> cases stickyBit <;>
    simp only [Bool.false_eq_true, false_iff, true_iff, ExtendedMantissa.roundedMantissa,
      ExtendedMantissa.accuracy, Accuracy.roundToNearestEven] at hMantissa hRound hSticky ⊢ <;>
    rw [hMantissa] <;> split_ifs <;> omega

theorem roundedMantissa_shiftRight (n k : Nat) :
    (ExtendedMantissa.ofMantissaAndAccuracy n .exact >>> k).roundedMantissa = roundDiv n (2 ^ k) := by
  rw [((represents_exact n).shiftRight Nat.one_pos k).roundedMantissa, Nat.one_mul]

end

/-! ## Rounding -/

theorem targetExponent_binary64 (m : Nat) (e : Int) :
    Format.binary64.targetExponent (totalExponent m e) = max (m.log2 + e - 52) (-1074) := by
  simp only [Format.targetExponent, totalExponent, Format.mantissaBits, Format.minExponent]
  norm_num
  omega

theorem shiftToTargetExponent_binary64 (m : Nat) (e : Int) :
    let k := (max (m.log2 + e - 52) (-1074) - e).toNat
    shiftToTargetExponent Format.binary64 m e .exact =
      (ExtendedMantissa.ofMantissaAndAccuracy m .exact >>> k, e + k) := by
  intro k
  rw [shiftToTargetExponent, targetExponent_binary64]
  rfl

/-- A significand that rounding carried to 54 digits is shifted once more. -/
theorem unpack_pack_carried {r k : Nat} (hr : r ≤ 2 ^ 53) (hk : 2 ^ 52 ≤ r ∨ k = 0) :
    let shifted := shiftToTargetExponent Format.binary64 r (k - 1074) .exact
    (pack (if h : shifted.1.mantissa = 0 then .zero .positive
      else .finite .positive shifted.1.mantissa shifted.2 (Nat.pos_of_ne_zero h))).unpack =
        ofSteps (r * 2 ^ k) := by
  intro shifted
  rcases Nat.lt_or_eq_of_le hr with hLt | rfl
  · have hShifted : shifted = (⟨r, false, false⟩, (k : Int) - 1074) := by
      have hLog : r.log2 ≤ 52 := by
        rcases Nat.eq_zero_or_pos r with rfl | hPos
        · decide
        · have := (Nat.log2_lt hPos.ne').mpr hLt
          omega
      have hNone : (max ((r.log2 : Int) + (k - 1074) - 52) (-1074) - (k - 1074)).toNat = 0 := by
        omega
      change shiftToTargetExponent Format.binary64 r (k - 1074) .exact = _
      rw [shiftToTargetExponent_binary64, hNone]
      simp [HShiftRight.hShiftRight, Nat.repeat, ExtendedMantissa.ofMantissaAndAccuracy]
    rw [hShifted]
    rcases Nat.eq_zero_or_pos r with rfl | hPos
    · rw [dif_pos rfl, unpack_pack_zero, Nat.zero_mul, ofSteps_zero]
    · rw [dif_neg hPos.ne']
      exact unpack_pack_finite hPos hLt hk
  · have hShifted : shifted = (⟨2 ^ 52, false, false⟩, ((k + 1 : Nat) : Int) - 1074) := by
      have hOne : (max (((2 ^ 53 : Nat).log2 : Int) + (k - 1074) - 52) (-1074) -
          (k - 1074)).toNat = 1 := by
        rw [Nat.log2_two_pow]
        omega
      change shiftToTargetExponent Format.binary64 (2 ^ 53) (k - 1074) .exact = _
      rw [shiftToTargetExponent_binary64, hOne]
      simp [HShiftRight.hShiftRight, Nat.repeat, ExtendedMantissa.ofMantissaAndAccuracy,
        ExtendedMantissa.shiftRightOne]
      omega
    have hCount : 2 ^ 53 * 2 ^ k = 2 ^ 52 * 2 ^ (k + 1) := by
      rw [← Nat.pow_add, ← Nat.pow_add]
      congr 1
      omega
    have hFull : 0 < 2 ^ 52 := Nat.two_pow_pos 52
    rw [hShifted, hCount, dif_neg hFull.ne']
    exact unpack_pack_finite hFull (Nat.pow_lt_pow_right (by omega) (by omega))
      (.inl (Nat.le_refl _))

/-- Rounding depends on the number only, not on how it is split into significand and exponent. -/
theorem unpack_pack_roundWithAccuracy {m n a b : Nat} {e : Int} (hm : 0 < m)
    (hCount : m * 2 ^ a = n * 2 ^ b) (he : e + 1074 = a - b)
    (hShift : 52 ≤ m.log2 ∨ e ≤ -1074) :
    (pack (roundWithAccuracy Format.binary64 .positive m e .exact)).unpack =
      ofSteps (nearest n) := by
  obtain ⟨k, hk⟩ : ∃ k : Nat, max ((m.log2 : Int) + e - 52) (-1074) - e = k :=
    ⟨(max ((m.log2 : Int) + e - 52) (-1074) - e).toNat, by omega⟩
  have hn : 0 < n := by
    by_contra hZero
    rw [Nat.eq_zero_of_not_pos hZero, Nat.zero_mul] at hCount
    exact (Nat.mul_pos hm (Nat.two_pow_pos a)).ne' hCount
  -- Both splittings have the same digits, so they are cut at the same place.
  have hLog : m.log2 + a = n.log2 + b := by
    rw [← log2_mul_two_pow hm, ← log2_mul_two_pow hn, hCount]
  have hExcess : e + k = excess n - 1074 := by
    unfold excess
    omega
  have hRound : roundDiv m (2 ^ k) = roundDiv n (2 ^ excess n) := by
    calc
      roundDiv m (2 ^ k) = roundDiv (m * 2 ^ a) (2 ^ k * 2 ^ a) :=
        (roundDiv_mul_right (Nat.two_pow_pos a)).symm
      _ = roundDiv (n * 2 ^ b) (2 ^ excess n * 2 ^ b) := by
        rw [hCount, ← Nat.pow_add, ← Nat.pow_add, show k + a = excess n + b by omega]
      _ = roundDiv n (2 ^ excess n) := roundDiv_mul_right (Nat.two_pow_pos b)
  have hRounded := roundedMantissa_shiftRight m k
  rw [roundWithAccuracy, shiftToTargetExponent_binary64, hk, Int.toNat_natCast, hExcess]
  dsimp only
  rw [hRounded, hRound]
  refine unpack_pack_carried (roundDiv_excess_le n) ?_
  rcases Nat.eq_zero_or_pos (excess n) with hZero | hPos
  · exact .inr hZero
  · exact .inl (le_roundDiv_excess hPos)

end Diaporama.Double
