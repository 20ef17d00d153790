import Diaporama.Proofs.Decimal.Plain
import Diaporama.Proofs.Decimal.Text
import Diaporama.Proofs.Double.Steps

/-!
# The texts of counted times

The bits of a double are read as the native model of doubles reads them. So a finite time that is no
negative number is written as a plain decimal, and an infinite one as `inf`.
-/

namespace Diaporama

open Float.Model Float.Model.UnpackedFloat

/-! ## Bits -/

namespace Binary64

def isNegative : Sign → Bool
  | .negative => true
  | .positive => false

def ofUnpacked : UnpackedFloat → Binary64
  | .infinity s => infinite (isNegative s)
  | .notANumber => nan
  | .zero s => finite (isNegative s) 0 (-1074)
  | .finite s m e _ => finite (isNegative s) m e

section

variable (b : BitVec Format.binary64.numBits)

theorem toNat_unpackMantissa : (unpackMantissa b).toNat = b.toNat % leastFull := by
  change (b.toNat >>> 0) % 2 ^ 52 = _
  rfl

theorem toNat_unpackExponent : (unpackExponent b).toNat = b.toNat / leastFull % powers := by
  change (b.toNat >>> 52) % 2 ^ 11 = _
  rw [Nat.shiftRight_eq_div_pow]
  rfl

theorem isNegative_unpackSign :
    isNegative (Sign.ofBitVec (unpackSign b)) = (b.toNat / leastFull / powers % 2 == 1) := by
  have hSign : (unpackSign b).toNat = b.toNat / leastFull / powers % 2 := by
    change (b.toNat >>> 63) % 2 ^ 1 = _
    rw [Nat.shiftRight_eq_div_pow, Nat.div_div_eq_div_mul]
    rfl
  have hBit : ∀ v : BitVec 1, isNegative (Sign.ofBitVec v) = (v.toNat == 1) := by decide
  rw [← hSign, hBit]

theorem ofBits_toNat : ofBits b.toNat = ofUnpacked (UnpackedFloat.unpack Format.binary64 b) := by
  have hTop : (unpackExponent b).toNat = powers - 1 ↔ unpackExponent b = -1#11 := by
    rw [← BitVec.toNat_inj]
    rfl
  have hLow : (unpackExponent b).toNat = 0 ↔ unpackExponent b = 0#11 := by
    rw [← BitVec.toNat_inj]
    rfl
  have hNone : (unpackMantissa b).toNat = 0 ↔ unpackMantissa b = 0#52 := by
    rw [← BitVec.toNat_inj]
    rfl
  unfold ofBits UnpackedFloat.unpack
  simp only [← toNat_unpackMantissa, ← toNat_unpackExponent, ← isNegative_unpackSign, hTop, hLow,
    hNone, Double.exponentBias_binary64, Double.toNat_one_append]
  split_ifs with hInfinite hZero hSubnormal hFraction
  · rfl
  · rfl
  · rw [hNone.mpr hFraction]
    rfl
  · rw [hLow.mpr hSubnormal]
    rfl
  · rw [Nat.add_comm]
    rfl

end

theorem ofFloat_eq (x : Float) : ofFloat x = ofUnpacked x.toModel.unpack :=
  ofBits_toNat x.toModel.toBits.toBitVec

theorem isNegative_inj {s s' : Sign} : isNegative s = isNegative s' ↔ s = s' := by
  cases s <;> cases s' <;> simp [isNegative]

theorem ofUnpacked_inj {u v : UnpackedFloat} : ofUnpacked u = ofUnpacked v ↔ u = v := by
  refine ⟨fun h => ?_, congrArg ofUnpacked⟩
  cases u <;> cases v <;>
    simp only [ofUnpacked, infinite.injEq, finite.injEq, isNegative_inj, reduceCtorEq] at h ⊢
  all_goals grind

theorem ofFloat_inj {x y : Float} : ofFloat x = ofFloat y ↔ x = y := by
  rw [ofFloat_eq, ofFloat_eq, ofUnpacked_inj]
  exact ⟨Double.eq_of_unpack_eq, congrArg fun z : Float => z.toModel.unpack⟩

theorem ofFloat_zero : ofFloat 0 = finite false 0 (-1074) := by
  decide

theorem ofFloat_neg_zero : ofFloat (-0) = finite true 0 (-1074) := by
  decide

end Binary64

/-! ## Plain decimals -/

namespace Layout

/-- Digits, and behind a point, if there is one, digits again. -/
def IsPlain (s : String) : Prop :=
  ∃ whole fraction : List Char, (∀ c ∈ whole ++ fraction, c.isDigit = true) ∧ whole ≠ [] ∧
    (s.toList = whole ∨ fraction ≠ [] ∧ s.toList = whole ++ '.' :: fraction)

theorem isPlain_positionalText (d : Decimal) : IsPlain (plain.positionalText d) := by
  have hChars := PlainNumeral.whole_append_pointed_ofDecimal false d
  refine ⟨_, _, PlainNumeral.isDigit_of_mem_ofDecimal false d,
    PlainNumeral.whole_ofDecimal_ne_nil false d, ?_⟩
  rw [← hChars]
  cases (PlainNumeral.ofDecimal false d).fraction with
  | nil => exact .inl (List.append_nil _)
  | cons c cs => exact .inr ⟨List.cons_ne_nil _ _, rfl⟩

theorem isPlain_magnitude (significand : Nat) (exponent : Int) :
    IsPlain (plain.magnitude significand exponent) := by
  unfold magnitude
  dsimp only
  split
  · exact isPlain_positionalText _
  · rw [if_pos (by rfl)]
    exact isPlain_positionalText _

end Layout

namespace Seconds

theorem isPlain_shown {x : Float} {significand : Nat} {exponent : Int}
    (h : Binary64.ofFloat x = .finite false significand exponent) : Layout.IsPlain (shown x) := by
  unfold shown Layout.text
  rw [h]
  exact Layout.isPlain_magnitude _ _

theorem isPlain_text {x : Float} {significand : Nat} {exponent : Int}
    (h : Binary64.ofFloat x = .finite false significand exponent) : Layout.IsPlain (text x) := by
  have hZero : Binary64.ofFloat 0.0 = .finite false 0 (-1074) := by decide
  unfold text
  split
  · exact isPlain_shown hZero
  · exact isPlain_shown h

theorem text_eq_inf {x : Float} (h : x.toModel.unpack = .infinity .positive) : text x = "inf" := by
  have hOther : (x == 0.0) = false := by
    change x.toModel.unpack.beq (0.0 : Float).toModel.unpack = false
    rw [h, unpack_zero]
    rfl
  rw [text, hOther, if_neg Bool.false_ne_true, shown, Layout.text, Binary64.ofFloat_eq, h]
  rfl

end Seconds

namespace Double

variable {x : Float} {n : Nat}

/-- A time that has a count is written as a plain decimal where it is finite. -/
theorem Counts.isPlain_text (h : Counts x n) (hFinite : x.isFinite = true) :
    Layout.IsPlain (Seconds.text x) := by
  have hBelow := h.isFinite_iff.mp hFinite
  have hBits := Binary64.ofFloat_eq x
  rw [h.unpack] at hBits
  rcases ofSteps_cases h.rounded with rfl | hLimit | ⟨q, k, hq, rfl, -, -, -, hUnpack⟩
  · rw [ofSteps_zero] at hBits
    exact Seconds.isPlain_text hBits
  · omega
  · rw [hUnpack] at hBits
    exact Seconds.isPlain_text hBits

theorem Counts.text_eq_inf (h : Counts x n) (hInfinite : x.isFinite = false) :
    Seconds.text x = "inf" := by
  refine Seconds.text_eq_inf (h.unpack.trans (ofSteps_of_limit_le ?_))
  by_contra hBelow
  rw [h.isFinite_iff.mpr (Nat.lt_of_not_le hBelow)] at hInfinite
  cases hInfinite

end Double

end Diaporama
