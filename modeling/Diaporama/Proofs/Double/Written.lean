import Diaporama.Proofs.Double.Nearest
import Diaporama.Proofs.Slideshow.Equality

/-!
# Written doubles

The text of a finite time is a plain numeral that rounds to the time, and no decimal of fewer digits
does. Since no number rounds to two doubles, different times have different texts.
-/

namespace Diaporama

def HasDigits (count : Nat) (q : ℚ) : Prop :=
  ∃ n e : Int, |n| < 10 ^ count ∧ q = n * 10 ^ e

theorem HasDigits.signed {count : Nat} {q : ℚ} (h : HasDigits count q) (negative : Bool) :
    HasDigits count (signed negative q) := by
  obtain ⟨n, e, hn, rfl⟩ := h
  cases negative with
  | false => exact ⟨n, e, hn, rfl⟩
  | true => exact ⟨-n, e, by rwa [abs_neg], by simp [Diaporama.signed]⟩

namespace Double

variable {x y : Float} {negative : Bool} {m k : Nat}

/-- The numbers that round to a double other than zero have its sign and lie in its interval. -/
theorem isNearest_iff_admits_signed (hFinite : x.isFinite = true) (h : Canonical m k)
    (hx : Binary64.ofFloat x = .finite negative m (k - 1074)) (hPos : 0 < m) {q : ℚ} :
    IsNearest q x ↔
      (RoundingInterval.ofSignificand m (k - 1074)).Admits (signed negative q / quarter k) := by
  cases negative with
  | false => exact isNearest_iff_admits hFinite h hx hPos
  | true =>
      obtain ⟨z, hz, hOf⟩ := exists_float false h
      have hValue : value x = -value z := by
        rw [value_eq hx, value_eq hOf]
        rfl
      have hOpposite : value z = -value x := by rw [hValue, neg_neg]
      have hEven : (Binary64.ofFloat x).IsEven ↔ (Binary64.ofFloat z).IsEven := by
        rw [hx, hOf]
        rfl
      change IsNearest q x ↔ RoundingInterval.Admits _ (-q / quarter k)
      rw [← isNearest_iff_admits hz h hOf hPos]
      refine ⟨fun hq => hq.opposite hz hOpposite hEven.mp, fun hq => ?_⟩
      have hBack := hq.opposite hFinite hValue hEven.mpr
      rwa [neg_neg] at hBack

theorem value_eq_of_beq (h : (x == y) = true) : value x = value y := by
  obtain ⟨-, -, rfl | ⟨rfl, rfl⟩ | ⟨rfl, rfl⟩⟩ := Float.beq_iff_ne_nan_and_eq.mp h
  · rfl
  · exact value_zero.trans value_neg_zero.symm
  · exact value_neg_zero.trans value_zero.symm

theorem value_eq_zero_iff (hx : Binary64.ofFloat x = .finite negative m (k - 1074)) :
    value x = 0 ↔ m = 0 := by
  rw [value_eq hx]
  have hLeast := least_pos.ne'
  cases negative <;> simp [signed, hLeast]

theorem beq_zero_iff (hFinite : x.isFinite = true)
    (hx : Binary64.ofFloat x = .finite negative m (k - 1074)) : (x == 0.0) = true ↔ m = 0 := by
  have hZero : value 0.0 = 0 := by
    have hNull : Binary64.ofFloat 0.0 = .finite false 0 (-1074) := by decide
    simp [value, hNull, Binary64.value, signed]
  rw [← value_eq_zero_iff hx, ← hZero]
  exact ⟨value_eq_of_beq, beq_of_value_eq hFinite (by decide)⟩

theorem isNearest_zero (hFinite : x.isFinite = true) (hValue : value x = 0) : IsNearest 0 x where
  finite := hFinite
  small := by
    rw [abs_zero, overflow]
    norm_num
  nearest y hy := by
    rw [hValue, sub_zero, abs_zero]
    exact abs_nonneg _
  even y hy hNe hEq := by
    rw [hValue, sub_zero, abs_zero, abs_eq_zero, zero_sub, neg_eq_zero] at hEq
    exact absurd (hEq.trans hValue.symm) hNe

/-- The numeral is a right way to write the double: it rounds to it, and no decimal that does has
fewer digits. -/
structure Writes (p : PlainNumeral) (x : Float) : Prop where
  proper : p.Proper
  nearest : IsNearest p.value x
  fewest : ∀ count q, HasDigits count q → IsNearest q x → HasDigits count p.value

theorem writes_zero (hFinite : x.isFinite = true) (hValue : value x = 0) :
    Writes (.ofDecimal false ⟨0, 0⟩) x := by
  have hNumeral : (PlainNumeral.ofDecimal false ⟨0, 0⟩).value = 0 := by
    rw [PlainNumeral.value_ofDecimal]
    simp [signed, Decimal.value]
  refine ⟨PlainNumeral.proper_ofDecimal (.inr (Int.le_refl 0)) (by simp), ?_, fun count q _ _ => ?_⟩
  · rw [hNumeral]
    exact isNearest_zero hFinite hValue
  · rw [hNumeral]
    exact ⟨0, 0, by simp, by simp⟩

theorem writes_shortest (hFinite : x.isFinite = true) (h : Canonical m k)
    (hx : Binary64.ofFloat x = .finite negative m (k - 1074)) (hPos : 0 < m) (tie : Tie) :
    Writes (.ofDecimal negative (Decimal.shortest tie m (k - 1074))) x := by
  have hStands := Decimal.stands_shortest tie (k - 1074) hPos h.short
  have hNearest {q : ℚ} := isNearest_iff_admits_signed hFinite h hx hPos (q := q)
  have hValue := PlainNumeral.value_ofDecimal negative (Decimal.shortest tie m (k - 1074))
  have hZero : (Decimal.shortest tie m (k - 1074)).value ≠ 0 := fun hZero => by
    have hAdmits := hStands.admits.pos (RoundingInterval.proper_ofSignificand hPos _)
    simp [hZero] at hAdmits
  refine ⟨PlainNumeral.proper_ofDecimal (.inl hStands.trimmed) fun _ => hZero, ?_,
    fun count q hDigits hq => ?_⟩
  · rw [hNearest, hValue, signed_signed]
    exact hStands.admits
  · obtain ⟨n, e, hn, rfl⟩ := hDigits
    rw [hNearest] at hq
    have hPositive : 0 < signed negative (n * 10 ^ e) := by
      have hDiv := hq.pos (RoundingInterval.proper_ofSignificand hPos _)
      exact (div_pos_iff_of_pos_right (quarter_pos k)).mp hDiv
    have hMagnitude : signed negative (n * 10 ^ e) = n.natAbs * 10 ^ e := by
      have hPower : (0 : ℚ) < 10 ^ e := by positivity
      rw [← abs_of_pos hPositive, abs_signed, abs_mul, abs_of_pos hPower, Nat.cast_natAbs,
        Int.cast_abs]
    rw [hMagnitude] at hq
    have hShort : (Decimal.shortest tie m (k - 1074)).digits < 10 ^ count :=
      hStands.fewest (by zify; exact hn) hq
    rw [hValue]
    refine HasDigits.signed ⟨(Decimal.shortest tie m (k - 1074)).digits, _, ?_, rfl⟩ negative
    rw [Nat.abs_cast]
    exact_mod_cast hShort

end Double

/-! ## The texts of times -/

namespace Seconds

open Double

theorem text_of_ne {x : Float} (h : (x == 0.0) = false) : text x = shown x := by
  rw [text, h, if_neg Bool.false_ne_true]

theorem exists_numeral {x : Float} (hFinite : x.isFinite = true) :
    ∃ p : PlainNumeral, text x = p.text ∧ Writes p x := by
  obtain ⟨negative, m, k, h, hx⟩ := exists_canonical hFinite
  rcases Nat.eq_zero_or_pos m with rfl | hPos
  · have hZero : (x == 0.0) = true := (beq_zero_iff hFinite hx).mpr rfl
    refine ⟨.ofDecimal false ⟨0, 0⟩, ?_, writes_zero hFinite ((value_eq_zero_iff hx).mpr rfl)⟩
    rw [text, if_pos hZero]
    decide
  · have hOther : (x == 0.0) = false :=
      Bool.eq_false_iff.mpr fun hZero => hPos.ne' ((beq_zero_iff hFinite hx).mp hZero)
    refine ⟨.ofDecimal negative (Decimal.shortest .up m (k - 1074)), ?_,
      writes_shortest hFinite h hx hPos .up⟩
    rw [text_of_ne hOther, PlainNumeral.text_ofDecimal, shown, Layout.text, hx]
    simp only [Layout.magnitude, if_neg hPos.ne']
    rfl

theorem text_inj {x y : Float} (hx : x.isFinite = true) (hy : y.isFinite = true)
    (h : text x = text y) : (x == y) = true := by
  obtain ⟨p, hText, hp⟩ := exists_numeral hx
  obtain ⟨p', hText', hp'⟩ := exists_numeral hy
  have hNumeral : p.numeral = p'.numeral := by
    have hParse := PlainNumeral.parse?_text hp.proper.digits hp.proper.whole_ne
    rw [← hText, h, hText',
      PlainNumeral.parse?_text hp'.proper.digits hp'.proper.whole_ne] at hParse
    exact (Option.some_inj.mp hParse).symm
  have hValue : p'.value = p.value := congrArg Numeral.value hNumeral.symm
  exact beq_of_value_eq hx hy (hp.nearest.value_unique (hValue ▸ hp'.nearest))

/-- A finite time is written as a plain numeral: without an exponent, with no zero at the end of
what stands behind the point, and with a minus sign only before numbers other than zero. Read as an
exact decimal the numeral rounds to the time and to no other, and no decimal of fewer digits rounds
to it. So two finite times have the same text exactly when they are equal. -/
theorem text_shortest {x : Float} (hx : x.isFinite = true) :
    (∃ p : PlainNumeral, text x = p.text ∧ p.Proper ∧
      Numeral.parse? (text x) = some p.numeral ∧ IsNearest p.value x ∧
      (∀ y : Float, IsNearest p.value y → (x == y) = true) ∧
      ∀ count q, HasDigits count q → IsNearest q x → HasDigits count p.value) ∧
    ∀ y : Float, y.isFinite = true → (text x = text y ↔ (x == y) = true) := by
  refine ⟨?_, fun y hy => ⟨text_inj hx hy, text_eq_of_beq x y⟩⟩
  obtain ⟨p, hText, hp⟩ := exists_numeral hx
  refine ⟨p, hText, hp.proper, ?_, hp.nearest, fun y hy => ?_, hp.fewest⟩
  · rw [hText]
    exact PlainNumeral.parse?_text hp.proper.digits hp.proper.whole_ne
  · exact beq_of_value_eq hx hy.finite (hp.nearest.value_unique hy)

/-- A sum that is not the time it looks like. -/
theorem text_shortest_sum :
    (0.1 + 0.2 : Float).isFinite = true ∧ (0.3 : Float).isFinite = true ∧
      text (0.1 + 0.2) ≠ text 0.3 ∧ text 0.0 = text (-0.0) := by
  have hSum : (0.1 + 0.2 : Float).isFinite = true := by decide +kernel
  have hTime : (0.3 : Float).isFinite = true := by decide +kernel
  have hZero : (0.0 : Float).isFinite = true := by decide +kernel
  refine ⟨hSum, hTime, fun hEq => ?_, ?_⟩
  · have hBeq := ((text_shortest hSum).2 0.3 hTime).mp hEq
    revert hBeq
    decide +kernel
  · exact ((text_shortest hZero).2 (-0.0) (by decide +kernel)).mpr (by decide +kernel)

end Seconds

end Diaporama
