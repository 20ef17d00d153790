import Diaporama.Proofs.Decimal.Shortest
import Diaporama.Proofs.Double.Text

/-!
# The nearest double

A number rounds to the nearest double, from half way to the one with an even significand, and to
infinity if it lies half a place or more beyond the greatest double. The numbers that round to a
positive double are those in its rounding interval, and no number rounds to two doubles.
-/

namespace Diaporama

/-! ## The numbers that doubles stand for -/

namespace Binary64

def value : Binary64 → ℚ
  | finite negative significand exponent => signed negative (significand * 2 ^ exponent)
  | nan | infinite _ => 0

/-- The last place of the significand is zero. -/
def IsEven : Binary64 → Prop
  | finite _ significand _ => significand % 2 = 0
  | nan | infinite _ => False

end Binary64

namespace Double

open Float.Model Float.Model.UnpackedFloat

def value (x : Float) : ℚ :=
  (Binary64.ofFloat x).value

/-- From here on numbers round to infinity. -/
def overflow : ℚ :=
  (2 ^ 54 - 1) * 2 ^ 970

/-- The number rounds to the double, to the even one of two that are equally near. -/
structure IsNearest (q : ℚ) (x : Float) : Prop where
  finite : x.isFinite = true
  small : |q| < overflow
  nearest : ∀ y : Float, y.isFinite = true → |q - value x| ≤ |q - value y|
  even : ∀ y : Float, y.isFinite = true → value y ≠ value x → |q - value y| = |q - value x| →
    (Binary64.ofFloat x).IsEven

/-- The significand and the exponent, counted from the least one, of a finite double. -/
structure Canonical (m k : Nat) : Prop where
  short : m < 2 ^ 53
  full : 2 ^ 52 ≤ m ∨ k = 0
  bounded : k ≤ maxExcess

theorem Canonical.zero : Canonical 0 0 :=
  ⟨by omega, .inr rfl, Nat.zero_le _⟩

theorem exists_canonical {x : Float} (h : x.isFinite = true) :
    ∃ negative m k, Canonical m k ∧ Binary64.ofFloat x = .finite negative m (k - 1074) := by
  change x.toModel.unpack.isFinite = true at h
  rw [Binary64.ofFloat_eq]
  cases hUnpack : x.toModel.unpack with
  | infinity s =>
      rw [hUnpack] at h
      cases h
  | notANumber =>
      rw [hUnpack] at h
      cases h
  | zero s => exact ⟨_, 0, 0, .zero, rfl⟩
  | finite s m e hm =>
      obtain ⟨k, rfl, hShort, hFull, hBounded⟩ := unpack_finite hUnpack
      exact ⟨_, m, k, ⟨hShort, hFull, hBounded⟩, rfl⟩

theorem exists_float (negative : Bool) {m k : Nat} (h : Canonical m k) :
    ∃ x : Float, x.isFinite = true ∧ Binary64.ofFloat x = .finite negative m (k - 1074) := by
  obtain ⟨s, rfl⟩ : ∃ s, Binary64.isNegative s = negative := by
    cases negative
    · exact ⟨.positive, rfl⟩
    · exact ⟨.negative, rfl⟩
  have hPacked {u : UnpackedFloat} (hu : (pack u).unpack = u) (hFinite : u.isFinite = true)
      (hOf : Binary64.ofUnpacked u = .finite (Binary64.isNegative s) m (k - 1074)) :
      ∃ x : Float, x.isFinite = true ∧
        Binary64.ofFloat x = .finite (Binary64.isNegative s) m (k - 1074) := by
    refine ⟨Float.ofModel (pack u), ?_, ?_⟩
    · change (pack u).unpack.isFinite = true
      rw [hu, hFinite]
    · rw [Binary64.ofFloat_eq]
      change Binary64.ofUnpacked (pack u).unpack = _
      rw [hu, hOf]
  rcases Nat.eq_zero_or_pos m with rfl | hPos
  · obtain rfl : k = 0 := h.full.resolve_left (by omega)
    exact hPacked (unpack_pack_zero s) rfl rfl
  · exact hPacked (unpack_pack_of_le s hPos h.short h.full h.bounded) rfl rfl

def least : ℚ :=
  2 ^ (-1074 : Int)

theorem least_pos : 0 < least := by
  unfold least
  positivity

variable {x y : Float} {negative : Bool} {m k m' k' : Nat}

theorem value_eq (hx : Binary64.ofFloat x = .finite negative m (k - 1074)) :
    value x = signed negative ((m * 2 ^ k : Nat) * least) := by
  have hExponent : (m : ℚ) * 2 ^ ((k : Int) - 1074) = (m * 2 ^ k : Nat) * least := by
    rw [sub_eq_add_neg, zpow_add₀ (by norm_num), zpow_natCast, ← mul_assoc, Nat.cast_mul,
      Nat.cast_pow, Nat.cast_ofNat, least]
  rw [value, hx, Binary64.value, hExponent]

theorem value_of_nonneg (hx : Binary64.ofFloat x = .finite negative m (k - 1074))
    (h : 0 ≤ value x) : value x = (m * 2 ^ k : Nat) * least := by
  rw [value_eq hx] at h ⊢
  exact signed_of_nonneg (mul_nonneg (Nat.cast_nonneg _) least_pos.le) h

theorem value_zero : value 0 = 0 := by
  rw [value, Binary64.ofFloat_zero]
  simp [Binary64.value, signed]

theorem value_neg_zero : value (-0) = 0 := by
  rw [value, Binary64.ofFloat_neg_zero]
  simp [Binary64.value, signed]

theorem mul_two_pow_add (n k i : Nat) : n * 2 ^ (k + i) = n * 2 ^ i * 2 ^ k := by
  rw [Nat.mul_assoc, ← Nat.pow_add, Nat.add_comm i]

/-! ## Neighbours -/

theorem Canonical.unique (h : Canonical m k) (h' : Canonical m' k')
    (hEq : m * 2 ^ k = m' * 2 ^ k') : m = m' ∧ k = k' := by
  have hExcess := excess_mul_two_pow_of_lt h.short h.full
  rw [hEq, excess_mul_two_pow_of_lt h'.short h'.full] at hExcess
  subst hExcess
  exact ⟨Nat.eq_of_mul_eq_mul_right (Nat.two_pow_pos _) hEq, rfl⟩

theorem Canonical.next_le (h : Canonical m k) (h' : Canonical m' k')
    (hLt : m * 2 ^ k < m' * 2 ^ k') : (m + 1) * 2 ^ k ≤ m' * 2 ^ k' := by
  rcases Nat.lt_or_ge k' k with hLess | hMore
  · -- A smaller exponent belongs to smaller numbers.
    have hFull := h.full.resolve_right (by omega)
    have hUpper : m' * 2 ^ k' < m * 2 ^ k := by
      calc
        m' * 2 ^ k' < 2 ^ 53 * 2 ^ k' := Nat.mul_lt_mul_of_pos_right h'.short (Nat.two_pow_pos k')
        _ = 2 ^ 52 * 2 ^ (k' + 1) := by rw [Nat.pow_succ 2 k']; ring
        _ ≤ m * 2 ^ k := Nat.mul_le_mul hFull (Nat.pow_le_pow_right (by omega) hLess)
    omega
  · obtain ⟨i, rfl⟩ := Nat.exists_eq_add_of_le hMore
    rw [mul_two_pow_add] at hLt ⊢
    exact Nat.mul_le_mul_right _ (Nat.lt_of_mul_lt_mul_right hLt)

/-- The number half way to a greater double lies beyond the interval or at its end. -/
theorem Canonical.upper_le (h : Canonical m k) (h' : Canonical m' k')
    (hLt : m * 2 ^ k < m' * 2 ^ k') :
    (RoundingInterval.ofSignificand m (k - 1074)).upper * 2 ^ k ≤
      2 * (m * 2 ^ k + m' * 2 ^ k') := by
  have hNext := h.next_le h' hLt
  have hUpper : (RoundingInterval.ofSignificand m (k - 1074)).upper * 2 ^ k =
      2 * (m * 2 ^ k + (m + 1) * 2 ^ k) := by
    unfold RoundingInterval.ofSignificand
    ring
  omega

theorem Canonical.exists_upper (h : Canonical m k) :
    (∃ m' k', Canonical m' k' ∧ m * 2 ^ k < m' * 2 ^ k' ∧
      2 * (m * 2 ^ k + m' * 2 ^ k') =
        (RoundingInterval.ofSignificand m (k - 1074)).upper * 2 ^ k) ∨
      m = 2 ^ 53 - 1 ∧ k = maxExcess := by
  have hLt : m * 2 ^ k < (m + 1) * 2 ^ k :=
    Nat.mul_lt_mul_of_pos_right (Nat.lt_succ_self m) (Nat.two_pow_pos k)
  have hUpper : 2 * (m * 2 ^ k + (m + 1) * 2 ^ k) =
      (RoundingInterval.ofSignificand m (k - 1074)).upper * 2 ^ k := by
    unfold RoundingInterval.ofSignificand
    ring
  have hFull := h.full
  rcases Nat.lt_or_eq_of_le (Nat.succ_le_of_lt h.short) with hShort | hCarry
  · exact .inl ⟨m + 1, k, ⟨hShort, by omega, h.bounded⟩, hLt, hUpper⟩
  · rcases Nat.lt_or_eq_of_le h.bounded with hBounded | hLast
    · have hSame : 2 ^ 52 * 2 ^ (k + 1) = (m + 1) * 2 ^ k := by
        rw [show m + 1 = 2 ^ 53 from hCarry, Nat.pow_succ 2 k]
        ring
      refine .inl ⟨2 ^ 52, k + 1, ⟨by omega, .inl (Nat.le_refl _), hBounded⟩, ?_⟩
      rw [hSame]
      exact ⟨hLt, hUpper⟩
    · exact .inr ⟨by omega, hLast⟩

theorem lower_ofSignificand :
    (RoundingInterval.ofSignificand m (k - 1074)).lower =
      if m = 2 ^ 52 ∧ 0 < k then 4 * m - 1 else 4 * m - 2 := by
  have hStart : Binary64.isBinadeStart m (k - 1074) = true ↔ m = 2 ^ 52 ∧ 0 < k := by
    unfold Binary64.isBinadeStart Binary64.leastFull
    simp
  unfold RoundingInterval.ofSignificand
  simp only [hStart]
  split <;> rfl

/-- The number half way to a lesser double lies below the interval or at its end. -/
theorem Canonical.le_lower (h : Canonical m k) (h' : Canonical m' k')
    (hLt : m' * 2 ^ k' < m * 2 ^ k) :
    2 * (m' * 2 ^ k' + m * 2 ^ k) ≤
      (RoundingInterval.ofSignificand m (k - 1074)).lower * 2 ^ k := by
  obtain ⟨c, hDouble, hc⟩ : ∃ c, 2 * (m' * 2 ^ k') ≤ c * 2 ^ k ∧
      c + 2 * m ≤ (RoundingInterval.ofSignificand m (k - 1074)).lower := by
    rw [lower_ofSignificand]
    have hShort := h'.short
    rcases Nat.lt_or_ge k' k with hLess | hMore
    · -- The lesser double lies in a lower binade, so it may be half a step nearer.
      have hFull := h.full.resolve_right (by omega)
      refine ⟨2 ^ 53 - 1, ?_, by split <;> omega⟩
      calc
        2 * (m' * 2 ^ k') = m' * 2 ^ (k' + 1) := by rw [Nat.pow_succ]; ring
        _ ≤ (2 ^ 53 - 1) * 2 ^ k :=
          Nat.mul_le_mul (by omega) (Nat.pow_le_pow_right (by omega) hLess)
    · obtain ⟨i, rfl⟩ := Nat.exists_eq_add_of_le hMore
      rw [mul_two_pow_add] at hLt ⊢
      have hFactor := Nat.lt_of_mul_lt_mul_right hLt
      exact ⟨2 * (m' * 2 ^ i), (Nat.mul_assoc 2 _ _).ge, by split <;> omega⟩
  calc
    2 * (m' * 2 ^ k' + m * 2 ^ k) = 2 * (m' * 2 ^ k') + 2 * m * 2 ^ k := by ring
    _ ≤ (c + 2 * m) * 2 ^ k := by
      rw [Nat.add_mul]
      exact Nat.add_le_add_right hDouble _
    _ ≤ _ := Nat.mul_le_mul_right _ hc

theorem Canonical.exists_lower (h : Canonical m k) (hPos : 0 < m) :
    ∃ m' k', Canonical m' k' ∧ m' * 2 ^ k' < m * 2 ^ k ∧
      2 * (m' * 2 ^ k' + m * 2 ^ k) =
        (RoundingInterval.ofSignificand m (k - 1074)).lower * 2 ^ k := by
  have hShort := h.short
  have hFull := h.full
  have hBounded := h.bounded
  rw [lower_ofSignificand]
  split
  · rename_i hStart
    obtain ⟨rfl, hk⟩ := hStart
    obtain ⟨i, rfl⟩ := Nat.exists_eq_add_one.mpr hk
    have hStep : 2 ^ 52 * 2 ^ (i + 1) = 2 ^ 53 * 2 ^ i := by rw [Nat.pow_succ 2 i]; ring
    refine ⟨2 ^ 53 - 1, i, ⟨by omega, .inl (by omega), by omega⟩, ?_, ?_⟩
    · rw [hStep]
      exact Nat.mul_lt_mul_of_pos_right (by omega) (Nat.two_pow_pos i)
    · rw [Nat.pow_succ 2 i]
      omega
  · rename_i hOther
    refine ⟨m - 1, k, ⟨by omega, by omega, hBounded⟩,
      Nat.mul_lt_mul_of_pos_right (by omega) (Nat.two_pow_pos k), ?_⟩
    rw [← Nat.add_mul, ← Nat.mul_assoc]
    congr 1
    omega

/-! ## Rounding intervals -/

section

variable {a b q : ℚ}

theorem abs_sub_le_abs_sub_left_iff (h : a < b) : |q - b| ≤ |q - a| ↔ a + b ≤ 2 * q := by
  rw [← sq_le_sq]
  constructor <;> intro hLe <;> nlinarith

theorem abs_sub_le_abs_sub_right_iff (h : a < b) : |q - a| ≤ |q - b| ↔ 2 * q ≤ a + b := by
  rw [← sq_le_sq]
  constructor <;> intro hLe <;> nlinarith

theorem abs_sub_eq_abs_sub_iff (h : a ≠ b) : |q - a| = |q - b| ↔ 2 * q = a + b := by
  rcases lt_or_gt_of_ne h with hLt | hGt
  · rw [le_antisymm_iff, abs_sub_le_abs_sub_left_iff hLt, abs_sub_le_abs_sub_right_iff hLt,
      le_antisymm_iff]
  · rw [le_antisymm_iff, abs_sub_le_abs_sub_left_iff hGt, abs_sub_le_abs_sub_right_iff hGt,
      le_antisymm_iff, and_comm, add_comm]

end

theorem exists_opposite (h : y.isFinite = true) :
    ∃ z : Float, z.isFinite = true ∧ value z = -value y ∧
      ((Binary64.ofFloat z).IsEven ↔ (Binary64.ofFloat y).IsEven) := by
  obtain ⟨negative, m, k, hCanonical, hy⟩ := exists_canonical h
  obtain ⟨z, hFinite, hz⟩ := exists_float (!negative) hCanonical
  refine ⟨z, hFinite, ?_, by rw [hz, hy]; rfl⟩
  rw [value_eq hz, value_eq hy, signed_not]

theorem IsNearest.opposite {q : ℚ} (h : IsNearest q x) (hFinite : y.isFinite = true)
    (hValue : value y = -value x)
    (hEven : (Binary64.ofFloat x).IsEven → (Binary64.ofFloat y).IsEven) : IsNearest (-q) y := by
  have hDistance (z z' : Float) (hz : value z' = -value z) :
      |-q - value z| = |q - value z'| := by
    rw [hz, ← abs_neg]
    congr 1
    ring
  have hx : value x = -value y := by rw [hValue, neg_neg]
  refine ⟨hFinite, by rw [abs_neg]; exact h.small, fun z hz => ?_, fun z hz hNe hEq => ?_⟩
  · obtain ⟨z', hz', hOpposite, -⟩ := exists_opposite hz
    rw [hDistance y x hx, hDistance z z' hOpposite]
    exact h.nearest z' hz'
  · obtain ⟨z', hz', hOpposite, -⟩ := exists_opposite hz
    rw [hDistance y x hx, hDistance z z' hOpposite] at hEq
    refine hEven (h.even z' hz' (fun hSame => hNe ?_) hEq)
    rw [hOpposite, hx] at hSame
    exact neg_injective hSame

/-- A quarter of the last place of a significand with this exponent. -/
def quarter (k : Nat) : ℚ :=
  2 ^ ((k : Int) - 1074 - 2)

theorem quarter_pos (k : Nat) : 0 < quarter k := by
  unfold quarter
  positivity

theorem four_mul_quarter (k : Nat) : 4 * quarter k = 2 ^ k * least := by
  have hTwo : (2 : ℚ) ≠ 0 := by norm_num
  have hFour : (4 : ℚ) = 2 ^ (2 : Int) := by norm_num
  rw [hFour, quarter, ← zpow_add₀ hTwo, least, ← zpow_natCast, ← zpow_add₀ hTwo]
  congr 1
  ring

theorem two_mul_mul_quarter (c k : Nat) :
    2 * (c * quarter k) = ((c * 2 ^ k : Nat) : ℚ) / 2 * least := by
  have hQuarter := four_mul_quarter k
  rw [Nat.cast_mul, Nat.cast_pow, Nat.cast_ofNat]
  linear_combination (c / 2 : ℚ) * hQuarter

theorem mul_least_le_iff {n c k : Nat} :
    n * least ≤ 2 * (c * quarter k) ↔ 2 * n ≤ c * 2 ^ k := by
  rw [two_mul_mul_quarter, mul_le_mul_iff_left₀ least_pos, le_div_iff₀ (by norm_num), mul_comm]
  norm_cast

theorem le_mul_least_iff {n c k : Nat} :
    2 * (c * quarter k) ≤ n * least ↔ c * 2 ^ k ≤ 2 * n := by
  rw [two_mul_mul_quarter, mul_le_mul_iff_left₀ least_pos, div_le_iff₀ (by norm_num),
    mul_comm (n : ℚ)]
  norm_cast

theorem value_eq_of_false (hx : Binary64.ofFloat x = .finite false m (k - 1074)) :
    value x = (m * 2 ^ k : Nat) * least :=
  value_eq hx

theorem value_nonpos (hx : Binary64.ofFloat x = .finite true m (k - 1074)) : value x ≤ 0 := by
  rw [value_eq hx]
  exact neg_nonpos.mpr (mul_nonneg (Nat.cast_nonneg _) least_pos.le)

theorem value_lt_iff (hx : Binary64.ofFloat x = .finite false m (k - 1074))
    (hy : Binary64.ofFloat y = .finite false m' (k' - 1074)) :
    value x < value y ↔ m * 2 ^ k < m' * 2 ^ k' := by
  rw [value_eq_of_false hx, value_eq_of_false hy, mul_lt_mul_iff_left₀ least_pos, Nat.cast_lt]

theorem overflow_eq : overflow = (4 * (2 ^ 53 - 1) + 2 : Nat) * quarter maxExcess := by
  have hQuarter : quarter maxExcess = 2 ^ 969 := by
    rw [quarter, maxExcess, ← zpow_natCast]
    rfl
  rw [hQuarter, overflow, pow_succ (2 : ℚ) 969]
  generalize (2 : ℚ) ^ 969 = c
  norm_num
  ring

theorem quarter_le (h : k ≤ maxExcess) : quarter k ≤ quarter maxExcess :=
  zpow_le_zpow_right₀ (by norm_num) (by omega)

/-- No interval goes beyond the numbers that round to a finite double. -/
theorem Canonical.upper_mul_quarter_le (h : Canonical m k) :
    (RoundingInterval.ofSignificand m (k - 1074)).upper * quarter k ≤ overflow ∧
      (m % 2 = 0 →
        (RoundingInterval.ofSignificand m (k - 1074)).upper * quarter k < overflow) := by
  have hShort := h.short
  have hTop := quarter_le h.bounded
  have hUpper : (RoundingInterval.ofSignificand m (k - 1074)).upper = 4 * m + 2 := rfl
  have hScale {c : Nat} (hc : 4 * m + 2 ≤ c) :
      ((4 * m + 2 : Nat) : ℚ) * quarter k ≤ c * quarter maxExcess :=
    mul_le_mul (by exact_mod_cast hc) hTop (quarter_pos k).le (Nat.cast_nonneg c)
  rw [overflow_eq, hUpper]
  refine ⟨hScale (by omega), fun hEven => ?_⟩
  refine (hScale (c := 4 * (2 ^ 53 - 1)) (by omega)).trans_lt ?_
  exact mul_lt_mul_of_pos_right (by norm_num) (quarter_pos maxExcess)

section

variable (hx : Binary64.ofFloat x = .finite false m (k - 1074)) (h : Canonical m k)

include hx h

/-- The number half way to a lesser double is no greater than the interval's lower end. -/
theorem value_add_value_le (hPos : 0 < m) (hFinite : y.isFinite = true)
    (hLt : value y < value x) :
    value y + value x ≤ 2 * ((RoundingInterval.ofSignificand m (k - 1074)).lower * quarter k) := by
  obtain ⟨negative, m', k', h', hy⟩ := exists_canonical hFinite
  cases negative with
  | false =>
      rw [value_eq_of_false hx, value_eq_of_false hy, ← add_mul, ← Nat.cast_add, mul_least_le_iff]
      exact h.le_lower h' ((value_lt_iff hy hx).mp hLt)
  | true =>
      -- No negative double is nearer than zero.
      have hHalf := h.le_lower .zero (by simpa using hPos)
      rw [Nat.zero_mul, Nat.zero_add] at hHalf
      calc
        value y + value x ≤ value x := add_le_of_nonpos_left (value_nonpos hy)
        _ ≤ _ := by rwa [value_eq_of_false hx, mul_least_le_iff]

/-- The number half way to a greater double is no less than the interval's upper end. -/
theorem le_value_add_value (hFinite : y.isFinite = true) (hLt : value x < value y) :
    2 * ((RoundingInterval.ofSignificand m (k - 1074)).upper * quarter k) ≤
      value x + value y := by
  obtain ⟨negative, m', k', h', hy⟩ := exists_canonical hFinite
  cases negative with
  | false =>
      rw [value_eq_of_false hx, value_eq_of_false hy, ← add_mul, ← Nat.cast_add, le_mul_least_iff]
      exact h.upper_le h' ((value_lt_iff hx hy).mp hLt)
  | true =>
      have hNonneg : 0 ≤ value x := by
        rw [value_eq_of_false hx]
        exact mul_nonneg (Nat.cast_nonneg _) least_pos.le
      exact absurd (hLt.trans_le (value_nonpos hy)) (not_lt.mpr hNonneg)

theorem exists_value_add_value_eq_lower (hPos : 0 < m) :
    ∃ z : Float, z.isFinite = true ∧ value z < value x ∧ value z + value x =
      2 * ((RoundingInterval.ofSignificand m (k - 1074)).lower * quarter k) := by
  obtain ⟨m', k', h', hLt, hEq⟩ := h.exists_lower hPos
  obtain ⟨z, hFinite, hz⟩ := exists_float false h'
  refine ⟨z, hFinite, (value_lt_iff hz hx).mpr hLt, ?_⟩
  rw [value_eq_of_false hx, value_eq_of_false hz, ← add_mul, ← Nat.cast_add]
  exact le_antisymm (mul_least_le_iff.mpr hEq.le) (le_mul_least_iff.mpr hEq.ge)

theorem exists_value_add_value_eq_upper :
    (∃ z : Float, z.isFinite = true ∧ value x < value z ∧ value x + value z =
      2 * ((RoundingInterval.ofSignificand m (k - 1074)).upper * quarter k)) ∨
      (RoundingInterval.ofSignificand m (k - 1074)).upper * quarter k = overflow := by
  rcases h.exists_upper with ⟨m', k', h', hLt, hEq⟩ | ⟨rfl, rfl⟩
  · obtain ⟨z, hFinite, hz⟩ := exists_float false h'
    refine .inl ⟨z, hFinite, (value_lt_iff hx hz).mpr hLt, ?_⟩
    rw [value_eq_of_false hx, value_eq_of_false hz, ← add_mul, ← Nat.cast_add]
    exact le_antisymm (mul_least_le_iff.mpr hEq.le) (le_mul_least_iff.mpr hEq.ge)
  · exact .inr overflow_eq.symm

end

/-- The numbers half way between a positive double and those next to it. What follows the greatest
double is infinity. -/
structure HalfwayPoints (x : Float) (lower upper : ℚ) : Prop where
  positive : 0 < lower
  below : ∀ y : Float, y.isFinite = true → value y < value x → value y + value x ≤ 2 * lower
  above : ∀ y : Float, y.isFinite = true → value x < value y → 2 * upper ≤ value x + value y
  exists_below : ∃ y : Float, y.isFinite = true ∧ value y < value x ∧
    value y + value x = 2 * lower
  exists_above : (∃ y : Float, y.isFinite = true ∧ value x < value y ∧
    value x + value y = 2 * upper) ∨ upper = overflow
  upper_le : upper ≤ overflow
  upper_lt : (Binary64.ofFloat x).IsEven → upper < overflow

theorem halfwayPoints (hx : Binary64.ofFloat x = .finite false m (k - 1074)) (h : Canonical m k)
    (hPos : 0 < m) :
    HalfwayPoints x ((RoundingInterval.ofSignificand m (k - 1074)).lower * quarter k)
      ((RoundingInterval.ofSignificand m (k - 1074)).upper * quarter k) where
  positive :=
    mul_pos (by exact_mod_cast (RoundingInterval.proper_ofSignificand hPos _).lower_pos)
      (quarter_pos k)
  below _ hFinite hLt := value_add_value_le hx h hPos hFinite hLt
  above _ hFinite hLt := le_value_add_value hx h hFinite hLt
  exists_below := exists_value_add_value_eq_lower hx h hPos
  exists_above := exists_value_add_value_eq_upper hx h
  upper_le := h.upper_mul_quarter_le.1
  upper_lt hEven := by
    rw [hx] at hEven
    exact h.upper_mul_quarter_le.2 hEven

namespace HalfwayPoints

variable {lower upper q : ℚ} (h : HalfwayPoints x lower upper)

include h

theorem lower_le (hq : IsNearest q x) :
    lower ≤ q ∧ (¬ (Binary64.ofFloat x).IsEven → lower < q) := by
  obtain ⟨y, hy, hLt, hEq⟩ := h.exists_below
  have hLe : lower ≤ q := by
    have hHalf := (abs_sub_le_abs_sub_left_iff hLt).mp (hq.nearest y hy)
    linarith
  refine ⟨hLe, fun hOdd => lt_of_le_of_ne hLe fun hTie => hOdd ?_⟩
  refine hq.even y hy hLt.ne ((abs_sub_eq_abs_sub_iff hLt.ne).mpr ?_)
  linarith

theorem le_upper (hq : IsNearest q x) :
    q ≤ upper ∧ (¬ (Binary64.ofFloat x).IsEven → q < upper) := by
  rcases h.exists_above with ⟨y, hy, hLt, hEq⟩ | hOverflow
  · have hLe : q ≤ upper := by
      have hHalf := (abs_sub_le_abs_sub_right_iff hLt).mp (hq.nearest y hy)
      linarith
    refine ⟨hLe, fun hOdd => lt_of_le_of_ne hLe fun hTie => hOdd ?_⟩
    refine hq.even y hy hLt.ne' ((abs_sub_eq_abs_sub_iff hLt.ne').mpr ?_)
    linarith
  · have hLt : q < upper := by
      rw [hOverflow]
      exact (le_abs_self q).trans_lt hq.small
    exact ⟨hLt.le, fun _ => hLt⟩

theorem isNearest (hFinite : x.isFinite = true) (hLower : lower ≤ q) (hUpper : q ≤ upper)
    (hInside : ¬ (Binary64.ofFloat x).IsEven → lower < q ∧ q < upper) : IsNearest q x where
  finite := hFinite
  small := by
    rw [abs_of_pos (h.positive.trans_le hLower)]
    by_cases hEven : (Binary64.ofFloat x).IsEven
    · exact hUpper.trans_lt (h.upper_lt hEven)
    · exact (hInside hEven).2.trans_le h.upper_le
  nearest y hy := by
    rcases lt_trichotomy (value y) (value x) with hLt | hSame | hGt
    · rw [abs_sub_le_abs_sub_left_iff hLt]
      linarith [h.below y hy hLt]
    · rw [hSame]
    · rw [abs_sub_le_abs_sub_right_iff hGt]
      linarith [h.above y hy hGt]
  even y hy hNe hEq := by
    rw [abs_sub_eq_abs_sub_iff hNe] at hEq
    by_contra hOdd
    obtain ⟨hLowerLt, hUpperLt⟩ := hInside hOdd
    rcases lt_or_gt_of_ne hNe with hLt | hGt
    · linarith [h.below y hy hLt]
    · linarith [h.above y hy hGt]

end HalfwayPoints

theorem admits_div_iff {r : RoundingInterval} {q w : ℚ} (hw : 0 < w) :
    r.Admits (q / w) ↔ r.lower * w ≤ q ∧ q ≤ r.upper * w ∧
      (r.closed = false → r.lower * w < q ∧ q < r.upper * w) := by
  rw [← le_div_iff₀ hw, ← div_le_iff₀ hw, ← lt_div_iff₀ hw, ← div_lt_iff₀ hw]
  exact ⟨fun h => ⟨h.lower_le, h.le_upper, h.inside⟩, fun h => ⟨h.1, h.2.1, h.2.2⟩⟩

/-- The numbers that round to a positive double are those in its rounding interval. -/
theorem isNearest_iff_admits (hFinite : x.isFinite = true) (h : Canonical m k)
    (hx : Binary64.ofFloat x = .finite false m (k - 1074)) (hPos : 0 < m) {q : ℚ} :
    IsNearest q x ↔ (RoundingInterval.ofSignificand m (k - 1074)).Admits (q / quarter k) := by
  have hPoints := halfwayPoints hx h hPos
  have hClosed : (RoundingInterval.ofSignificand m (k - 1074)).closed = false ↔
      ¬ (Binary64.ofFloat x).IsEven := by
    rw [hx]
    simp [RoundingInterval.ofSignificand, Binary64.IsEven]
  rw [admits_div_iff (quarter_pos k), hClosed]
  constructor
  · intro hq
    obtain ⟨hLower, hLowerOdd⟩ := hPoints.lower_le hq
    obtain ⟨hUpper, hUpperOdd⟩ := hPoints.le_upper hq
    exact ⟨hLower, hUpper, fun hOdd => ⟨hLowerOdd hOdd, hUpperOdd hOdd⟩⟩
  · rintro ⟨hLower, hUpper, hInside⟩
    exact hPoints.isNearest hFinite hLower hUpper hInside

/-! ## One double for each number -/

theorem Canonical.exists_between (h : Canonical m k) (h' : Canonical m' k') (hEven : m % 2 = 0)
    (hEven' : m' % 2 = 0) (hLt : m * 2 ^ k < m' * 2 ^ k') :
    ∃ z : Float, z.isFinite = true ∧ (m * 2 ^ k : Nat) * least < value z ∧
      value z < (m' * 2 ^ k' : Nat) * least := by
  have hShort := h.short
  have hFull := h.full
  have hNext : Canonical (m + 1) k := ⟨by omega, by omega, h.bounded⟩
  have hStep : m * 2 ^ k < (m + 1) * 2 ^ k :=
    Nat.mul_lt_mul_of_pos_right (Nat.lt_succ_self m) (Nat.two_pow_pos k)
  have hBefore : (m + 1) * 2 ^ k < m' * 2 ^ k' := by
    refine Nat.lt_of_le_of_ne (h.next_le h' hLt) fun hEq => ?_
    have hSame := (hNext.unique h' hEq).1
    omega
  obtain ⟨z, hFinite, hz⟩ := exists_float false hNext
  refine ⟨z, hFinite, ?_⟩
  rw [value_eq_of_false hz, mul_lt_mul_iff_left₀ least_pos, mul_lt_mul_iff_left₀ least_pos,
    Nat.cast_lt, Nat.cast_lt]
  exact ⟨hStep, hBefore⟩

theorem exists_value_between_of_nonneg (hx : x.isFinite = true) (hy : y.isFinite = true)
    (hEven : (Binary64.ofFloat x).IsEven) (hEven' : (Binary64.ofFloat y).IsEven)
    (hNonneg : 0 ≤ value x) (hLt : value x < value y) :
    ∃ z : Float, z.isFinite = true ∧ value x < value z ∧ value z < value y := by
  obtain ⟨negative, m, k, h, hOf⟩ := exists_canonical hx
  obtain ⟨negative', m', k', h', hOf'⟩ := exists_canonical hy
  rw [hOf] at hEven
  rw [hOf'] at hEven'
  have hNonneg' := hNonneg.trans hLt.le
  rw [value_of_nonneg hOf hNonneg, value_of_nonneg hOf' hNonneg'] at hLt ⊢
  exact h.exists_between h' hEven hEven'
    (by exact_mod_cast lt_of_mul_lt_mul_right hLt least_pos.le)

theorem exists_value_between (hx : x.isFinite = true) (hy : y.isFinite = true)
    (hEven : (Binary64.ofFloat x).IsEven) (hEven' : (Binary64.ofFloat y).IsEven)
    (hLt : value x < value y) :
    ∃ z : Float, z.isFinite = true ∧ value x < value z ∧ value z < value y := by
  rcases le_or_gt 0 (value x) with hNonneg | hNegative
  · exact exists_value_between_of_nonneg hx hy hEven hEven' hNonneg hLt
  · rcases le_or_gt (value y) 0 with hNonpos | hPositive
    · -- Their opposites are not negative.
      obtain ⟨x', hx', hOppositeX, hEvenX⟩ := exists_opposite hx
      obtain ⟨y', hy', hOppositeY, hEvenY⟩ := exists_opposite hy
      obtain ⟨z, hz, hLow, hHigh⟩ := exists_value_between_of_nonneg hy' hx' (hEvenY.mpr hEven')
        (hEvenX.mpr hEven) (by linarith) (by linarith)
      obtain ⟨z', hz', hOpposite, -⟩ := exists_opposite hz
      exact ⟨z', hz', by linarith, by linarith⟩
    · exact ⟨0, by decide, by rwa [value_zero], by rwa [value_zero]⟩

theorem IsNearest.value_not_lt {q : ℚ} (hx : IsNearest q x) (hy : IsNearest q y) :
    ¬ value x < value y := by
  intro hLt
  have hEqual : |q - value y| = |q - value x| :=
    le_antisymm (hy.nearest x hx.finite) (hx.nearest y hy.finite)
  obtain ⟨z, hz, hLow, hHigh⟩ := exists_value_between hx.finite hy.finite
    (hx.even y hy.finite hLt.ne' hEqual) (hy.even x hx.finite hLt.ne hEqual.symm) hLt
  -- Half way between the two, what lies between them is nearer.
  have hMiddle := (abs_sub_eq_abs_sub_iff hLt.ne').mp hEqual
  have hNear := (abs_sub_le_abs_sub_right_iff hLow).mp (hx.nearest z hz)
  linarith

theorem IsNearest.value_unique {q : ℚ} (hx : IsNearest q x) (hy : IsNearest q y) :
    value x = value y :=
  le_antisymm (not_lt.mp (hy.value_not_lt hx)) (not_lt.mp (hx.value_not_lt hy))

theorem eq_of_ofFloat_zero (hx : Binary64.ofFloat x = .finite negative 0 (-1074)) :
    x = if negative then -0 else 0 := by
  cases negative with
  | false => exact Binary64.ofFloat_inj.mp (hx.trans Binary64.ofFloat_zero.symm)
  | true => exact Binary64.ofFloat_inj.mp (hx.trans Binary64.ofFloat_neg_zero.symm)

/-- Doubles that stand for one number are equal, though both zeros are doubles. -/
theorem beq_of_value_eq (hx : x.isFinite = true) (hy : y.isFinite = true)
    (h : value x = value y) : (x == y) = true := by
  obtain ⟨negative, m, k, hCanonical, hOf⟩ := exists_canonical hx
  obtain ⟨negative', m', k', hCanonical', hOf'⟩ := exists_canonical hy
  rw [value_eq hOf, value_eq hOf'] at h
  have hCount : m * 2 ^ k = m' * 2 ^ k' := by
    have hAbs := congrArg (|·|) h
    simp only [abs_signed, abs_mul, Nat.abs_cast] at hAbs
    exact_mod_cast mul_right_cancel₀ (abs_pos.mpr least_pos.ne').ne' hAbs
  obtain ⟨rfl, rfl⟩ := hCanonical.unique hCanonical' hCount
  rcases Nat.eq_zero_or_pos m with rfl | hPos
  · obtain rfl : k = 0 := hCanonical.full.resolve_left (by omega)
    rw [eq_of_ofFloat_zero hOf, eq_of_ofFloat_zero hOf']
    cases negative <;> cases negative' <;> decide
  · have hMagnitude : 0 < ((m * 2 ^ k : Nat) : ℚ) * least :=
      mul_pos (by exact_mod_cast Nat.mul_pos hPos (Nat.two_pow_pos k)) least_pos
    rw [signed_left_inj hMagnitude] at h
    obtain rfl : x = y := Binary64.ofFloat_inj.mp (by rw [hOf, hOf', h])
    rw [Float.beq_self_iff]
    rintro rfl
    cases hx

end Double

end Diaporama
