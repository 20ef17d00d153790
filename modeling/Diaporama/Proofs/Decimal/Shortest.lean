import Mathlib
import Diaporama.Decimal.Shortest

/-!
# The fewest digits suffice

The decimals of few digits near a double are the points of a grid. A rounding interval is convex and
has the double inside it, so a grid that meets the interval meets it next to the double. A decimal
off the grid has fewer digits than the grid allows, and then a power of ten on the grid lies between
it and the double. So the first grid with a hit gives the fewest digits of all decimals in the
interval, and the seventeenth grid always has one.
-/

namespace Diaporama

/-! ## Intervals -/

namespace RoundingInterval

variable {r : RoundingInterval} {v w : ℚ}

structure Admits (r : RoundingInterval) (v : ℚ) : Prop where
  lower_le : r.lower ≤ v
  le_upper : v ≤ r.upper
  inside : r.closed = false → r.lower < v ∧ v < r.upper

/-- The centre lies inside the interval, which has only positive numbers. -/
structure Proper (r : RoundingInterval) : Prop where
  lower_pos : 0 < r.lower
  lower_lt : r.lower < r.centre
  lt_upper : r.centre < r.upper

theorem proper_ofSignificand {m : Nat} (hm : 0 < m) (e : Int) : (ofSignificand m e).Proper := by
  refine ⟨?_, ?_, ?_⟩ <;> unfold ofSignificand <;> dsimp only <;> try split
  all_goals omega

theorem admits_iff_admits {a b : Nat} (hb : 0 < b) : r.admits a b = true ↔ r.Admits (a / b) := by
  have hb : (0 : ℚ) < b := by exact_mod_cast hb
  have hLower : (r.lower : ℚ) ≤ a / b ↔ r.lower * b ≤ a := by rw [le_div_iff₀ hb]; norm_cast
  have hUpper : (a / b : ℚ) ≤ r.upper ↔ a ≤ r.upper * b := by rw [div_le_iff₀ hb]; norm_cast
  have hLower' : (r.lower : ℚ) < a / b ↔ r.lower * b < a := by rw [lt_div_iff₀ hb]; norm_cast
  have hUpper' : (a / b : ℚ) < r.upper ↔ a < r.upper * b := by rw [div_lt_iff₀ hb]; norm_cast
  rw [admits_iff]
  cases hClosed : r.closed with
  | true =>
      rw [if_pos rfl, ← hLower, ← hUpper]
      exact ⟨fun h => ⟨h.1, h.2, by simp [hClosed]⟩, fun h => ⟨h.lower_le, h.le_upper⟩⟩
  | false =>
      rw [if_neg Bool.false_ne_true, ← hLower', ← hUpper']
      exact ⟨fun h => ⟨h.1.le, h.2.le, fun _ => h⟩, fun h => h.inside hClosed⟩

theorem Admits.pos (h : r.Admits v) (hr : r.Proper) : 0 < v :=
  lt_of_lt_of_le (by exact_mod_cast hr.lower_pos) h.lower_le

theorem admits_of_lt_of_lt (hLower : r.lower < v) (hUpper : v < r.upper) : r.Admits v :=
  ⟨hLower.le, hUpper.le, fun _ => ⟨hLower, hUpper⟩⟩

theorem Admits.of_le_centre (h : r.Admits v) (hr : r.Proper) (hvw : v ≤ w) (hw : w ≤ r.centre) :
    r.Admits w := by
  have hUpper : (r.centre : ℚ) < r.upper := by exact_mod_cast hr.lt_upper
  have hBelow := hw.trans_lt hUpper
  exact ⟨h.lower_le.trans hvw, hBelow.le,
    fun hOpen => ⟨(h.inside hOpen).1.trans_le hvw, hBelow⟩⟩

theorem Admits.of_centre_le (h : r.Admits v) (hr : r.Proper) (hw : r.centre ≤ w) (hwv : w ≤ v) :
    r.Admits w := by
  have hLower : (r.lower : ℚ) < r.centre := by exact_mod_cast hr.lower_lt
  have hAbove := hLower.trans_le hw
  exact ⟨hAbove.le, hwv.trans h.le_upper,
    fun hOpen => ⟨hAbove, hwv.trans_lt (h.inside hOpen).2⟩⟩

end RoundingInterval

namespace Decimal

/-! ## Grids -/

namespace Grid

variable {g : Grid} {tie : Tie} {r : RoundingInterval}

def step (g : Grid) : ℚ :=
  g.stepNum / g.stepDen

/-- The number of the last grid point that is no greater than the centre. -/
def below (g : Grid) (r : RoundingInterval) : Nat :=
  r.centre * g.stepDen / g.stepNum

structure Positive (g : Grid) : Prop where
  num_pos : 0 < g.stepNum
  den_pos : 0 < g.stepDen

theorem Positive.step_pos (hg : g.Positive) : 0 < g.step :=
  div_pos (by exact_mod_cast hg.num_pos) (by exact_mod_cast hg.den_pos)

theorem admits_point_iff (hg : g.Positive) (d : Nat) :
    r.admits (d * g.stepNum) g.stepDen = true ↔ r.Admits (d * g.step) := by
  rw [RoundingInterval.admits_iff_admits hg.den_pos, step, Nat.cast_mul, mul_div_assoc]

theorem below_mul_step_le (hg : g.Positive) : g.below r * g.step ≤ r.centre := by
  have hDen : (0 : ℚ) < g.stepDen := by exact_mod_cast hg.den_pos
  have hNat : g.below r * g.stepNum ≤ r.centre * g.stepDen := Nat.div_mul_le_self _ _
  rw [step, ← mul_div_assoc, div_le_iff₀ hDen]
  exact_mod_cast hNat

theorem lt_below_add_one_mul_step (hg : g.Positive) :
    r.centre < (g.below r + 1 : Nat) * g.step := by
  have hDen : (0 : ℚ) < g.stepDen := by exact_mod_cast hg.den_pos
  have hNat : r.centre * g.stepDen < (g.below r + 1) * g.stepNum :=
    Nat.lt_mul_of_div_lt (Nat.lt_succ_self _) hg.num_pos
  rw [step, ← mul_div_assoc, lt_div_iff₀ hDen]
  exact_mod_cast hNat

theorem of_hit?_eq_some (hg : g.Positive) {d : Nat} (h : g.hit? tie r = some d) :
    r.Admits (d * g.step) ∧ d ≤ g.below r + 1 := by
  have hPoint (d : Nat) (hAdmits : r.admits (d * g.stepNum) g.stepDen = true)
      (hd : d ≤ g.below r + 1) : r.Admits (d * g.step) ∧ d ≤ g.below r + 1 :=
    ⟨(admits_point_iff hg d).mp hAdmits, hd⟩
  unfold hit? at h
  dsimp only at h
  split at h
  · cases h
  · rename_i hLow _
    exact Option.some_inj.mp h ▸ hPoint (g.below r) hLow (Nat.le_succ _)
  · rename_i _ hHigh
    exact Option.some_inj.mp h ▸ hPoint (g.below r + 1) hHigh (Nat.le_refl _)
  · rename_i hLow hHigh
    have hBoth : d = g.below r ∨ d = g.below r + 1 := by
      unfold below
      split_ifs at h <;> cases tie <;> cases h <;> simp
    rcases hBoth with rfl | rfl
    · exact hPoint _ hLow (Nat.le_succ _)
    · exact hPoint _ hHigh (Nat.le_refl _)

theorem of_hit?_eq_none (h : g.hit? tie r = none) :
    r.admits (g.below r * g.stepNum) g.stepDen = false ∧
      r.admits ((g.below r + 1) * g.stepNum) g.stepDen = false := by
  unfold hit? at h
  dsimp only at h
  split at h
  · rename_i hLow hHigh
    exact ⟨hLow, hHigh⟩
  · cases h
  · cases h
  · split_ifs at h <;> cases tie <;> cases h

theorem hit?_eq_none_iff (hg : g.Positive) (hr : r.Proper) :
    g.hit? tie r = none ↔ ∀ d : Nat, ¬ r.Admits (d * g.step) := by
  constructor
  · intro h d hd
    obtain ⟨hLow, hHigh⟩ := of_hit?_eq_none h
    rw [← Bool.not_eq_true, admits_point_iff hg] at hLow hHigh
    rcases Nat.lt_or_ge (g.below r) d with hAbove | hBelow
    · refine hHigh (hd.of_centre_le hr (lt_below_add_one_mul_step hg).le ?_)
      exact mul_le_mul_of_nonneg_right (by exact_mod_cast hAbove) hg.step_pos.le
    · refine hLow (hd.of_le_centre hr ?_ (below_mul_step_le hg))
      exact mul_le_mul_of_nonneg_right (by exact_mod_cast hBelow) hg.step_pos.le
  · intro h
    by_contra hSome
    obtain ⟨d, hd⟩ := Option.ne_none_iff_exists'.mp hSome
    exact h d (of_hit?_eq_some hg hd).1

end Grid

/-! ## Digits -/

theorem lt_pow_digitCount (n : Nat) : n < 10 ^ digitCount n := by
  fun_induction digitCount n with
  | case1 n h => simpa using h
  | case2 n h ih =>
      rw [Nat.pow_succ]
      omega

theorem pow_digitCount_le {n : Nat} (hn : 0 < n) : 10 ^ digitCount n ≤ 10 * n := by
  fun_induction digitCount n with
  | case1 n h => omega
  | case2 n h ih =>
      have hRest := ih (by omega)
      rw [Nat.pow_succ]
      omega

def value (d : Decimal) : ℚ :=
  d.digits * 10 ^ d.exponent

theorem value_normalize (d : Decimal) : (normalize d).value = d.value := by
  fun_induction normalize d with
  | case1 d h ih =>
      have hDigits : ((d.digits / 10 : Nat) : ℚ) * 10 = d.digits := by
        exact_mod_cast Nat.div_mul_cancel (Nat.dvd_of_mod_eq_zero h.2)
      rw [ih, value, value, ← hDigits, zpow_add_one₀ (by norm_num)]
      ring
  | case2 d h => rfl

theorem digits_normalize_mod {d : Decimal} (h : d.digits ≠ 0) : (normalize d).digits % 10 ≠ 0 := by
  fun_induction normalize d with
  | case1 d hZero ih => exact ih (by dsimp only; omega)
  | case2 d hZero => exact fun hMod => hZero ⟨h, hMod⟩

theorem exists_digits_normalize (d : Decimal) : ∃ j, (normalize d).digits * 10 ^ j = d.digits := by
  fun_induction normalize d with
  | case1 d h ih =>
      obtain ⟨j, hj⟩ := ih
      refine ⟨j + 1, ?_⟩
      rw [Nat.pow_succ, ← Nat.mul_assoc, hj]
      exact Nat.div_mul_cancel (Nat.dvd_of_mod_eq_zero h.2)
  | case2 d h => exact ⟨0, Nat.mul_one _⟩

theorem digits_normalize_lt {d : Decimal} {c : Nat} (h : d.digits ≠ 0) (hc : 0 < c)
    (hLe : d.digits ≤ 10 ^ c) : (normalize d).digits < 10 ^ c := by
  obtain ⟨j, hj⟩ := exists_digits_normalize d
  have hShort : (normalize d).digits ≤ 10 ^ c :=
    Nat.le_trans (Nat.le_mul_of_pos_right _ (Nat.pow_pos (by omega))) (hj ▸ hLe)
  refine Nat.lt_of_le_of_ne hShort fun hEq => digits_normalize_mod h ?_
  obtain ⟨c, rfl⟩ := Nat.exists_eq_add_one.mpr hc
  rw [hEq, Nat.pow_succ, Nat.mul_mod_left]

theorem digitCount_div_spec {a b : Nat} (hb : 0 < b) (h : b ≤ a) :
    10 ^ digitCount (a / b) * b ≤ a * 10 ∧ a < 10 ^ digitCount (a / b) * b := by
  constructor
  · calc
      10 ^ digitCount (a / b) * b ≤ 10 * (a / b) * b :=
        Nat.mul_le_mul_right b (pow_digitCount_le (Nat.div_pos h hb))
      _ = a / b * b * 10 := by ring
      _ ≤ a * 10 := Nat.mul_le_mul_right 10 (Nat.div_mul_le_self a b)
  · rw [← Nat.div_lt_iff_lt_mul hb]
    exact lt_pow_digitCount _

theorem digitCount_sub_one_div_spec {a b : Nat} (ha : 0 < a) (h : a < b) :
    b ≤ 10 ^ digitCount ((b - 1) / a) * a ∧ a * 10 ^ digitCount ((b - 1) / a) < 10 * b := by
  constructor
  · have hLt : b - 1 < 10 ^ digitCount ((b - 1) / a) * a := by
      rw [← Nat.div_lt_iff_lt_mul ha]
      exact lt_pow_digitCount _
    omega
  · calc
      a * 10 ^ digitCount ((b - 1) / a) ≤ a * (10 * ((b - 1) / a)) :=
        Nat.mul_le_mul_left a (pow_digitCount_le (Nat.div_pos (by omega) ha))
      _ = 10 * ((b - 1) / a * a) := by ring
      _ ≤ 10 * (b - 1) := Nat.mul_le_mul_left 10 (Nat.div_mul_le_self _ a)
      _ < 10 * b := by omega

/-- The leading digit of a fraction stands at its leading exponent. -/
theorem leadingExponent_spec {a b : Nat} (ha : 0 < a) (hb : 0 < b) :
    (10 : ℚ) ^ leadingExponent a b ≤ a / b ∧ (a / b : ℚ) < 10 ^ (leadingExponent a b + 1) := by
  have hb' : (0 : ℚ) < b := by exact_mod_cast hb
  rw [le_div_iff₀ hb', div_lt_iff₀ hb']
  unfold leadingExponent
  split
  · rename_i hLarge
    obtain ⟨hLower, hUpper⟩ := digitCount_div_spec hb hLarge
    generalize digitCount (a / b) = k at *
    rw [sub_add_cancel, zpow_sub_one₀ (by norm_num), zpow_natCast]
    have hLower : (10 : ℚ) ^ k * b ≤ a * 10 := by exact_mod_cast hLower
    exact ⟨by linarith, by exact_mod_cast hUpper⟩
  · rename_i hSmall
    obtain ⟨hUpper, hLower⟩ := digitCount_sub_one_div_spec ha (Nat.lt_of_not_le hSmall)
    generalize digitCount ((b - 1) / a) = k at *
    have hPos : (0 : ℚ) < 10 ^ k := by positivity
    have hUpper : (b : ℚ) ≤ 10 ^ k * a := by exact_mod_cast hUpper
    have hLower : (a : ℚ) * 10 ^ k < 10 * b := by exact_mod_cast hLower
    rw [zpow_add_one₀ (by norm_num), zpow_neg, zpow_natCast, mul_assoc, inv_mul_le_iff₀ hPos,
      lt_inv_mul_iff₀ hPos]
    exact ⟨hUpper, by linarith⟩

/-! ## The grids of a double -/

theorem pow_toNat_div_pow_toNat (b : Nat) (hb : 0 < b) (i : Int) :
    ((b ^ i.toNat : Nat) : ℚ) / ((b ^ (-i).toNat : Nat) : ℚ) = (b : ℚ) ^ i := by
  have hb : (b : ℚ) ≠ 0 := by exact_mod_cast hb.ne'
  obtain ⟨n, rfl | rfl⟩ := i.eq_nat_or_neg
  · simp
  · simp

section

variable (tie : Tie) (m : Nat) (e : Int)

def lead : Int :=
  leadingExponent ((RoundingInterval.ofSignificand m e).centre * 2 ^ (e - 2).toNat)
    (2 ^ (-(e - 2)).toNat)

def unit (count : Nat) : Int :=
  lead m e + 1 - count

def gridOf (count : Nat) : Grid :=
  ⟨10 ^ (unit m e count).toNat * 2 ^ (-(e - 2)).toNat,
    10 ^ (-unit m e count).toNat * 2 ^ (e - 2).toNat⟩

theorem shortest_eq :
    shortest tie m e = ((List.range maxDigits).findSome? fun i =>
      ((gridOf m e (i + 1)).hit? tie (RoundingInterval.ofSignificand m e)).map fun d =>
        normalize ⟨d, unit m e (i + 1)⟩).getD ⟨0, 0⟩ :=
  rfl

theorem positive_gridOf (count : Nat) : (gridOf m e count).Positive :=
  ⟨Nat.mul_pos (Nat.pow_pos (by omega)) (Nat.pow_pos (by omega)),
    Nat.mul_pos (Nat.pow_pos (by omega)) (Nat.pow_pos (by omega))⟩

theorem step_gridOf (count : Nat) :
    (gridOf m e count).step = 10 ^ unit m e count / 2 ^ (e - 2) := by
  have hTen := pow_toNat_div_pow_toNat 10 (by omega) (unit m e count)
  have hTwo := pow_toNat_div_pow_toNat 2 (by omega) (e - 2)
  rw [Nat.cast_ofNat] at hTen hTwo
  rw [← hTen, ← hTwo, Grid.step, gridOf, Nat.cast_mul, Nat.cast_mul, div_div_div_eq]

variable {m e}

theorem lead_spec (hm : 0 < m) :
    (10 : ℚ) ^ lead m e ≤ (RoundingInterval.ofSignificand m e).centre * 2 ^ (e - 2) ∧
      (RoundingInterval.ofSignificand m e).centre * 2 ^ (e - 2) < (10 : ℚ) ^ (lead m e + 1) := by
  have hCentre : 0 < (RoundingInterval.ofSignificand m e).centre := Nat.mul_pos (by omega) hm
  have hTwo := pow_toNat_div_pow_toNat 2 (by omega) (e - 2)
  rw [Nat.cast_ofNat] at hTwo
  rw [← hTwo, ← mul_div_assoc, ← Nat.cast_mul]
  exact leadingExponent_spec (Nat.mul_pos hCentre (Nat.pow_pos (by omega)))
    (Nat.pow_pos (by omega))

theorem lead_div_le (hm : 0 < m) :
    (10 : ℚ) ^ lead m e / 2 ^ (e - 2) ≤ (RoundingInterval.ofSignificand m e).centre := by
  rw [div_le_iff₀ (by positivity)]
  exact (lead_spec hm).1

/-- A grid point no greater than the double has no more digits than the grid allows. -/
theorem below_gridOf_lt (hm : 0 < m) (count : Nat) :
    (gridOf m e count).below (RoundingInterval.ofSignificand m e) < 10 ^ count := by
  have hBelow := Grid.below_mul_step_le (r := RoundingInterval.ofSignificand m e)
    (positive_gridOf m e count)
  rw [step_gridOf, ← mul_div_assoc, div_le_iff₀ (by positivity)] at hBelow
  have hPower : (10 : ℚ) ^ (lead m e + 1) = 10 ^ count * 10 ^ unit m e count := by
    rw [← zpow_natCast, ← zpow_add₀ (by norm_num)]
    congr 1
    unfold unit
    omega
  have hLt := hBelow.trans_lt (lead_spec hm).2
  rw [hPower] at hLt
  exact_mod_cast lt_of_mul_lt_mul_right hLt (by positivity)

theorem pow_mul_step_gridOf (count : Nat) :
    (10 : ℚ) ^ count * (gridOf m e (count + 1)).step = 10 ^ lead m e / 2 ^ (e - 2) := by
  rw [step_gridOf, ← mul_div_assoc, ← zpow_natCast, ← zpow_add₀ (by norm_num)]
  congr 2
  unfold unit
  omega

theorem mul_step_gridOf_of_le {count : Nat} {u : Int} (h : unit m e count ≤ u) (n : Nat) :
    ((n * 10 ^ (u - unit m e count).toNat : Nat) : ℚ) * (gridOf m e count).step =
      n * 10 ^ u / 2 ^ (e - 2) := by
  rw [step_gridOf, ← mul_div_assoc, Nat.cast_mul, Nat.cast_pow, Nat.cast_ofNat, mul_assoc,
    ← zpow_natCast, ← zpow_add₀ (by norm_num), Int.toNat_of_nonneg (by omega), sub_add_cancel]

theorem mul_pow_le_of_lt_unit {count n : Nat} {u : Int} (hn : n < 10 ^ count)
    (h : u < unit m e count) : (n : ℚ) * 10 ^ u ≤ 10 ^ lead m e := by
  have hn : (n : ℚ) ≤ 10 ^ count := by exact_mod_cast hn.le
  calc
    (n : ℚ) * 10 ^ u ≤ 10 ^ count * 10 ^ u := mul_le_mul_of_nonneg_right hn (by positivity)
    _ = 10 ^ (count + u) := by rw [← zpow_natCast, ← zpow_add₀ (by norm_num)]
    _ ≤ 10 ^ lead m e := by
      refine zpow_le_zpow_right₀ (by norm_num) ?_
      unfold unit at h
      omega

/-- With a decimal in the interval, there is a point of the grid of as many digits. -/
theorem exists_point (hm : 0 < m) {count n : Nat} {u : Int} (hn : n < 10 ^ (count + 1))
    (h : (RoundingInterval.ofSignificand m e).Admits (n * 10 ^ u / 2 ^ (e - 2))) :
    ∃ d : Nat, (RoundingInterval.ofSignificand m e).Admits (d * (gridOf m e (count + 1)).step) := by
  rcases le_or_gt (unit m e (count + 1)) u with hCoarse | hFine
  · refine ⟨n * 10 ^ (u - unit m e (count + 1)).toNat, ?_⟩
    rwa [mul_step_gridOf_of_le hCoarse]
  · -- The decimal lies below the leading power of ten.
    refine ⟨10 ^ count, ?_⟩
    rw [Nat.cast_pow, Nat.cast_ofNat, pow_mul_step_gridOf]
    have hBelow := mul_pow_le_of_lt_unit hn hFine
    exact h.of_le_centre (RoundingInterval.proper_ofSignificand hm e)
      (div_le_div_of_nonneg_right hBelow (by positivity)) (lead_div_le hm)

/-- The interval is wider than the double to the seventeenth digit. -/
theorem centre_lt (hm : 0 < m) (hShort : m < 2 ^ 53) :
    (RoundingInterval.ofSignificand m e).centre +
      10 ^ 16 * (RoundingInterval.ofSignificand m e).lower <
        10 ^ 16 * (RoundingInterval.ofSignificand m e).upper := by
  unfold RoundingInterval.ofSignificand
  dsimp only
  split
  · rename_i hStart
    have hFull : m = 2 ^ 52 := by
      unfold Binary64.isBinadeStart Binary64.leastFull at hStart
      simp only [Bool.and_eq_true, beq_iff_eq] at hStart
      exact hStart.1
    omega
  · omega

theorem exists_point_maxDigits (hm : 0 < m) (hShort : m < 2 ^ 53) :
    ∃ d : Nat, (RoundingInterval.ofSignificand m e).Admits (d * (gridOf m e maxDigits).step) := by
  have hGrid := positive_gridOf m e maxDigits
  have hProper := RoundingInterval.proper_ofSignificand hm e
  have hBelow := Grid.below_mul_step_le (r := RoundingInterval.ofSignificand m e) hGrid
  have hAbove := Grid.lt_below_add_one_mul_step (r := RoundingInterval.ofSignificand m e) hGrid
  have hStep : (10 : ℚ) ^ 16 * (gridOf m e maxDigits).step ≤
      (RoundingInterval.ofSignificand m e).centre :=
    (pow_mul_step_gridOf 16).trans_le (lead_div_le hm)
  have hWide : ((RoundingInterval.ofSignificand m e).centre : ℚ) +
      10 ^ 16 * (RoundingInterval.ofSignificand m e).lower <
        10 ^ 16 * (RoundingInterval.ofSignificand m e).upper := by
    exact_mod_cast centre_lt hm hShort
  have hLower : ((RoundingInterval.ofSignificand m e).lower : ℚ) <
      (RoundingInterval.ofSignificand m e).centre := by exact_mod_cast hProper.lower_lt
  have hUpper : ((RoundingInterval.ofSignificand m e).centre : ℚ) <
      (RoundingInterval.ofSignificand m e).upper := by exact_mod_cast hProper.lt_upper
  generalize RoundingInterval.ofSignificand m e = r at *
  rcases lt_or_ge (r.lower : ℚ) ((gridOf m e maxDigits).below r * (gridOf m e maxDigits).step) with
    hInside | hOutside
  · exact ⟨_, RoundingInterval.admits_of_lt_of_lt hInside (hBelow.trans_lt hUpper)⟩
  · refine ⟨_, RoundingInterval.admits_of_lt_of_lt (hLower.trans hAbove) ?_⟩
    rw [Nat.cast_succ, add_mul, one_mul]
    linarith

end

/-! ## The shortest decimal -/

theorem findSome?_range {α : Type} {f : Nat → Option α} {n i : Nat} {a : α} (hi : i < n)
    (h : f i = some a) (hNone : ∀ j < i, f j = none) : (List.range n).findSome? f = some a := by
  induction n with
  | zero => omega
  | succ n ih =>
      rw [List.range_succ, List.findSome?_append]
      rcases Nat.lt_or_eq_of_le (Nat.le_of_lt_succ hi) with hLt | rfl
      · rw [ih hLt, Option.some_or]
      · have hBefore : (List.range i).findSome? f = none :=
          List.findSome?_eq_none_iff.mpr fun j hj => hNone j (List.mem_range.mp hj)
        simp [hBefore, h]

/-- The decimal stands for the double: it rounds to it, no zero ends it, and no decimal that rounds
to it has fewer digits. -/
structure Stands (d : Decimal) (m : Nat) (e : Int) : Prop where
  admits : (RoundingInterval.ofSignificand m e).Admits (d.value / 2 ^ (e - 2))
  trimmed : d.digits % 10 ≠ 0
  fewest {count n : Nat} {u : Int} (hn : n < 10 ^ count)
    (h : (RoundingInterval.ofSignificand m e).Admits (n * 10 ^ u / 2 ^ (e - 2))) :
    d.digits < 10 ^ count

section

variable (tie : Tie) {m : Nat} (e : Int)

def hitAt (m i : Nat) : Option Nat :=
  (gridOf m e (i + 1)).hit? tie (RoundingInterval.ofSignificand m e)

theorem hitAt_eq_none_iff (hm : 0 < m) (i : Nat) :
    hitAt tie e m i = none ↔
      ∀ d : Nat, ¬ (RoundingInterval.ofSignificand m e).Admits (d * (gridOf m e (i + 1)).step) :=
  Grid.hit?_eq_none_iff (positive_gridOf m e (i + 1)) (RoundingInterval.proper_ofSignificand hm e)

/-- The search ends at the least number of digits with a hit. -/
theorem exists_first_hit (hm : 0 < m) (hShort : m < 2 ^ 53) :
    ∃ i d, hitAt tie e m i = some d ∧ (∀ j < i, hitAt tie e m j = none) ∧
      shortest tie m e = normalize ⟨d, unit m e (i + 1)⟩ := by
  have hLast : hitAt tie e m (maxDigits - 1) ≠ none := by
    obtain ⟨d, hd⟩ := exists_point_maxDigits (e := e) hm hShort
    exact fun hNone => (hitAt_eq_none_iff tie e hm (maxDigits - 1)).mp hNone d hd
  have hExists : ∃ i, hitAt tie e m i ≠ none := ⟨_, hLast⟩
  obtain ⟨i, hi, hSome, hNone⟩ :
      ∃ i < maxDigits, hitAt tie e m i ≠ none ∧ ∀ j < i, hitAt tie e m j = none :=
    ⟨Nat.find hExists, Nat.lt_of_le_of_lt (Nat.find_min' hExists hLast) (by decide),
      Nat.find_spec hExists, fun j hj => not_not.mp (Nat.find_min hExists hj)⟩
  obtain ⟨d, hd⟩ := Option.ne_none_iff_exists'.mp hSome
  have hFound : (List.range maxDigits).findSome? (fun i =>
      (hitAt tie e m i).map fun d => normalize ⟨d, unit m e (i + 1)⟩) =
        some (normalize ⟨d, unit m e (i + 1)⟩) :=
    findSome?_range hi (by simp only [hd, Option.map_some]) fun j hj => by
      simp only [hNone j hj, Option.map_none]
  refine ⟨i, d, hd, hNone, ?_⟩
  rw [shortest_eq]
  exact congrArg (·.getD ⟨0, 0⟩) hFound

theorem stands_shortest (hm : 0 < m) (hShort : m < 2 ^ 53) : (shortest tie m e).Stands m e := by
  obtain ⟨i, d, hd, hNone, hResult⟩ := exists_first_hit tie e hm hShort
  have hProper := RoundingInterval.proper_ofSignificand hm e
  obtain ⟨hAdmits, hBelow⟩ := Grid.of_hit?_eq_some (positive_gridOf m e (i + 1)) hd
  have hZero : d ≠ 0 := by
    rintro rfl
    have hPos := hAdmits.pos hProper
    simp at hPos
  have hDigits : d ≤ 10 ^ (i + 1) := Nat.le_trans hBelow (below_gridOf_lt hm (i + 1))
  rw [hResult]
  refine ⟨?_, digits_normalize_mod hZero, fun {count n u} hn h => ?_⟩
  · rw [value_normalize, value, mul_div_assoc, ← step_gridOf]
    exact hAdmits
  · cases count with
    | zero =>
        obtain rfl : n = 0 := by simpa using hn
        have hPos := h.pos hProper
        simp at hPos
    | succ j =>
        have hLe : i ≤ j := by
          by_contra hLess
          obtain ⟨d', hd'⟩ := exists_point hm hn h
          exact (hitAt_eq_none_iff tie e hm j).mp (hNone j (by omega)) d' hd'
        calc
          (normalize ⟨d, unit m e (i + 1)⟩).digits < 10 ^ (i + 1) :=
            digits_normalize_lt hZero (Nat.succ_pos i) hDigits
          _ ≤ 10 ^ (j + 1) := Nat.pow_le_pow_right (by omega) (by omega)

end

end Decimal

end Diaporama
