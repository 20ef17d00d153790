import Mathlib

/-!
# Rounding to 53 binary digits

A double has 53 binary digits. A whole number with more of them loses the excess in rounding: it
goes to the nearest number that has no more digits, and from half way to the one with an even
significand. Rounding keeps the order, leaves alone what has few digits, and ignores scaling by
powers of two.
-/

namespace Diaporama.Double

/-- The quotient rounded to a whole number, and to the even one from half way. -/
def roundDiv (n d : Nat) : Nat :=
  if 2 * (n % d) < d then n / d
  else if d < 2 * (n % d) then n / d + 1
  else n / d + n / d % 2

section

variable {n m d : Nat}

theorem div_le_roundDiv : n / d ≤ roundDiv n d := by
  unfold roundDiv
  split
  · exact Nat.le_refl _
  · split <;> omega

theorem roundDiv_le : roundDiv n d ≤ n / d + 1 := by
  unfold roundDiv
  split
  · omega
  · split <;> omega

theorem roundDiv_mul_add (q : Nat) {r : Nat} (h : 2 * r < d) : roundDiv (q * d + r) d = q := by
  have hr : r < d := by omega
  have hMod : (q * d + r) % d = r := by rw [Nat.mul_add_mod_self_right, Nat.mod_eq_of_lt hr]
  have hDiv : (q * d + r) / d = q := by
    rw [Nat.add_comm, Nat.add_mul_div_right r q (by omega), Nat.div_eq_of_lt hr, Nat.zero_add]
  rw [roundDiv, hMod, hDiv, if_pos h]

theorem roundDiv_mul_self (q : Nat) (hd : 0 < d) : roundDiv (q * d) d = q :=
  roundDiv_mul_add q (r := 0) hd

theorem roundDiv_mul_right {c : Nat} (hc : 0 < c) : roundDiv (n * c) (d * c) = roundDiv n d := by
  have hMod : n * c % (d * c) = n % d * c := Nat.mul_mod_mul_right c n d
  have hLt : ∀ a b : Nat, 2 * (a * c) < b * c ↔ 2 * a < b := by
    intro a b
    rw [← Nat.mul_assoc]
    exact Nat.mul_lt_mul_right hc
  have hGt : ∀ a b : Nat, b * c < 2 * (a * c) ↔ b < 2 * a := by
    intro a b
    rw [← Nat.mul_assoc]
    exact Nat.mul_lt_mul_right hc
  rw [roundDiv, roundDiv, hMod, Nat.mul_div_mul_right n d hc]
  simp only [hLt, hGt]

theorem roundDiv_mono (h : n ≤ m) : roundDiv n d ≤ roundDiv m d := by
  rcases Nat.lt_or_eq_of_le (Nat.div_le_div_right (c := d) h) with hLt | hEq
  · calc
      roundDiv n d ≤ n / d + 1 := roundDiv_le
      _ ≤ m / d := hLt
      _ ≤ roundDiv m d := div_le_roundDiv
  · -- With one quotient the remainders are in order.
    have hRest : n % d ≤ m % d := by
      have hn := Nat.div_add_mod n d
      have hm := Nat.div_add_mod m d
      rw [hEq] at hn
      omega
    unfold roundDiv
    rw [hEq]
    split_ifs <;> omega

theorem roundDiv_mul_le (hd : 0 < d) : 2 * (roundDiv n d * d) ≤ 2 * n + d := by
  have hn := Nat.div_add_mod n d
  have hMod := Nat.mod_lt n hd
  have hEven : n / d % 2 * d ≤ d := by
    calc
      n / d % 2 * d ≤ 1 * d := Nat.mul_le_mul_right d (by omega)
      _ = d := Nat.one_mul d
  rw [Nat.mul_comm] at hn
  unfold roundDiv
  split_ifs
  · omega
  · rw [Nat.add_mul]
    omega
  · rw [Nat.add_mul]
    omega

theorem le_roundDiv_mul (hd : 0 < d) : 2 * n ≤ 2 * (roundDiv n d * d) + d := by
  have hn := Nat.div_add_mod n d
  have hMod := Nat.mod_lt n hd
  rw [Nat.mul_comm] at hn
  unfold roundDiv
  split_ifs
  · omega
  · rw [Nat.add_mul]
    omega
  · rw [Nat.add_mul]
    omega

end

def excess (n : Nat) : Nat :=
  n.log2 + 1 - 53

def nearest (n : Nat) : Nat :=
  roundDiv n (2 ^ excess n) * 2 ^ excess n

section

variable {n m k : Nat}

theorem log2_mul_two_pow (h : 0 < n) : (n * 2 ^ k).log2 = n.log2 + k := by
  rw [Nat.log2_eq_iff (Nat.mul_pos h (Nat.two_pow_pos k)).ne']
  constructor
  · rw [Nat.pow_add]
    exact Nat.mul_le_mul_right _ (Nat.log2_self_le h.ne')
  · rw [Nat.add_right_comm, Nat.pow_add]
    exact Nat.mul_lt_mul_of_pos_right Nat.lt_log2_self (Nat.two_pow_pos k)

theorem lt_two_pow_excess (n : Nat) : n < 2 ^ (53 + excess n) :=
  calc
    n < 2 ^ (n.log2 + 1) := Nat.lt_log2_self
    _ ≤ 2 ^ (53 + excess n) := Nat.pow_le_pow_right (by omega) (by unfold excess; omega)

theorem two_pow_excess_le (h : 0 < excess n) : 2 ^ (52 + excess n) ≤ n := by
  unfold excess at h ⊢
  have hZero : n ≠ 0 := by
    rintro rfl
    simp at h
  rw [show 52 + (n.log2 + 1 - 53) = n.log2 by omega]
  exact Nat.log2_self_le hZero

theorem excess_eq_zero_iff : excess n = 0 ↔ n < 2 ^ 53 := by
  constructor
  · intro h
    simpa [h] using lt_two_pow_excess n
  · intro h
    by_contra hExcess
    have hLow := two_pow_excess_le (Nat.pos_of_ne_zero hExcess)
    have hPow : 2 ^ 53 ≤ 2 ^ (52 + excess n) := Nat.pow_le_pow_right (by omega) (by omega)
    omega

theorem excess_eq (hLow : 2 ^ (52 + k) ≤ n) (hHigh : n < 2 ^ (53 + k)) : excess n = k := by
  have hZero : n ≠ 0 := by
    have := Nat.two_pow_pos (52 + k)
    omega
  have hLog : n.log2 = 52 + k := by
    have hUpper := (Nat.log2_lt hZero).mpr hHigh
    have hLower := (Nat.le_log2 hZero).mpr hLow
    omega
  unfold excess
  omega

theorem excess_mono (h : n ≤ m) : excess n ≤ excess m := by
  by_contra hLt
  have hLow := two_pow_excess_le (n := n) (by omega)
  have hHigh := lt_two_pow_excess m
  have hPow : 2 ^ (53 + excess m) ≤ 2 ^ (52 + excess n) :=
    Nat.pow_le_pow_right (by omega) (by omega)
  omega

theorem excess_mul_two_pow (h : 0 < excess n) : excess (n * 2 ^ k) = excess n + k := by
  apply excess_eq
  · rw [← Nat.add_assoc, Nat.pow_add]
    exact Nat.mul_le_mul_right _ (two_pow_excess_le h)
  · rw [← Nat.add_assoc, Nat.pow_add 2 (53 + excess n) k]
    exact Nat.mul_lt_mul_of_pos_right (lt_two_pow_excess n) (Nat.two_pow_pos k)

/-! ## What rounding leaves alone -/

theorem nearest_eq_self_of_dvd (h : 2 ^ excess n ∣ n) : nearest n = n := by
  obtain ⟨q, hq⟩ := h
  rw [Nat.mul_comm] at hq
  have hRound : roundDiv n (2 ^ excess n) = q :=
    (congrArg (roundDiv · (2 ^ excess n)) hq).trans (roundDiv_mul_self q (Nat.two_pow_pos _))
  rw [nearest, hRound, ← hq]

theorem nearest_of_lt (h : n < 2 ^ 53) : nearest n = n :=
  nearest_eq_self_of_dvd (by simp [excess_eq_zero_iff.mpr h])

@[simp] theorem nearest_zero : nearest 0 = 0 :=
  nearest_of_lt (by omega)

theorem nearest_mul_two_pow_of_lt (h : n < 2 ^ 53) (k : Nat) : nearest (n * 2 ^ k) = n * 2 ^ k := by
  rcases Nat.eq_zero_or_pos (excess (n * 2 ^ k)) with hZero | hPos
  · exact nearest_of_lt (excess_eq_zero_iff.mp hZero)
  · have hLow := two_pow_excess_le hPos
    have hHigh : n * 2 ^ k < 2 ^ (53 + k) := by
      rw [Nat.pow_add]
      exact Nat.mul_lt_mul_of_pos_right h (Nat.two_pow_pos k)
    have hExcess : 52 + excess (n * 2 ^ k) < 53 + k :=
      (Nat.pow_lt_pow_iff_right (by omega)).mp (Nat.lt_of_le_of_lt hLow hHigh)
    exact nearest_eq_self_of_dvd
      (Nat.dvd_mul_left_of_dvd (Nat.pow_dvd_pow 2 (by omega)) n)

theorem nearest_two_pow (k : Nat) : nearest (2 ^ k) = 2 ^ k := by
  have hOne := nearest_mul_two_pow_of_lt (show 1 < 2 ^ 53 by omega) k
  rwa [Nat.one_mul] at hOne

theorem nearest_mul_two_pow (n k : Nat) : nearest (n * 2 ^ k) = nearest n * 2 ^ k := by
  rcases Nat.eq_zero_or_pos (excess n) with hZero | hPos
  · have hShort := excess_eq_zero_iff.mp hZero
    rw [nearest_mul_two_pow_of_lt hShort, nearest_of_lt hShort]
  · rw [nearest, excess_mul_two_pow hPos, Nat.pow_add, roundDiv_mul_right (Nat.two_pow_pos k),
      nearest, Nat.mul_assoc]

theorem roundDiv_excess_le (n : Nat) : roundDiv n (2 ^ excess n) ≤ 2 ^ 53 := by
  have hLe : n ≤ 2 ^ 53 * 2 ^ excess n := by
    rw [← Nat.pow_add]
    exact Nat.le_of_lt (lt_two_pow_excess n)
  calc
    roundDiv n (2 ^ excess n) ≤ roundDiv (2 ^ 53 * 2 ^ excess n) (2 ^ excess n) :=
      roundDiv_mono hLe
    _ = 2 ^ 53 := roundDiv_mul_self _ (Nat.two_pow_pos _)

theorem le_roundDiv_excess (h : 0 < excess n) : 2 ^ 52 ≤ roundDiv n (2 ^ excess n) := by
  have hLe : 2 ^ 52 * 2 ^ excess n ≤ n := by
    rw [← Nat.pow_add]
    exact two_pow_excess_le h
  calc
    2 ^ 52 = roundDiv (2 ^ 52 * 2 ^ excess n) (2 ^ excess n) :=
      (roundDiv_mul_self _ (Nat.two_pow_pos _)).symm
    _ ≤ roundDiv n (2 ^ excess n) := roundDiv_mono hLe

@[simp] theorem nearest_nearest (n : Nat) : nearest (nearest n) = nearest n := by
  rw [nearest.eq_def n, nearest_mul_two_pow]
  rcases Nat.lt_or_eq_of_le (roundDiv_excess_le n) with hLt | hEq
  · rw [nearest_of_lt hLt]
  · rw [hEq, nearest_two_pow]

/-! ## Order -/

theorem nearest_mono (h : n ≤ m) : nearest n ≤ nearest m := by
  -- With more excess on the right, a power of two separates the two sides.
  rcases Nat.lt_or_eq_of_le (excess_mono h) with hLt | hEq
  · calc
      nearest n ≤ 2 ^ 53 * 2 ^ excess n := Nat.mul_le_mul_right _ (roundDiv_excess_le n)
      _ = 2 ^ (53 + excess n) := (Nat.pow_add 2 53 _).symm
      _ ≤ 2 ^ (52 + excess m) := Nat.pow_le_pow_right (by omega) (by omega)
      _ = 2 ^ 52 * 2 ^ excess m := Nat.pow_add 2 52 _
      _ ≤ nearest m := Nat.mul_le_mul_right _ (le_roundDiv_excess (by omega))
  · rw [nearest, nearest, hEq]
    exact Nat.mul_le_mul_right _ (roundDiv_mono h)

theorem le_nearest_of_le (hn : nearest n = n) (h : n ≤ m) : n ≤ nearest m :=
  hn ▸ nearest_mono h

theorem nearest_le_of_le (hm : nearest m = m) (h : n ≤ m) : nearest n ≤ m :=
  hm ▸ nearest_mono h

/-- Numbers further apart than the gap between the rounded ones stay apart. -/
theorem nearest_lt_nearest (h : n + 2 ^ excess m < m) : nearest n < nearest m := by
  have hUpper : 2 * nearest n ≤ 2 * n + 2 ^ excess n := roundDiv_mul_le (Nat.two_pow_pos _)
  have hLower : 2 * m ≤ 2 * nearest m + 2 ^ excess m := le_roundDiv_mul (Nat.two_pow_pos _)
  have hOrder : n ≤ m := by
    have hPower := Nat.two_pow_pos (excess m)
    omega
  have hGap : 2 ^ excess n ≤ 2 ^ excess m := Nat.pow_le_pow_right (by omega) (excess_mono hOrder)
  omega

/-- Different multiples of a number are told apart after rounding, as long as its factors have few
enough digits. -/
theorem nearest_mul_lt_nearest_mul {p a b : Nat} (hp : 0 < p) (hab : a < b) (hb : b ≤ 2 ^ 50) :
    nearest (p * a) < nearest (p * b) := by
  have hNext : p * a + p ≤ p * b := Nat.mul_le_mul_left p hab
  rcases Nat.eq_zero_or_pos (excess (p * b)) with hZero | hPos
  · have hShort := excess_eq_zero_iff.mp hZero
    rw [nearest_of_lt hShort, nearest_of_lt (by omega)]
    omega
  · -- The product is long only for a factor that is more than the gap.
    have hLarge : 2 ^ (2 + excess (p * b)) * 2 ^ 50 ≤ p * 2 ^ 50 := by
      calc
        2 ^ (2 + excess (p * b)) * 2 ^ 50 = 2 ^ (52 + excess (p * b)) := by
          rw [← Nat.pow_add]
          congr 1
          omega
        _ ≤ p * b := two_pow_excess_le hPos
        _ ≤ p * 2 ^ 50 := Nat.mul_le_mul_left p hb
    have hGap : 2 ^ (2 + excess (p * b)) ≤ p := Nat.le_of_mul_le_mul_right hLarge (by omega)
    have hPower := Nat.two_pow_pos (excess (p * b))
    rw [Nat.pow_add] at hGap
    exact nearest_lt_nearest (by omega)

/-- Where neighbours lie four apart or more, adding one is lost in rounding. -/
theorem nearest_add_one_eq_self (hn : nearest n = n) (h : 2 ≤ excess n) : nearest (n + 1) = n := by
  obtain ⟨q, hq⟩ : ∃ q, n = q * 2 ^ excess n := ⟨_, hn.symm⟩
  have hFour : 2 ^ 2 ≤ 2 ^ excess n := Nat.pow_le_pow_right (by omega) h
  have hExcess : excess (n + 1) = excess n := by
    have hBelow : q * 2 ^ excess n < 2 ^ 53 * 2 ^ excess n := by
      rw [← hq, ← Nat.pow_add]
      exact lt_two_pow_excess n
    have hNext : (q + 1) * 2 ^ excess n ≤ 2 ^ 53 * 2 ^ excess n :=
      Nat.mul_le_mul_right _ (Nat.lt_of_mul_lt_mul_right hBelow)
    rw [← Nat.pow_add, Nat.add_mul, ← hq] at hNext
    exact excess_eq (Nat.le_succ_of_le (two_pow_excess_le (by omega))) (by omega)
  have hRound : roundDiv (n + 1) (2 ^ excess n) = q := by
    conv_lhs => rw [show n + 1 = q * 2 ^ excess n + 1 by rw [← hq]]
    exact roundDiv_mul_add q (by omega)
  rw [nearest, hExcess, hRound, ← hq]

/-- Counting on from a rounded number never overtakes rounding what is counted. -/
theorem nearest_add_one_le (n : Nat) : nearest (nearest n + 1) ≤ nearest (n + 2) := by
  -- Only half a gap of four or more takes a number past its successor, and there one more is lost.
  rcases Nat.lt_or_ge (n + 1) (nearest n) with hFar | hNear
  · have hHalf := roundDiv_mul_le (n := n) (Nat.two_pow_pos (excess n))
    have hExcess : 2 ≤ excess n := by
      by_contra hSmall
      have hTwo : 2 ^ excess n ≤ 2 := by
        calc
          2 ^ excess n ≤ 2 ^ 1 := Nat.pow_le_pow_right (by omega) (by omega)
          _ = 2 := rfl
      have hLe : 2 * nearest n ≤ 2 * n + 2 ^ excess n := hHalf
      omega
    have hSame := nearest_add_one_eq_self (nearest_nearest n)
      (Nat.le_trans hExcess (excess_mono (by omega)))
    rw [hSame]
    exact nearest_mono (by omega)
  · exact nearest_mono (by omega)

end

end Diaporama.Double
