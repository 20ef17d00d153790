import Diaporama.Proofs.Double.Native
import Diaporama.Proofs.Slideshow.Decision

/-!
# Times counted in steps

A time that is no negative number has a count of steps. Sums and products of such times have the
exact count, rounded once, whether or not they end in infinity; so their order can be told in whole
numbers.
-/

namespace Diaporama.Double

open Float.Model Float.Model.UnpackedFloat

/-- The double has a count, which is a rounded number. -/
structure Counts (x : Float) (n : Nat) : Prop where
  unpack : x.toModel.unpack = ofSteps n
  rounded : nearest n = n

theorem eq_of_unpack_eq {x y : Float} (h : x.toModel.unpack = y.toModel.unpack) : x = y := by
  obtain ⟨⟨x, hx⟩⟩ := x
  obtain ⟨⟨y, hy⟩⟩ := y
  have hBits : x.toBitVec = y.toBitVec := (UnpackedFloat.unpack_inj_of_valid hx hy).mp h
  obtain rfl : x = y := UInt64.eq_of_toBitVec_eq hBits
  rfl

theorem Counts.eq {x y : Float} {n : Nat} (hx : Counts x n) (hy : Counts y n) : x = y :=
  eq_of_unpack_eq (hx.unpack.trans hy.unpack.symm)

/-- One is this many doublings of a step. -/
def places : Nat := 1074

theorem exists_significand {n : Nat} (h : nearest n = n) :
    ∃ q k, n = q * 2 ^ k ∧ q < 2 ^ 53 ∧ (2 ^ 52 ≤ q ∨ k = 0) := by
  refine ⟨_, _, h.symm, ?_, ?_⟩
  · have hBelow : roundDiv n (2 ^ excess n) * 2 ^ excess n < 2 ^ 53 * 2 ^ excess n := by
      rw [← Nat.pow_add]
      exact Nat.lt_of_le_of_lt (Nat.le_of_eq h) (lt_two_pow_excess n)
    exact Nat.lt_of_mul_lt_mul_right hBelow
  · rcases Nat.eq_zero_or_pos (excess n) with hZero | hPos
    · exact .inr hZero
    · exact .inl (le_roundDiv_excess hPos)

theorem isFinite_ofSteps (n : Nat) : (ofSteps n).isFinite = true ↔ n < limit := by
  unfold ofSteps
  split_ifs with hLimit
  · simp [UnpackedFloat.isFinite, hLimit]
  · simp [UnpackedFloat.isFinite, Nat.lt_of_not_le hLimit]
  · simp [UnpackedFloat.isFinite, Nat.lt_of_not_le hLimit]

theorem Counts.isFinite_iff {x : Float} {n : Nat} (h : Counts x n) :
    x.isFinite = true ↔ n < limit := by
  change x.toModel.unpack.isFinite = true ↔ _
  rw [h.unpack, isFinite_ofSteps]

theorem nearest_limit : nearest limit = limit :=
  nearest_two_pow _

/-- The double of a rounded number is zero, infinite or has that number's significand. -/
theorem ofSteps_cases {n : Nat} (h : nearest n = n) :
    n = 0 ∨ limit ≤ n ∨ ∃ q k : Nat, ∃ hq : 0 < q, n = q * 2 ^ k ∧ q < 2 ^ 53 ∧
      (2 ^ 52 ≤ q ∨ k = 0) ∧ n < limit ∧ ofSteps n = .finite .positive q (k - 1074) hq := by
  rcases Nat.eq_zero_or_pos n with hZero | hPos
  · exact .inl hZero
  rcases Nat.lt_or_ge n limit with hFinite | hLimit
  · obtain ⟨q, k, rfl, hq, hk⟩ := exists_significand h
    have hMax := (mul_two_pow_lt_limit_iff hq hk).mp hFinite
    have hSignificand := Nat.pos_of_mul_pos_right hPos
    exact .inr (.inr
      ⟨q, k, hSignificand, rfl, hq, hk, hFinite, ofSteps_mul_two_pow hq hk hSignificand hMax⟩)
  · exact .inr (.inl hLimit)

theorem unpack_pack_ofSteps {n : Nat} (h : nearest n = n) :
    (pack (ofSteps n)).unpack = ofSteps n := by
  rcases ofSteps_cases h with rfl | hLimit | ⟨q, k, hq, rfl, hShort, hk, -, hFinite⟩
  · rw [ofSteps_zero, unpack_pack_zero]
  · rw [ofSteps_of_limit_le hLimit, unpack_pack_infinity]
  · conv_lhs => rw [hFinite]
    exact unpack_pack_finite hq hShort hk

/-! ## Order -/

theorem compare_significands {q q' k k' : Nat} (hq : q < 2 ^ 53) (hq' : q' < 2 ^ 53)
    (hk : 2 ^ 52 ≤ q ∨ k = 0) (hk' : 2 ^ 52 ≤ q' ∨ k' = 0) :
    (compare ((k : Int) - 1074) (k' - 1074)).then (compare q q') =
      compare (q * 2 ^ k) (q' * 2 ^ k') := by
  -- The greater exponent goes with a full significand, which outweighs any other.
  have hLess {a b i l : Nat} (ha : a < 2 ^ 53) (hb : 2 ^ 52 ≤ b ∨ l = 0) (hLt : i < l) :
      a * 2 ^ i < b * 2 ^ l := by
    calc
      a * 2 ^ i < 2 ^ 53 * 2 ^ i := Nat.mul_lt_mul_of_pos_right ha (Nat.two_pow_pos i)
      _ = 2 ^ (52 + (i + 1)) := by rw [← Nat.pow_add]; congr 1; omega
      _ ≤ 2 ^ (52 + l) := Nat.pow_le_pow_right (by omega) (by omega)
      _ = 2 ^ 52 * 2 ^ l := Nat.pow_add 2 52 l
      _ ≤ b * 2 ^ l := Nat.mul_le_mul_right _ (hb.resolve_right (by omega))
  rcases Nat.lt_trichotomy k k' with hLt | rfl | hGt
  · rw [compare_lt_iff_lt.mpr (show (k : Int) - 1074 < k' - 1074 by omega),
      compare_lt_iff_lt.mpr (hLess hq hk' hLt)]
    rfl
  · rw [compare_eq_iff_eq.mpr rfl, Ordering.eq_then]
    rcases Nat.lt_trichotomy q q' with hLt | rfl | hGt
    · rw [compare_lt_iff_lt.mpr hLt,
        compare_lt_iff_lt.mpr (Nat.mul_lt_mul_of_pos_right hLt (Nat.two_pow_pos k))]
    · rw [compare_eq_iff_eq.mpr rfl, compare_eq_iff_eq.mpr rfl]
    · rw [compare_gt_iff_gt.mpr hGt,
        compare_gt_iff_gt.mpr (Nat.mul_lt_mul_of_pos_right hGt (Nat.two_pow_pos k))]
  · rw [compare_gt_iff_gt.mpr (show (k' : Int) - 1074 < k - 1074 by omega),
      compare_gt_iff_gt.mpr (hLess hq' hk hGt)]
    rfl

/-- Doubles are in the order of their counts, and all infinite ones are the same. -/
theorem compare_ofSteps {m n : Nat} (hm : nearest m = m) (hn : nearest n = n) :
    (ofSteps m).compare (ofSteps n) = some (compare (min m limit) (min n limit)) := by
  have hPos := limit_pos
  rcases ofSteps_cases hm with rfl | hLimit | ⟨q, k, hq, rfl, hShort, hk, hBelow, hFirst⟩
  · rw [ofSteps_zero, Nat.zero_min]
    rcases ofSteps_cases hn with rfl | hLimit | ⟨q', k', hq', rfl, -, -, hBelow', hSecond⟩
    · rw [ofSteps_zero, Nat.zero_min, compare_eq_iff_eq.mpr rfl]
      rfl
    · rw [ofSteps_of_limit_le hLimit, Nat.min_eq_right hLimit, compare_lt_iff_lt.mpr hPos]
      rfl
    · rw [hSecond, Nat.min_eq_left hBelow'.le,
        compare_lt_iff_lt.mpr (Nat.mul_pos hq' (Nat.two_pow_pos k'))]
      rfl
  · rw [ofSteps_of_limit_le hLimit, Nat.min_eq_right hLimit]
    rcases ofSteps_cases hn with rfl | hLimit' | ⟨q', k', hq', rfl, -, -, hBelow', hSecond⟩
    · rw [ofSteps_zero, Nat.zero_min, compare_gt_iff_gt.mpr hPos]
      rfl
    · rw [ofSteps_of_limit_le hLimit', Nat.min_eq_right hLimit', compare_eq_iff_eq.mpr rfl]
      rfl
    · rw [hSecond, Nat.min_eq_left hBelow'.le, compare_gt_iff_gt.mpr hBelow']
      rfl
  · rw [hFirst, Nat.min_eq_left hBelow.le]
    rcases ofSteps_cases hn with rfl | hLimit | ⟨q', k', hq', rfl, hShort', hk', hBelow', hSecond⟩
    · rw [ofSteps_zero, Nat.zero_min,
        compare_gt_iff_gt.mpr (Nat.mul_pos hq (Nat.two_pow_pos k))]
      rfl
    · rw [ofSteps_of_limit_le hLimit, Nat.min_eq_right hLimit, compare_lt_iff_lt.mpr hBelow]
      rfl
    · rw [hSecond, Nat.min_eq_left hBelow'.le, ← compare_significands hShort hShort' hk hk']
      rfl

theorem Counts.le_iff {x y : Float} {m n : Nat} (hx : Counts x m) (hy : Counts y n) :
    x ≤ y ↔ min m limit ≤ min n limit := by
  rw [Seconds.le_iff_unpack, hx.unpack, hy.unpack, UnpackedFloat.le,
    compare_ofSteps hx.rounded hy.rounded, Option.any_some, Nat.isLE_compare]

theorem Counts.lt_iff {x y : Float} {m n : Nat} (hx : Counts x m) (hy : Counts y n) :
    x < y ↔ min m limit < min n limit := by
  rw [Seconds.lt_iff_unpack, hx.unpack, hy.unpack, UnpackedFloat.lt,
    compare_ofSteps hx.rounded hy.rounded, beq_iff_eq, Option.some_inj, compare_lt_iff_lt]

/-! ## Sums -/

theorem unpack_pack_round {m : Nat} (hm : 0 < m) (k : Nat) :
    (pack (UnpackedFloat.round Format.binary64 .positive m (k - 1074))).unpack =
      ofSteps (nearest (m * 2 ^ k)) := by
  obtain ⟨s, hs⟩ : ∃ s : Nat,
      ((k : Int) - 1074 - max ((m.log2 : Int) + (k - 1074) - 52) (-1074)).toNat = s := ⟨_, rfl⟩
  have hLog : (m * 2 ^ s).log2 = m.log2 + s := log2_mul_two_pow hm
  have hCount : m * 2 ^ s * 2 ^ (k - s) = m * 2 ^ k * 2 ^ 0 := by
    rw [Nat.mul_assoc, ← Nat.pow_add, Nat.pow_zero, Nat.mul_one, show s + (k - s) = k by omega]
  unfold UnpackedFloat.round decreaseExponent
  simp only [targetExponent_binary64, hs, Nat.shiftLeft_eq]
  exact unpack_pack_roundWithAccuracy (Nat.mul_pos hm (Nat.two_pow_pos s)) hCount
    (by omega) (by omega)

theorem normalize_of_pos {m : Nat} (hm : 0 < m) (e : Int) (s : Sign) :
    UnpackedFloat.normalize Format.binary64 m e s =
      UnpackedFloat.round Format.binary64 .positive m e := by
  have hCompare : compare (m : Int) 0 = .gt := compare_gt_iff_gt.mpr (by omega)
  rw [UnpackedFloat.normalize, hCompare]
  rfl

theorem infinity_add_ofSteps (n : Nat) :
    UnpackedFloat.add Format.binary64 (.infinity .positive) (ofSteps n) = .infinity .positive := by
  unfold ofSteps
  split_ifs <;> rfl

theorem ofSteps_add_infinity (n : Nat) :
    UnpackedFloat.add Format.binary64 (ofSteps n) (.infinity .positive) = .infinity .positive := by
  unfold ofSteps
  split_ifs <;> rfl

theorem zero_add_ofSteps (n : Nat) :
    UnpackedFloat.add Format.binary64 (.zero .positive) (ofSteps n) = ofSteps n := by
  unfold ofSteps
  split_ifs <;> rfl

theorem ofSteps_add_zero (n : Nat) :
    UnpackedFloat.add Format.binary64 (ofSteps n) (.zero .positive) = ofSteps n := by
  unfold ofSteps
  split_ifs <;> rfl

theorem unpack_pack_finite_add {q q' k k' : Nat} (hq : 0 < q) (hq' : 0 < q') :
    (pack (UnpackedFloat.add Format.binary64 (.finite .positive q (k - 1074) hq)
      (.finite .positive q' (k' - 1074) hq'))).unpack =
        ofSteps (nearest (q * 2 ^ k + q' * 2 ^ k')) := by
  obtain ⟨l, hl⟩ : ∃ l, min k k' = l := ⟨_, rfl⟩
  have hMin : min ((k : Int) - 1074) (k' - 1074) = l - 1074 := by omega
  have hFirst : ((k : Int) - 1074 - (l - 1074)).toNat = k - l := by omega
  have hSecond : ((k' : Int) - 1074 - (l - 1074)).toNat = k' - l := by omega
  have hScale : (q * 2 ^ (k - l) + q' * 2 ^ (k' - l)) * 2 ^ l = q * 2 ^ k + q' * 2 ^ k' := by
    rw [Nat.add_mul, Nat.mul_assoc, ← Nat.pow_add, Nat.mul_assoc, ← Nat.pow_add,
      show k - l + l = k by omega, show k' - l + l = k' by omega]
  have hPos : 0 < q * 2 ^ (k - l) + q' * 2 ^ (k' - l) :=
    Nat.add_pos_left (Nat.mul_pos hq (Nat.two_pow_pos _)) _
  have hNormal : UnpackedFloat.add Format.binary64 (.finite .positive q (k - 1074) hq)
      (.finite .positive q' (k' - 1074) hq') =
        UnpackedFloat.round Format.binary64 .positive
          (q * 2 ^ (k - l) + q' * 2 ^ (k' - l)) (l - 1074) := by
    unfold UnpackedFloat.add
    simp only [hMin, decreaseExponent, hFirst, hSecond, Nat.shiftLeft_eq, Sign.apply]
    exact normalize_of_pos hPos _ _
  rw [hNormal, unpack_pack_round hPos, hScale]

theorem unpack_pack_add {m n : Nat} (hm : nearest m = m) (hn : nearest n = n) :
    (pack (UnpackedFloat.add Format.binary64 (ofSteps m) (ofSteps n))).unpack =
      ofSteps (nearest (m + n)) := by
  have hInfinite : limit ≤ m + n → ofSteps (nearest (m + n)) = .infinity .positive :=
    fun h => ofSteps_of_limit_le (le_nearest_of_le nearest_limit h)
  rcases ofSteps_cases hm with rfl | hLimit | ⟨q, k, hq, rfl, -, -, -, hFirst⟩
  · rw [ofSteps_zero, zero_add_ofSteps, Nat.zero_add, hn, unpack_pack_ofSteps hn]
  · rw [ofSteps_of_limit_le hLimit, infinity_add_ofSteps, unpack_pack_infinity,
      hInfinite (Nat.le_add_right_of_le hLimit)]
  · rcases ofSteps_cases hn with rfl | hLimit | ⟨q', k', hq', rfl, -, -, -, hSecond⟩
    · rw [ofSteps_zero, ofSteps_add_zero, Nat.add_zero, hm, unpack_pack_ofSteps hm]
    · rw [ofSteps_of_limit_le hLimit, ofSteps_add_infinity, unpack_pack_infinity,
        hInfinite (Nat.le_add_left_of_le hLimit)]
    · rw [hFirst, hSecond, unpack_pack_finite_add hq hq']

theorem Counts.add {x y : Float} {m n : Nat} (hx : Counts x m) (hy : Counts y n) :
    Counts (Seconds.add x y) (nearest (m + n)) where
  unpack := by
    change (pack (UnpackedFloat.add Format.binary64 x.toModel.unpack y.toModel.unpack)).unpack = _
    rw [hx.unpack, hy.unpack, unpack_pack_add hx.rounded hy.rounded]
  rounded := nearest_nearest _

/-! ## Products with whole numbers -/

structure Whole (x : Float) (c : Nat) : Prop extends Counts x (c * 2 ^ places) where
  pos : 0 < c
  finite : c * 2 ^ places < limit

theorem unpack_pack_mul {m c : Nat} (hm : nearest m = m) (hPos : 0 < m)
    (hc : nearest (c * 2 ^ places) = c * 2 ^ places) (hWhole : 0 < c)
    (hFinite : c * 2 ^ places < limit) :
    (pack (UnpackedFloat.mul Format.binary64 (ofSteps m) (ofSteps (c * 2 ^ places)))).unpack =
      ofSteps (nearest (m * c)) := by
  have hLarge : 2 ^ places ≤ c * 2 ^ places := Nat.le_mul_of_pos_left _ hWhole
  rcases ofSteps_cases hc with hZero | hLimit | ⟨q', k', hq', hCount', hShort', hk', -, hSecond⟩
  · have := Nat.two_pow_pos places
    omega
  · omega
  · have hFull' : 2 ^ 52 ≤ q' := by
      refine hk'.resolve_right fun hZero => ?_
      rw [hZero, Nat.pow_zero, Nat.mul_one] at hCount'
      have hPlaces : 2 ^ 53 ≤ 2 ^ places := Nat.pow_le_pow_right (by omega) (by decide)
      omega
    rcases ofSteps_cases hm with rfl | hLimit | ⟨q, k, hq, rfl, -, -, -, hFirst⟩
    · omega
    · have hProduct : limit ≤ m * c := Nat.le_trans hLimit (Nat.le_mul_of_pos_right m hWhole)
      rw [ofSteps_of_limit_le hLimit, hSecond,
        ofSteps_of_limit_le (le_nearest_of_le nearest_limit hProduct)]
      exact unpack_pack_infinity _
    · rw [hFirst, hSecond]
      have hScale : q * q' * 2 ^ (k + k') = q * 2 ^ k * c * 2 ^ places := by
        rw [Nat.pow_add, Nat.mul_assoc (q * 2 ^ k), hCount']
        ring
      have hLog : 52 ≤ (q * q').log2 :=
        (Nat.le_log2 (Nat.mul_pos hq hq').ne').mpr
          (Nat.le_trans hFull' (Nat.le_mul_of_pos_left q' hq))
      refine unpack_pack_roundWithAccuracy (Nat.mul_pos hq hq') hScale ?_ (.inl hLog)
      unfold places
      omega

theorem Counts.mul {x y : Float} {m c : Nat} (hx : Counts x m) (hPos : 0 < m) (hy : Whole y c) :
    Counts (Seconds.mul x y) (nearest (m * c)) where
  unpack := by
    change (pack (UnpackedFloat.mul Format.binary64 x.toModel.unpack y.toModel.unpack)).unpack = _
    rw [hx.unpack, hy.unpack, unpack_pack_mul hx.rounded hPos hy.rounded hy.pos hy.finite]
  rounded := nearest_nearest _

/-! ## Whole numbers -/

theorem mul_two_pow_places_lt_limit {c : Nat} (h : c ≤ 2 ^ 64) : c * 2 ^ places < limit := by
  calc
    c * 2 ^ places ≤ 2 ^ 64 * 2 ^ places := Nat.mul_le_mul_right _ h
    _ = 2 ^ (64 + places) := by rw [Nat.pow_add]
    _ < limit := Nat.pow_lt_pow_right (by omega) (by decide)

theorem counts_ofCount {n : Nat} (h : n < 2 ^ 64) :
    Counts (Seconds.ofCount n) (nearest n * 2 ^ places) where
  unpack := by
    change (pack (UnpackedFloat.normalize Format.binary64 (n.toUInt64.toNat : Int) 0
      .positive)).unpack = _
    have hNat : n.toUInt64.toNat = n := UInt64.toNat_ofNat_of_lt' h
    rw [hNat, ← nearest_mul_two_pow]
    rcases Nat.eq_zero_or_pos n with rfl | hPos
    · rw [Nat.zero_mul, nearest_zero, ofSteps_zero]
      rfl
    · rw [normalize_of_pos hPos]
      exact unpack_pack_round hPos places
  rounded := by rw [nearest_mul_two_pow, nearest_nearest]

theorem nearest_pos {n : Nat} (h : 0 < n) : 0 < nearest n :=
  le_nearest_of_le (nearest_of_lt (by omega)) h

theorem whole_ofCount {n : Nat} (hPos : 0 < n) (h : n < 2 ^ 64) :
    Whole (Seconds.ofCount n) (nearest n) where
  toCounts := counts_ofCount h
  pos := nearest_pos hPos
  finite := mul_two_pow_places_lt_limit (nearest_le_of_le (nearest_two_pow 64) h.le)

theorem whole_ofCount_add_one {n : Nat} (h : n + 1 < 2 ^ 64) :
    Whole (Seconds.add (Seconds.ofCount n) Seconds.one) (nearest (nearest n + 1)) where
  toCounts := by
    have hOne := counts_ofCount (show 1 < 2 ^ 64 by omega)
    have hSum := (counts_ofCount (show n < 2 ^ 64 by omega)).add hOne
    rw [nearest_of_lt (show 1 < 2 ^ 53 by omega), ← Nat.add_mul, nearest_mul_two_pow] at hSum
    exact hSum
  pos := nearest_pos (Nat.succ_pos _)
  finite := mul_two_pow_places_lt_limit
    (Nat.le_trans (nearest_add_one_le n) (nearest_le_of_le (nearest_two_pow 64) h))

/-! ## Positive doubles -/

theorem unpack_finite {b : BitVec Format.binary64.numBits} {s : Sign} {m : Nat} {e : Int}
    {hm : 0 < m} (h : UnpackedFloat.unpack Format.binary64 b = .finite s m e hm) :
    ∃ k : Nat, e = k - 1074 ∧ m < 2 ^ 53 ∧ (2 ^ 52 ≤ m ∨ k = 0) ∧ k ≤ maxExcess := by
  unfold UnpackedFloat.unpack at h
  dsimp only at h
  split_ifs at h with hTop hInfinite hZero hNone
  · obtain ⟨-, rfl, rfl⟩ := UnpackedFloat.finite.inj h
    have hMantissa : (unpackMantissa b).toNat < 2 ^ 52 := (unpackMantissa b).isLt
    refine ⟨0, ?_, by omega, .inr rfl, Nat.zero_le _⟩
    rw [hZero, exponentBias_binary64]
    rfl
  · obtain ⟨-, rfl, rfl⟩ := UnpackedFloat.finite.inj h
    have hMantissa : (unpackMantissa b).toNat < 2 ^ 52 := (unpackMantissa b).isLt
    have hExponent : (unpackExponent b).toNat < 2 ^ 11 := (unpackExponent b).isLt
    have hLow : (unpackExponent b).toNat ≠ 0 := fun hNat => hZero (BitVec.eq_of_toNat_eq hNat)
    have hHigh : (unpackExponent b).toNat ≠ 2047 := fun hNat => hTop (BitVec.eq_of_toNat_eq hNat)
    rw [toNat_one_append, exponentBias_binary64]
    refine ⟨(unpackExponent b).toNat - 1, by omega, by omega, .inl (by omega), ?_⟩
    unfold maxExcess
    omega

theorem exists_counts_of_isPositive {x : Float} (h : Seconds.isPositive x = true) :
    ∃ n, Counts x n ∧ 0 < n ∧ n < limit := by
  obtain ⟨hFinite, hPos⟩ := (Seconds.isPositive_iff x).mp h
  rw [Seconds.lt_iff_unpack, Seconds.unpack_zero] at hPos
  change x.toModel.unpack.isFinite = true at hFinite
  cases hUnpack : x.toModel.unpack with
  | infinity s =>
      rw [hUnpack] at hFinite
      cases hFinite
  | notANumber =>
      rw [hUnpack] at hFinite
      cases hFinite
  | zero s =>
      rw [hUnpack] at hPos
      cases hPos
  | finite s m e hm =>
      rw [hUnpack] at hPos
      cases s with
      | negative => cases hPos
      | positive =>
          obtain ⟨k, rfl, hShort, hk, hMax⟩ := unpack_finite hUnpack
          refine ⟨m * 2 ^ k, ⟨?_, nearest_mul_two_pow_of_lt hShort k⟩,
            Nat.mul_pos hm (Nat.two_pow_pos k), (mul_two_pow_lt_limit_iff hShort hk).mpr hMax⟩
          rw [hUnpack, ofSteps_mul_two_pow hShort hk hm hMax]

end Diaporama.Double
