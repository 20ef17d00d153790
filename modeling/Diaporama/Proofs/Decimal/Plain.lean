import Diaporama.Decimal.Layout
import Diaporama.Decimal.Numeral
import Diaporama.Proofs.Decimal.Shortest

/-!
# Plain numerals

A numeral without an exponent is a sign, digits, and behind a point, if there is one, more digits.
Reading it back loses nothing: its digits without the point are those of a whole number, and the
point tells the power of ten. A decimal is set out as such a numeral of the same value, and where
its digits end in no zero, neither does what stands behind the point.
-/

namespace Diaporama

def signed (negative : Bool) (q : ℚ) : ℚ :=
  if negative then -q else q

theorem signed_of_nonneg {negative : Bool} {q : ℚ} (hq : 0 ≤ q) (h : 0 ≤ signed negative q) :
    signed negative q = q := by
  cases negative with
  | false => rfl
  | true =>
      have hNeg : 0 ≤ -q := h
      change -q = q
      linarith

theorem abs_signed (negative : Bool) (q : ℚ) : |signed negative q| = |q| := by
  cases negative
  · rfl
  · exact abs_neg q

theorem signed_not (negative : Bool) (q : ℚ) : signed (!negative) q = -signed negative q := by
  cases negative <;> simp [signed]

@[simp] theorem signed_signed (negative : Bool) (q : ℚ) :
    signed negative (signed negative q) = q := by
  cases negative <;> simp [signed]

theorem signed_left_inj {q : ℚ} (hq : 0 < q) {negative negative' : Bool} :
    signed negative q = signed negative' q ↔ negative = negative' := by
  have hSides : -q ≠ q := by linarith
  cases negative <;> cases negative' <;> simp [signed, hSides, hSides.symm]

/-! ## Digits -/

namespace Numeral

def value : Numeral → ℚ
  | finite negative digits exponent => signed negative (digits * 10 ^ exponent)
  | nan | infinite _ => 0

theorem digitsValue_eq (ds : List Char) : digitsValue ds = Nat.ofDigitChars 10 ds 0 :=
  Nat.ofDigitChars_eq_foldl.symm

theorem digitsValue_toString (n : Nat) : digitsValue (toString n).toList = n := by
  rw [Nat.toString_eq_repr, Nat.toList_repr, digitsValue_eq, Nat.ofDigitChars_ten_toDigits]

theorem digitsValue_zeros_append (k : Nat) (ds : List Char) :
    digitsValue (List.replicate k '0' ++ ds) = digitsValue ds := by
  rw [digitsValue_eq, Nat.ofDigitChars_append, Nat.ofDigitChars_replicate_zero, Nat.mul_zero,
    digitsValue_eq]

theorem digitsValue_append_zeros (ds : List Char) (k : Nat) :
    digitsValue (ds ++ List.replicate k '0') = digitsValue ds * 10 ^ k := by
  rw [digitsValue_eq, Nat.ofDigitChars_append, Nat.ofDigitChars_replicate_zero, digitsValue_eq,
    Nat.mul_comm]

theorem toLower_of_isDigit {c : Char} (h : c.isDigit = true) : c.toLower = c := by
  have hHigh : c.toNat ≤ 57 := (Char.isDigit_iff_toNat.mp h).2
  have hUpper : ¬ (c.val ≥ 'A'.val ∧ c.val ≤ 'Z'.val) := by
    rintro ⟨hLow, -⟩
    have hNat : 65 ≤ c.toNat := hLow
    omega
  rw [Char.toLower, dif_neg hUpper]

/-- A text that starts with a digit has no sign and is none of the words. -/
theorem parse?_of_isDigit {s : String} {negative : Bool} {c : Char} {cs : List Char}
    (hSign : takeSign s.toList = (negative, c :: cs)) (hDigit : c.isDigit = true) :
    parse? s =
      let (whole, rest) := spanDigits (c :: cs)
      let (fraction, rest) := fractionDigits rest
      if whole.isEmpty && fraction.isEmpty then none
      else (exponent? rest).map fun e =>
        finite negative (digitsValue (whole ++ fraction)) (e - fraction.length) := by
  have hWord {d : Char} {w : List Char} (hd : d.isDigit = false) :
      String.ofList ((c :: cs).map Char.toLower) ≠ String.ofList (d :: w) := by
    intro hEq
    rw [String.ofList_inj, List.map_cons, List.cons.injEq, toLower_of_isDigit hDigit] at hEq
    rw [← hEq.1, hDigit] at hd
    cases hd
  have hNan : String.ofList ((c :: cs).map Char.toLower) ≠ "nan" := hWord (d := 'n') (by decide)
  have hInf : String.ofList ((c :: cs).map Char.toLower) ≠ "inf" := hWord (d := 'i') (by decide)
  have hInfinity : String.ofList ((c :: cs).map Char.toLower) ≠ "infinity" :=
    hWord (d := 'i') (by decide)
  unfold parse?
  simp only [hSign, hNan, hInf, hInfinity, if_false, Bool.or_false, decide_false,
    Bool.false_eq_true]

theorem spanDigits_append {ds rest : List Char} (hDigits : ∀ c ∈ ds, c.isDigit = true)
    (hRest : ∀ c ∈ rest.head?, c.isDigit = false) : spanDigits (ds ++ rest) = (ds, rest) := by
  have hTake : rest.takeWhile Char.isDigit = [] ∧ rest.dropWhile Char.isDigit = rest := by
    cases rest with
    | nil => exact ⟨rfl, rfl⟩
    | cons c rest =>
        have hc := hRest c rfl
        simp [hc]
  rw [spanDigits, List.takeWhile_append_of_pos hDigits, List.dropWhile_append_of_pos hDigits,
    hTake.1, hTake.2, List.append_nil]

end Numeral

theorem isDigit_of_mem_toString {n : Nat} {c : Char} (h : c ∈ (toString n).toList) :
    c.isDigit = true := by
  rw [Nat.toString_eq_repr, Nat.toList_repr] at h
  exact Nat.isDigit_of_mem_toDigits (by decide) (by decide) h

theorem toString_toList_ne_nil (n : Nat) : (toString n).toList ≠ [] := by
  rw [Nat.toString_eq_repr, Nat.toList_repr]
  exact Nat.toDigits_ne_nil

theorem getLast?_toString_ne {n : Nat} (h : n % 10 ≠ 0) :
    (toString n).toList.getLast? ≠ some '0' := by
  have hDigit : ∀ k < 10, k ≠ 0 → Nat.digitChar k ≠ '0' := by decide
  rw [Nat.toString_eq_repr, Nat.toList_repr, Nat.toDigits_eq_if (by decide)]
  split
  · rename_i hSmall
    simpa using hDigit n hSmall (by omega)
  · simpa using hDigit (n % 10) (Nat.mod_lt n (by decide)) h

/-! ## Numerals -/

/-- A sign, digits, and behind a point, if there is one, more digits. -/
structure PlainNumeral where
  negative : Bool
  whole : List Char
  fraction : List Char

namespace PlainNumeral

def pointed : List Char → List Char
  | [] => []
  | ds => '.' :: ds

def text (p : PlainNumeral) : String :=
  String.ofList ((if p.negative then ['-'] else []) ++ (p.whole ++ pointed p.fraction))

/-- What the numeral denotes: the number of all its digits, and the place of the point. -/
def numeral (p : PlainNumeral) : Numeral :=
  .finite p.negative (Numeral.digitsValue (p.whole ++ p.fraction)) (-p.fraction.length)

def value (p : PlainNumeral) : ℚ :=
  p.numeral.value

/-- There are digits and only digits, none before the point is missing, and no zero ends what stands
behind it. A minus sign stands before numbers other than zero. -/
structure Proper (p : PlainNumeral) : Prop where
  digits : ∀ c ∈ p.whole ++ p.fraction, c.isDigit = true
  whole_ne : p.whole ≠ []
  trimmed : p.fraction.getLast? ≠ some '0'
  minus : p.negative = true → p.value ≠ 0

theorem parse?_text {p : PlainNumeral} (hDigits : ∀ c ∈ p.whole ++ p.fraction, c.isDigit = true)
    (hWhole : p.whole ≠ []) : Numeral.parse? p.text = some p.numeral := by
  obtain ⟨negative, whole, fraction⟩ := p
  obtain ⟨c, cs, rfl⟩ := List.exists_cons_of_ne_nil hWhole
  have hFirst : c.isDigit = true := hDigits c (by simp)
  obtain ⟨hHead, hTail⟩ := List.forall_mem_append.mp hDigits
  have hSign : Numeral.takeSign (text ⟨negative, c :: cs, fraction⟩).toList =
      (negative, c :: (cs ++ pointed fraction)) := by
    rw [text, String.toList_ofList]
    cases negative with
    | true => rfl
    | false =>
        have hMinus : c ≠ '-' := by rintro rfl; exact absurd hFirst (by decide)
        have hPlus : c ≠ '+' := by rintro rfl; exact absurd hFirst (by decide)
        simp [Numeral.takeSign, hMinus, hPlus]
  have hWholeSpan : Numeral.spanDigits (c :: (cs ++ pointed fraction)) =
      (c :: cs, pointed fraction) := by
    refine Numeral.spanDigits_append hHead fun d hd => ?_
    cases fraction with
    | nil => cases hd
    | cons d' ds =>
        obtain rfl : '.' = d := Option.some_inj.mp hd
        decide
  have hFraction : Numeral.fractionDigits (pointed fraction) = (fraction, []) := by
    cases fraction with
    | nil => rfl
    | cons d ds =>
        have hSpan : Numeral.spanDigits (d :: ds ++ []) = (d :: ds, []) :=
          Numeral.spanDigits_append hTail (by simp)
        rwa [List.append_nil] at hSpan
  rw [Numeral.parse?_of_isDigit hSign hFirst, hWholeSpan]
  simp [hFraction, Numeral.exponent?, numeral]

/-! ## Decimals -/

def ofDecimal (negative : Bool) (d : Decimal) : PlainNumeral :=
  let ds := (toString d.digits).toList
  let places := (-d.exponent).toNat
  if 0 ≤ d.exponent then ⟨negative, ds ++ List.replicate d.exponent.toNat '0', []⟩
  else if places < ds.length then
    ⟨negative, ds.take (ds.length - places), ds.drop (ds.length - places)⟩
  else ⟨negative, ['0'], List.replicate (places - ds.length) '0' ++ ds⟩

variable (negative : Bool) (d : Decimal)

theorem negative_ofDecimal : (ofDecimal negative d).negative = negative := by
  unfold ofDecimal
  dsimp only
  split
  · rfl
  · split <;> rfl

theorem whole_append_pointed_ofDecimal :
    (ofDecimal negative d).whole ++ pointed (ofDecimal negative d).fraction =
      (Layout.plain.positionalText d).toList := by
  have hPointed {ds : List Char} (h : ds ≠ []) : pointed ds = '.' :: ds := by
    cases ds with
    | nil => exact absurd rfl h
    | cons => rfl
  have hSome := toString_toList_ne_nil d.digits
  unfold ofDecimal Layout.positionalText
  dsimp only
  split
  · simp [Layout.zeros, Layout.plain, pointed]
  · split
    · have hFraction : (toString d.digits).toList.drop
          ((toString d.digits).toList.length - (-d.exponent).toNat) ≠ [] := by
        rw [ne_eq, List.drop_eq_nil_iff]
        omega
      rw [hPointed hFraction]
      simp
    · rw [hPointed (List.append_ne_nil_of_right_ne_nil _ hSome)]
      simp [Layout.zeros]

theorem text_ofDecimal :
    (ofDecimal negative d).text =
      if negative then "-" ++ Layout.plain.positionalText d else Layout.plain.positionalText d := by
  rw [text, negative_ofDecimal, whole_append_pointed_ofDecimal, String.ofList_append,
    String.ofList_toList]
  cases negative with
  | true => rfl
  | false => exact String.toList_inj.mp (by simp)

theorem isDigit_of_mem_ofDecimal :
    ∀ c ∈ (ofDecimal negative d).whole ++ (ofDecimal negative d).fraction, c.isDigit = true := by
  have hDigits : ∀ c ∈ (toString d.digits).toList, c.isDigit = true :=
    fun c hc => isDigit_of_mem_toString hc
  have hZeros (n : Nat) : ∀ c ∈ List.replicate n '0', c.isDigit = true := by
    intro c hc
    rw [(List.mem_replicate.mp hc).2]
    rfl
  unfold ofDecimal
  dsimp only
  split
  · rw [List.append_nil]
    exact List.forall_mem_append.mpr ⟨hDigits, hZeros _⟩
  · split
    · rwa [List.take_append_drop]
    · exact List.forall_mem_append.mpr
        ⟨hZeros 1, List.forall_mem_append.mpr ⟨hZeros _, hDigits⟩⟩

theorem whole_ofDecimal_ne_nil : (ofDecimal negative d).whole ≠ [] := by
  have hSome := toString_toList_ne_nil d.digits
  unfold ofDecimal
  dsimp only
  split
  · exact List.append_ne_nil_of_left_ne_nil hSome _
  · split
    · rename_i hNegative hInside
      rw [ne_eq, List.take_eq_nil_iff, not_or]
      exact ⟨by omega, hSome⟩
    · exact List.cons_ne_nil _ _

theorem getLast?_fraction_ofDecimal_ne (h : d.digits % 10 ≠ 0 ∨ 0 ≤ d.exponent) :
    (ofDecimal negative d).fraction.getLast? ≠ some '0' := by
  unfold ofDecimal
  dsimp only
  split
  · simp
  · rename_i hNegative
    have hLast := getLast?_toString_ne (h.resolve_right hNegative)
    split
    · rw [List.getLast?_drop]
      split
      · simp
      · exact hLast
    · rwa [List.getLast?_append_of_ne_nil _ (toString_toList_ne_nil _)]

theorem value_ofDecimal : (ofDecimal negative d).value = signed negative d.value := by
  have hTen : (10 : ℚ) ≠ 0 := by norm_num
  have hValue {whole fraction : List Char} {q : ℚ}
      (h : Numeral.digitsValue (whole ++ fraction) * (10 : ℚ) ^ (-(fraction.length : Int)) = q) :
      (PlainNumeral.mk negative whole fraction).value = signed negative q :=
    congrArg (signed negative) h
  unfold ofDecimal
  dsimp only
  rw [Decimal.value]
  split
  · rename_i hExponent
    refine hValue ?_
    rw [List.append_nil, Numeral.digitsValue_append_zeros, Numeral.digitsValue_toString,
      List.length_nil, Nat.cast_zero, neg_zero, zpow_zero, mul_one, Nat.cast_mul, Nat.cast_pow,
      Nat.cast_ofNat, ← zpow_natCast, Int.toNat_of_nonneg hExponent]
  · rename_i hNegative
    split
    · rename_i hInside
      refine hValue ?_
      rw [List.take_append_drop, Numeral.digitsValue_toString, List.length_drop]
      congr 2
      omega
    · rename_i hOutside
      refine hValue ?_
      have hZeros (n : Nat) : ['0'] ++ List.replicate n '0' = List.replicate (n + 1) '0' := rfl
      rw [List.length_append, List.length_replicate, ← List.append_assoc, hZeros,
        Numeral.digitsValue_zeros_append, Numeral.digitsValue_toString]
      congr 2
      omega

theorem proper_ofDecimal {negative : Bool} {d : Decimal}
    (hTrimmed : d.digits % 10 ≠ 0 ∨ 0 ≤ d.exponent) (hMinus : negative = true → d.value ≠ 0) :
    (ofDecimal negative d).Proper where
  digits := isDigit_of_mem_ofDecimal negative d
  whole_ne := whole_ofDecimal_ne_nil negative d
  trimmed := getLast?_fraction_ofDecimal_ne negative d hTrimmed
  minus h := by
    rw [negative_ofDecimal] at h
    rw [value_ofDecimal, ne_eq, ← abs_eq_zero, abs_signed, abs_eq_zero]
    exact hMinus h

end PlainNumeral

end Diaporama
