import Diaporama.Json.Value
import Diaporama.Proofs.Decimal.Plain
import Diaporama.Proofs.Decimal.Text
import Diaporama.Proofs.Json.Deciding
import Diaporama.Proofs.Text.Bytes

/-!
# Numbers are read back

A scan of a number takes what it takes wherever nothing follows that would go on with the number.
So a number that is read back by itself is read back inside any text. Integers that fit in 64 bits
are; of a double it has to be known.
-/

namespace Diaporama.Json

open Text (bytes)

def ReadsBack (x : Float) : Prop :=
  (read Reader.real (realText x).toUTF8).result = .ok x

theorem readsBack_of_toOption {x : Float}
    (h : (read Reader.real (realText x).toUTF8).result.toOption = some x) : ReadsBack x := by
  unfold ReadsBack
  cases hRead : (read Reader.real (realText x).toUTF8).result with
  | ok y =>
    rw [hRead] at h
    exact congrArg Except.ok (Option.some.inj h)
  | error fault =>
    rw [hRead] at h
    cases h

/-! ## Space in a text -/

def blanks : List Char := [' ', '\t', '\n', '\r']

def isBlank (c : Char) : Bool :=
  blanks.contains c

theorem isBlank_eq_false {p : Char → Bool} (hClass : blanks.any p = false) {c : Char}
    (hc : p c = true) : isBlank c = false := by
  by_contra hBlank
  rw [Bool.not_eq_false, isBlank, List.contains_iff_mem] at hBlank
  exact absurd hc (List.any_eq_false.mp hClass c hBlank)

theorem isSpace_eq_isBlank (b : UInt8) : isSpace b = isBlank (Char.ofUInt8 b) := by
  have hByte (a : UInt8) : b = a ↔ Char.ofUInt8 b = Char.ofUInt8 a := Text.ofUInt8_inj.symm
  rw [Bool.eq_iff_iff, isBlank, List.contains_iff_mem]
  simp only [isSpace, blanks, Bool.or_eq_true, decide_eq_true_eq, hByte 0x20, hByte 0x09,
    hByte 0x0A, hByte 0x0D, List.mem_cons, List.not_mem_nil, or_false, or_assoc]
  rfl

theorem isSpace_of_mem_utf8EncodeChar {c : Char} {b : UInt8} (hb : b ∈ String.utf8EncodeChar c) :
    isSpace b = isBlank c := by
  by_cases hSmall : c.toNat < 128
  · rw [Text.utf8EncodeChar_of_lt hSmall, List.mem_singleton] at hb
    have hChar : Char.ofUInt8 b = c := by
      rw [← Char.toNat_inj, Text.toNat_ofUInt8, hb, UInt8.toNat_ofNat', Nat.mod_eq_of_lt (by omega)]
    rw [isSpace_eq_isBlank, hChar]
  · have hBlank {d : Char} (hd : decide (128 ≤ d.toNat) = true) : isBlank d = false :=
      isBlank_eq_false (p := fun d => decide (128 ≤ d.toNat)) (by decide) hd
    have hHigh := Text.high_of_mem_utf8EncodeChar (Nat.not_lt.mp hSmall) hb
    rw [← Text.toNat_ofUInt8] at hHigh
    rw [isSpace_eq_isBlank, hBlank (decide_eq_true hHigh),
      hBlank (decide_eq_true (Nat.not_lt.mp hSmall))]

theorem isSpace_of_mem_bytes {s : String} {b : UInt8} (hb : b ∈ bytes s) :
    ∃ c ∈ s.toList, isSpace b = isBlank c := by
  rw [Text.bytes_eq_flatMap] at hb
  obtain ⟨c, hc, hb⟩ := List.mem_flatMap.mp hb
  exact ⟨c, hc, isSpace_of_mem_utf8EncodeChar hb⟩

/-! ## Where a number ends -/

def Ends (p : UInt8 → Bool) (bs : List UInt8) : Prop :=
  ∀ b ∈ bs.head?, p b = false

def isDigitByte (b : UInt8) : Bool :=
  (digit? b).isSome

def isWholeByte (b : UInt8) : Bool :=
  isDigitByte b || b == 0x2E

def isNumberByte (b : UInt8) : Bool :=
  isWholeByte b || Char.ofUInt8 b == 'e' || Char.ofUInt8 b == 'E'

namespace Ends

variable {p q : UInt8 → Bool} {bs used rest : List UInt8}

theorem mono (h : Ends q bs) (hClass : ∀ b, p b = true → q b = true) : Ends p bs := by
  intro b hb
  by_contra hp
  have hq := h b hb
  rw [hClass b (Bool.not_eq_false _ ▸ hp)] at hq
  cases hq

theorem append (hUsed : Ends p used) (hRest : Ends p rest) : Ends p (used ++ rest) := by
  cases used with
  | nil => exact hRest
  | cons b bs => exact hUsed

theorem isDigit_of_isWhole (h : Ends isWholeByte bs) : Ends isDigitByte bs :=
  h.mono fun b hb => by simp [isWholeByte, hb]

theorem isWhole_of_isNumber (h : Ends isNumberByte bs) : Ends isWholeByte bs :=
  h.mono fun b hb => by simp [isNumberByte, hb]

end Ends

/-! ## What a scan takes -/

/-- The scan takes `used` for `a` in front of all that does not go on with the class. -/
def Takes {α : Type} (f : List UInt8 → Except SyntaxFault (Scanned α)) (p : UInt8 → Bool)
    (used : List UInt8) (a : α) : Prop :=
  ∀ rest, Ends p rest → f (used ++ rest) = .ok (a, rest)

theorem spanDigits_of_ends {rest : List UInt8} (h : Ends isDigitByte rest) :
    spanDigits rest = ([], rest) := by
  cases rest with
  | nil => rfl
  | cons b bs =>
    have hNone : digit? b = none := by simpa [isDigitByte] using h b rfl
    rw [spanDigits, hNone]

theorem exists_spanDigits (bs : List UInt8) : ∃ used, bs = used ++ (spanDigits bs).2 ∧
    ∀ rest, Ends isDigitByte rest → spanDigits (used ++ rest) = ((spanDigits bs).1, rest) := by
  fun_induction spanDigits bs with
  | case1 => exact ⟨[], rfl, fun rest hRest => spanDigits_of_ends hRest⟩
  | case2 b bs d hDigit ds rest hSpan ih =>
    rw [hSpan] at ih
    obtain ⟨used, rfl, hUsed⟩ := ih
    refine ⟨b :: used, rfl, fun rest' hRest => ?_⟩
    simp only [List.cons_append, spanDigits, hDigit, hUsed rest' hRest]
  | case3 b bs hNone => exact ⟨[], rfl, fun rest hRest => spanDigits_of_ends hRest⟩

section

variable {bs rest : List UInt8}

theorem scanDigits_of_spanDigits {ds : List Nat} (hSome : ds ≠ [])
    (hSpan : spanDigits bs = (ds, rest)) : scanDigits bs = .ok (ds, rest) := by
  obtain ⟨d, more, rfl⟩ := List.exists_cons_of_ne_nil hSome
  cases bs with
  | nil => cases hSpan
  | cons b tail => simp only [scanDigits, hSpan]

theorem exists_takes_scanDigits {ds : List Nat} (h : scanDigits bs = .ok (ds, rest)) :
    ∃ used, bs = used ++ rest ∧ Takes scanDigits isDigitByte used ds := by
  obtain ⟨hSome, hSpan⟩ := scanDigits_eq_ok h
  obtain ⟨used, hBytes, hUsed⟩ := exists_spanDigits bs
  rw [hSpan] at hBytes hUsed
  exact ⟨used, hBytes, fun rest' hRest => scanDigits_of_spanDigits hSome (hUsed rest' hRest)⟩

theorem Takes.opens_digit {used : List UInt8} {ds : List Nat}
    (h : Takes scanDigits isDigitByte used ds) :
    ∃ b tail, used = b :: tail ∧ isDigitByte b = true := by
  have hAlone := h [] nofun
  rw [List.append_nil] at hAlone
  obtain ⟨b, tail, d, rfl, hDigit⟩ := digit?_of_scanDigits hAlone
  exact ⟨b, tail, rfl, by rw [isDigitByte, hDigit]; rfl⟩

theorem scanWhole_eq_ok_iff {ds : List Nat} : scanWhole bs = .ok (ds, rest) ↔
    scanDigits bs = .ok (ds, rest) ∧ ∀ d more, ds ≠ 0 :: d :: more := by
  unfold scanWhole
  cases hDigits : scanDigits bs with
  | error fault => exact ⟨nofun, nofun⟩
  | ok found =>
    rw [ok_bind]
    split
    · next d more left =>
      refine ⟨nofun, ?_⟩
      rintro ⟨⟨⟩, hPlain⟩
      exact absurd rfl (hPlain d more)
    · next hPlain =>
      refine ⟨fun h => ⟨h, ?_⟩, And.left⟩
      rintro d more rfl
      cases h
      exact hPlain d more rest rfl

theorem exists_takes_scanWhole {ds : List Nat} (h : scanWhole bs = .ok (ds, rest)) :
    ∃ used, bs = used ++ rest ∧ Takes scanWhole isDigitByte used ds := by
  obtain ⟨hDigits, hPlain⟩ := scanWhole_eq_ok_iff.mp h
  obtain ⟨used, hBytes, hUsed⟩ := exists_takes_scanDigits hDigits
  exact ⟨used, hBytes, fun rest' hRest => scanWhole_eq_ok_iff.mpr ⟨hUsed rest' hRest, hPlain⟩⟩

theorem scanFraction_of_ends (h : Ends isWholeByte rest) :
    scanFraction rest = .ok (none, rest) := by
  unfold scanFraction
  split
  · cases h 0x2E rfl
  · rfl

theorem exists_takes_scanFraction {ds : Option (List Nat)} (h : scanFraction bs = .ok (ds, rest)) :
    ∃ used, bs = used ++ rest ∧ Ends isDigitByte used ∧
      Takes scanFraction isWholeByte used ds := by
  unfold scanFraction at h
  split at h
  · obtain ⟨⟨digits, left⟩, hDigits, hFraction⟩ := map_eq_ok_iff.mp h
    cases hFraction
    obtain ⟨used, rfl, hUsed⟩ := exists_takes_scanDigits hDigits
    have hPoint : isDigitByte 0x2E = false := rfl
    refine ⟨0x2E :: used, rfl, ?_, fun rest' hRest => ?_⟩
    · rintro _ ⟨⟩
      exact hPoint
    · change (scanDigits (used ++ rest')).map _ = _
      rw [hUsed rest' hRest.isDigit_of_isWhole]
      rfl
  · cases h
    exact ⟨[], rfl, nofun, fun rest' hRest => scanFraction_of_ends hRest⟩

theorem exists_exponentSign (bs : List UInt8) : ∃ mark, bs = mark ++ (exponentSign bs).2 ∧
    ∀ b more, isDigitByte b = true →
      exponentSign (mark ++ b :: more) = ((exponentSign bs).1, b :: more) := by
  have hPlain (b : UInt8) (more : List UInt8) (hb : isDigitByte b = true) :
      exponentSign (b :: more) = (false, b :: more) := by
    unfold exponentSign
    split
    · next h => cases h; cases hb
    · next h => cases h; cases hb
    · rfl
  fun_cases exponentSign bs with
  | case1 more => exact ⟨[0x2B], rfl, fun _ _ _ => rfl⟩
  | case2 more => exact ⟨[0x2D], rfl, fun _ _ _ => rfl⟩
  | case3 => exact ⟨[], rfl, hPlain⟩

theorem scanExponent_of_ends (h : Ends isNumberByte rest) :
    scanExponent rest = .ok (none, rest) := by
  cases rest with
  | nil => rfl
  | cons b more =>
    have hByte := h b rfl
    simp only [isNumberByte, Bool.or_eq_false_iff, beq_eq_false_iff_ne] at hByte
    simp [scanExponent, hByte.1.2, hByte.2]

theorem isWholeByte_of_isExponentMark {b : UInt8}
    (h : Char.ofUInt8 b = 'e' ∨ Char.ofUInt8 b = 'E') : isWholeByte b = false := by
  obtain h | h := h
  · rw [Text.ofUInt8_inj.mp (show Char.ofUInt8 b = Char.ofUInt8 0x65 from h)]
    rfl
  · rw [Text.ofUInt8_inj.mp (show Char.ofUInt8 b = Char.ofUInt8 0x45 from h)]
    rfl

theorem exists_takes_scanExponent {e : Option (Bool × List Nat)}
    (h : scanExponent bs = .ok (e, rest)) :
    ∃ used, bs = used ++ rest ∧ Ends isWholeByte used ∧
      Takes scanExponent isNumberByte used e := by
  unfold scanExponent at h
  split at h
  · next b tail =>
    split at h
    · next hMark =>
      obtain ⟨mark, hTail, hSign⟩ := exists_exponentSign tail
      rcases hSigned : exponentSign tail with ⟨negative, behind⟩
      rw [hSigned] at h hTail hSign
      obtain ⟨⟨digits, left⟩, hDigits, hExponent⟩ := map_eq_ok_iff.mp h
      cases hExponent
      obtain ⟨used, hBytes, hUsed⟩ := exists_takes_scanDigits hDigits
      obtain ⟨first, more, rfl, hFirst⟩ := hUsed.opens_digit
      have hPlain : isWholeByte b = false :=
        isWholeByte_of_isExponentMark (by simpa using hMark)
      refine ⟨b :: (mark ++ (first :: more)), ?_, ?_, fun rest' hRest => ?_⟩
      · rw [hTail, hBytes]
        simp
      · rintro _ ⟨⟩
        exact hPlain
      · have hMore := hUsed rest' hRest.isWhole_of_isNumber.isDigit_of_isWhole
        have hFront := hSign first (more ++ rest') hFirst
        simp only [List.cons_append, List.append_assoc, scanExponent, hMark, if_true]
        rw [hFront]
        exact map_eq_ok_iff.mpr ⟨_, hMore, rfl⟩
    · cases h
      exact ⟨[], rfl, nofun, fun rest' hRest => scanExponent_of_ends hRest⟩
  · cases h
    exact ⟨[], rfl, nofun, fun rest' hRest => scanExponent_of_ends hRest⟩

theorem exists_takes_scanNumber {negative : Bool} {d : Digits}
    (h : scanNumber negative bs = .ok (d, rest)) :
    ∃ used, bs = used ++ rest ∧ Takes (scanNumber negative) isNumberByte used d := by
  obtain ⟨⟨whole, afterWhole⟩, hWhole, h⟩ := bind_eq_ok_iff.mp h
  obtain ⟨⟨fraction, afterFraction⟩, hFraction, h⟩ := bind_eq_ok_iff.mp h
  obtain ⟨⟨exponent, afterExponent⟩, hExponent, h⟩ := bind_eq_ok_iff.mp h
  cases h
  obtain ⟨wholeUsed, rfl, hTakesWhole⟩ := exists_takes_scanWhole hWhole
  obtain ⟨fractionUsed, rfl, hPoint, hTakesFraction⟩ := exists_takes_scanFraction hFraction
  obtain ⟨exponentUsed, rfl, hMark, hTakesExponent⟩ := exists_takes_scanExponent hExponent
  refine ⟨wholeUsed ++ (fractionUsed ++ exponentUsed), by simp, fun rest' hRest => ?_⟩
  have hAfterFraction : Ends isWholeByte (exponentUsed ++ rest') :=
    hMark.append hRest.isWhole_of_isNumber
  have hAfterWhole : Ends isDigitByte (fractionUsed ++ (exponentUsed ++ rest')) :=
    hPoint.append hAfterFraction.isDigit_of_isWhole
  simp only [List.append_assoc, scanNumber, hTakesWhole _ hAfterWhole,
    hTakesFraction _ hAfterFraction, hTakesExponent _ hRest, ok_bind]
  rfl

end

/-! ## Doubles -/

/-- Where a number is read there are digits, and no number is read where there are none. -/
theorem refuses_numberOf_or (expected : String) (bs : List UInt8) :
    Refuses (Reader.numberOf expected) bs ∨ ∃ d rest, DigitsAt d bs rest := by
  cases hDrop : dropSpace bs with
  | nil => exact .inl (Refuses.bind ((Reads.peek_end hDrop).bind_refuses (.throw _ _)) _)
  | cons b tail =>
    have hStart := Reads.start hDrop
    by_cases hMinus : Char.ofUInt8 b = '-'
    · have hMark : MarkAt '-' bs tail := ⟨b, hDrop, hMinus⟩
      cases hScan : scanNumber true tail with
      | ok found => exact .inr ⟨found.1, found.2, .inr ⟨tail, hMark, hScan⟩⟩
      | error cause =>
        refine .inl (hMark.start.bind_refuses ?_)
        exact hMark.skip.bind_refuses (Refuses.bind (refuses_scan hScan) _)
    · by_cases hDigit : (Char.ofUInt8 b).isDigit = true
      · cases hScan : scanNumber false (dropSpace bs) with
        | ok found => exact .inr ⟨found.1, found.2, .inl hScan⟩
        | error cause =>
          refine .inl (hStart.bind_refuses ?_)
          rw [if_pos (by simp [hDigit])]
          unfold Reader.number
          rw [if_neg hMinus, beq_false_of_ne hMinus]
          exact Refuses.bind (refuses_scan hScan) _
      · refine .inl (hStart.bind_refuses ?_)
        rw [if_neg (by simp [hMinus, hDigit])]
        exact refuses_refuse expected _ _

/-- A text that is read as a double is one number, perhaps with space around it. -/
theorem exists_number_of_read {text : ByteArray} {x : Float}
    (h : (read Reader.real text).result = .ok x) :
    ∃ d n rest, DigitsAt d text.toList rest ∧ d.toNumber = .ok n ∧ n.toFloat = x ∧
      dropSpace rest = [] := by
  have hFault : ¬ Refuses (Reader.whole Reader.real) text.toList := by
    intro hWhole
    obtain ⟨fault, cursor, hRun⟩ := hWhole []
    have hError : (read Reader.real text).result = .error fault := congrArg Prod.fst hRun
    rw [h] at hError
    cases hError
  rcases refuses_numberOf_or "f64" text.toList with hNone | ⟨d, rest, hDigits⟩
  · exact absurd ((hNone.bind _).bind _) hFault
  · have hReal : Settles Reader.real text.toList rest
        fun x => ∃ n, d.toNumber = .ok n ∧ n.toFloat = x :=
      (hDigits.settles_numberOf "f64").bind_reads fun n => by cases n <;> exact .pure _ rest
    by_cases hSome : ∃ x n, d.toNumber = .ok n ∧ n.toFloat = x
    · obtain ⟨y, hy⟩ := hSome
      have hReads := hReal.reads y hy
      cases hEnd : dropSpace rest with
      | nil =>
        rw [result_read_of_reads hReads hEnd] at h
        cases h
        obtain ⟨n, hNumber, hFloat⟩ := hy
        exact ⟨d, n, rest, hDigits, hNumber, hFloat, hEnd⟩
      | cons b tail =>
        exact absurd (hReads.bind_refuses ((Reads.peek hEnd).bind_refuses (.throw _ _))) hFault
    · exact absurd ((hReal.refuses (not_exists.mp hSome)).bind _) hFault

theorem dropSpace_append {b : UInt8} {bs tail rest : List UInt8} (h : dropSpace bs = b :: tail) :
    dropSpace (bs ++ rest) = b :: (tail ++ rest) := by
  rw [dropSpace, List.dropWhile_append, ← dropSpace, h]
  rfl

theorem DigitsAt.suffix {d : Digits} {bs rest : List UInt8} (h : DigitsAt d bs rest) :
    rest <:+ bs := by
  have hDrop : dropSpace bs <:+ bs := List.dropWhile_suffix isSpace
  obtain hScan | ⟨inner, ⟨b, hMark, -⟩, hScan⟩ := h
  · obtain ⟨used, hBytes, -⟩ := exists_takes_scanNumber hScan
    exact .trans ⟨used, hBytes.symm⟩ hDrop
  · obtain ⟨used, rfl, -⟩ := exists_takes_scanNumber hScan
    rw [hMark] at hDrop
    exact .trans ⟨b :: used, rfl⟩ hDrop

theorem DigitsAt.append {d : Digits} {bs rest : List UInt8} (h : DigitsAt d bs [])
    (hRest : Ends isNumberByte rest) : DigitsAt d (bs ++ rest) rest := by
  obtain hScan | ⟨inner, ⟨b, hDrop, hMinus⟩, hScan⟩ := h
  · obtain ⟨b, tail, hDrop, -⟩ := isDigit_of_scanNumber hScan
    rw [hDrop] at hScan
    obtain ⟨used, hBytes, hTakes⟩ := exists_takes_scanNumber hScan
    rw [List.append_nil] at hBytes
    refine .inl ?_
    rw [dropSpace_append hDrop, ← List.cons_append, hBytes]
    exact hTakes rest hRest
  · obtain ⟨used, rfl, hTakes⟩ := exists_takes_scanNumber hScan
    rw [List.append_nil] at hDrop
    exact .inr ⟨used ++ rest, ⟨b, dropSpace_append hDrop, hMinus⟩, hTakes rest hRest⟩

theorem numeric_realText (x : Float) : Text.Within Layout.isNumeric (realText x) := by
  unfold realText
  split
  · exact numberLayout.numeric_text x
  · decide

/-- A double that is read back by itself is read back in front of all that does not go on with a
number. -/
theorem ReadsBack.numberAt {x : Float} (h : ReadsBack x) {rest : List UInt8}
    (hRest : Ends isNumberByte rest) :
    ∃ n, n.toFloat = x ∧ NumberAt n (bytes (realText x) ++ rest) rest := by
  obtain ⟨d, n, left, hDigits, hNumber, hFloat, hLeft⟩ := exists_number_of_read h
  change DigitsAt d (bytes (realText x)) left at hDigits
  have hNone : left = [] := by
    refine List.eq_nil_iff_forall_not_mem.mpr fun b hb => ?_
    have hSpace : isSpace b = true := List.dropWhile_eq_nil_iff.mp hLeft b hb
    obtain ⟨c, hc, hSame⟩ := isSpace_of_mem_bytes (hDigits.suffix.subset hb)
    rw [hSpace, isBlank_eq_false (by decide) (numeric_realText x c hc)] at hSame
    cases hSame
  rw [hNone] at hDigits
  exact ⟨n, hFloat, numberAt_iff.mpr ⟨d, hDigits.append hRest, hNumber⟩⟩

/-! ## Integers -/

def digitValue (c : Char) : Nat :=
  c.toNat - 48

theorem spanDigits_append_of_isDigit {cs : List Char} (h : ∀ c ∈ cs, c.isDigit = true)
    {rest : List UInt8} (hRest : Ends isDigitByte rest) :
    spanDigits (cs.flatMap String.utf8EncodeChar ++ rest) = (cs.map digitValue, rest) := by
  induction cs with
  | nil => exact spanDigits_of_ends hRest
  | cons c cs ih =>
    obtain ⟨hFirst, hMore⟩ := List.forall_mem_cons.mp h
    have hRange : 48 ≤ c.toNat ∧ c.toNat ≤ 57 := Char.isDigit_iff_toNat.mp hFirst
    have hByte : (UInt8.ofNat c.toNat).toNat = c.toNat := by
      rw [UInt8.toNat_ofNat', Nat.mod_eq_of_lt (by omega)]
    have hDigit : digit? (UInt8.ofNat c.toNat) = some (digitValue c) := by
      simp [digit?, digitValue, hByte, hRange.1, hRange.2]
    rw [List.flatMap_cons, Text.utf8EncodeChar_of_lt (by omega), List.append_assoc,
      List.singleton_append, spanDigits, hDigit, ih hMore]
    rfl

theorem absorb_of_lt {ds : List Nat} {m : Nat}
    (h : ds.foldl (fun n d => 10 * n + d) m < UInt64.size) :
    absorb m ds = (ds.foldl (fun n d => 10 * n + d) m, 0) := by
  have hLe : ∀ (ds : List Nat) (m : Nat), m ≤ ds.foldl (fun n d => 10 * n + d) m := by
    intro ds
    induction ds with
    | nil => exact fun m => Nat.le_refl m
    | cons d ds ih =>
      intro m
      have hNext := ih (10 * m + d)
      rw [List.foldl_cons]
      omega
  induction ds generalizing m with
  | nil => rfl
  | cons d ds ih =>
    have hFits : 10 * m + d < UInt64.size := Nat.lt_of_le_of_lt (hLe ds _) h
    rw [absorb, if_pos hFits, ih h, List.foldl_cons]

theorem head?_toDigits_ne {n : Nat} (h : 0 < n) : (Nat.toDigits 10 n).head? ≠ some '0' := by
  induction n using Nat.strongRecOn with
  | ind n ih =>
    by_cases hSmall : n < 10
    · have hDigit : ∀ k < 10, 0 < k → Nat.digitChar k ≠ '0' := by decide
      rw [Nat.toDigits_of_lt_base hSmall]
      simpa using hDigit n hSmall h
    · rw [Nat.toDigits_of_base_le (by decide) (Nat.not_lt.mp hSmall),
        List.head?_append_of_ne_nil _ Nat.toDigits_ne_nil]
      exact ih (n / 10) (by omega) (by omega)

/-- A zero stands alone. -/
theorem map_digitValue_toDigits_ne (n d : Nat) (more : List Nat) :
    (Nat.toDigits 10 n).map digitValue ≠ 0 :: d :: more := by
  intro hDigits
  obtain ⟨c, cs, hChars, hFirst, hMore⟩ := List.map_eq_cons_iff.mp hDigits
  rcases Nat.eq_zero_or_pos n with rfl | hn
  · rw [Nat.toDigits_zero] at hDigits
    cases hDigits
  · have hDigit : c.isDigit = true :=
      Nat.isDigit_of_mem_toDigits (by decide) (by decide) (hChars ▸ List.mem_cons_self)
    have hRange : 48 ≤ c.toNat ∧ c.toNat ≤ 57 := Char.isDigit_iff_toNat.mp hDigit
    have hZero : c.toNat = '0'.toNat := by
      change c.toNat - 48 = 0 at hFirst
      change c.toNat = 48
      omega
    refine head?_toDigits_ne hn ?_
    rw [hChars, Char.toNat_inj.mp hZero]
    rfl

theorem numberAt_natural {n : Nat} (h : n < UInt64.size) {rest : List UInt8}
    (hRest : Ends isNumberByte rest) :
    NumberAt (.natural n) (bytes (toString n) ++ rest) rest := by
  let ds := (Nat.toDigits 10 n).map digitValue
  have hBytes : bytes (toString n) = (Nat.toDigits 10 n).flatMap String.utf8EncodeChar := by
    rw [Text.bytes_eq_flatMap, Nat.toString_eq_repr, Nat.toList_repr]
  have hSpan : spanDigits (bytes (toString n) ++ rest) = (ds, rest) := by
    rw [hBytes]
    exact spanDigits_append_of_isDigit
      (fun c hc => Nat.isDigit_of_mem_toDigits (by decide) (by decide) hc)
      hRest.isWhole_of_isNumber.isDigit_of_isWhole
  have hDigits : scanDigits (bytes (toString n) ++ rest) = .ok (ds, rest) :=
    scanDigits_of_spanDigits (by simp [ds]) hSpan
  have hWhole : scanWhole (bytes (toString n) ++ rest) = .ok (ds, rest) :=
    scanWhole_eq_ok_iff.mpr ⟨hDigits, map_digitValue_toDigits_ne n⟩
  have hScan : scanNumber false (bytes (toString n) ++ rest) =
      .ok (⟨false, ds, none, none⟩, rest) := by
    simp only [scanNumber, hWhole, scanFraction_of_ends hRest.isWhole_of_isNumber,
      scanExponent_of_ends hRest, ok_bind]
    rfl
  have hValue : ds.foldl (fun n d => 10 * n + d) 0 = n := by
    rw [List.foldl_map]
    exact Nat.ofDigitChars_eq_foldl.symm.trans Nat.ofDigitChars_ten_toDigits
  have hNumber : (⟨false, ds, none, none⟩ : Digits).toNumber = .ok (.natural n) := by
    have hAbsorb : absorb 0 ds = (n, 0) := by
      rw [absorb_of_lt (hValue.symm ▸ h), hValue]
    simp [Digits.toNumber, hAbsorb]
  have hFront : dropSpace (bytes (toString n) ++ rest) = bytes (toString n) ++ rest := by
    obtain ⟨b, tail, d, hFirst, hDigit⟩ := digit?_of_scanDigits hDigits
    have hPlain : isSpace b = false := by
      rw [isSpace_eq_isBlank]
      exact isBlank_eq_false (by decide) (isDigit_of_digit? hDigit)
    rw [hFirst]
    exact List.dropWhile_cons_of_neg (Bool.eq_false_iff.mp hPlain)
  exact ⟨_, .inl (hFront.symm ▸ hScan), hNumber⟩

end Diaporama.Json
