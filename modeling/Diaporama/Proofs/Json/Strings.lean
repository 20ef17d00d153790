import Diaporama.Json.Value
import Diaporama.Proofs.Json.Grammar
import Diaporama.Proofs.Text.Bytes

/-!
# Strings are read back

A written string stands between quotes, with escapes for quotes, backslashes and control characters
and all else as it is. The scan gives back one character after the other, so whatever a string
holds, its text delivers it.
-/

namespace Diaporama.Json

open Text (bytes)

variable {done rest : List UInt8}

/-! ## Bytes that stand for themselves -/

/-- A byte inside a string that is neither a control character nor a quote nor a backslash. -/
structure IsPlain (b : UInt8) : Prop where
  control : 0x20 ≤ b.toNat
  quote : b.toNat ≠ 0x22
  backslash : b.toNat ≠ 0x5C

theorem scanBytes_plain {b : UInt8} (h : IsPlain b) :
    scanBytes true .text done (b :: rest) = scanBytes true .text (b :: done) rest := by
  have hStep : stringStep true .text b = .ok (.go [b] .text) := by
    have hNat := Text.toNat_ofUInt8 b
    simp only [stringStep]
    split
    · next hQuote => exact absurd (hNat.symm.trans (congrArg Char.toNat hQuote)) h.quote
    · next hBackslash =>
      exact absurd (hNat.symm.trans (congrArg Char.toNat hBackslash)) h.backslash
    · exact if_neg (Nat.not_lt.mpr h.control)
  rw [scanBytes, hStep]
  rfl

theorem scanBytes_plain_append {bs : List UInt8} (h : ∀ b ∈ bs, IsPlain b) :
    scanBytes true .text done (bs ++ rest) = scanBytes true .text (bs.reverse ++ done) rest := by
  induction bs generalizing done with
  | nil => rfl
  | cons b bs ih =>
    obtain ⟨hFirst, hMore⟩ := List.forall_mem_cons.mp h
    rw [List.cons_append, scanBytes_plain hFirst, ih hMore, List.reverse_cons, List.append_assoc]
    rfl

theorem isPlain_of_mem_utf8EncodeChar {c : Char} (hControl : 32 ≤ c.toNat) (hQuote : c ≠ '"')
    (hBackslash : c ≠ '\\') {b : UInt8} (hb : b ∈ String.utf8EncodeChar c) : IsPlain b := by
  have hNe {d : Char} (h : c ≠ d) : c.toNat ≠ d.toNat := fun hNat => h (Char.toNat_inj.mp hNat)
  by_cases hSmall : c.toNat < 128
  · rw [Text.utf8EncodeChar_of_lt hSmall, List.mem_singleton] at hb
    have hByte : b.toNat = c.toNat := by
      rw [hb, UInt8.toNat_ofNat', Nat.mod_eq_of_lt (by omega)]
    exact ⟨hByte ▸ hControl, hByte ▸ hNe hQuote, hByte ▸ hNe hBackslash⟩
  · have hHigh := Text.high_of_mem_utf8EncodeChar (Nat.not_lt.mp hSmall) hb
    constructor <;> omega

/-! ## Escapes -/

theorem scanBytes_letter {b b' : UInt8} (h : escapeStep b = .ok (.go [b'] .text)) :
    scanBytes true .text done (0x5C :: b :: rest) = scanBytes true .text (b' :: done) rest := by
  have hOpen : stringStep true .text 0x5C = .ok (.go [] .escape) := rfl
  have hLetter : stringStep true .escape b = .ok (.go [b'] .text) := h
  simp only [scanBytes, hOpen, hLetter]
  rfl

theorem charBytes_eq (n : Nat) : charBytes n = String.utf8EncodeChar (Char.ofNat n) := by
  change bytes (Char.ofNat n).toString = _
  rw [Text.bytes_eq_flatMap, Char.toString, String.toList_singleton, List.flatMap_singleton]

theorem hexDigit?_digitChar :
    ∀ n < 16, hexDigit? (UInt8.ofNat (Nat.digitChar n).toNat) = some n := by
  decide

theorem scanBytes_unit {high low : UInt8} {k n : Nat} {c : Char} (hHigh : hexDigit? high = some k)
    (hLow : hexDigit? low = some n) (hc : c.toNat = 16 * k + n) (hRange : c.toNat < 0xD800) :
    scanBytes true .text done ([0x5C, 0x75, 0x30, 0x30, high, low] ++ rest) =
      scanBytes true .text ((String.utf8EncodeChar c).reverse ++ done) rest := by
  have hOpen : stringStep true .text 0x5C = .ok (.go [] .escape) := rfl
  have hLetter : stringStep true .escape 0x75 = .ok (.go [] (.hex none [])) := rfl
  have hDigit {digits : List UInt8} {b : UInt8} (hFew : digits.length < 3) :
      stringStep true (.hex none digits) b = .ok (.go [] (.hex none (b :: digits))) := if_pos hFew
  have hUnit : stringStep true (.hex none [high, 0x30, 0x30]) low =
      .ok (.go (charBytes c.toNat) .text) := by
    have hZero : hexDigit? 0x30 = some 0 := rfl
    have hValue : hexValue? [low, high, 0x30, 0x30] = some c.toNat := by
      simp [hexValue?, hHigh, hLow, hZero, hc]
    have hTrail : isTrailSurrogate c.toNat = false := by
      simp only [isTrailSurrogate, Bool.and_eq_false_iff, decide_eq_false_iff_not]
      omega
    have hLead : isLeadSurrogate c.toNat = false := by
      simp only [isLeadSurrogate, Bool.and_eq_false_iff, decide_eq_false_iff_not]
      omega
    simp [stringStep, hValue, unitStep, hTrail, hLead]
  simp only [List.cons_append, List.nil_append, scanBytes, hOpen, hLetter, hDigit, hUnit,
    List.length_nil, List.length_cons, Nat.reduceAdd, Nat.reduceLT, charBytes_eq, Char.ofNat_toNat,
    List.reverse_nil]

theorem bytes_hex_of_lt {n : Nat} (h : n < 16) :
    bytes (Text.hex n) = [UInt8.ofNat (Nat.digitChar n).toNat] := by
  have hSmall : ∀ k < 16, (Nat.digitChar k).toNat < 128 := by decide
  rw [Text.hex, Nat.toDigits_of_lt_base h, Text.bytes_ofList, List.flatMap_singleton,
    Text.utf8EncodeChar_of_lt (hSmall n h)]

theorem bytes_hex_of_le {n : Nat} (h : 16 ≤ n) (hLt : n < 32) :
    bytes (Text.hex n) = [0x31, UInt8.ofNat (Nat.digitChar (n - 16)).toNat] := by
  have hSmall : ∀ k < 16, (Nat.digitChar k).toNat < 128 := by decide
  have hHigh : n / 16 = 1 := by omega
  have hLow : n % 16 = n - 16 := by omega
  rw [Text.hex, Nat.toDigits_of_base_le (by decide) h, hHigh, hLow, Text.bytes_ofList,
    Nat.toDigits_of_lt_base (by decide), List.flatMap_append, List.flatMap_singleton,
    List.flatMap_singleton, Text.utf8EncodeChar_of_lt (hSmall (n - 16) (by omega))]
  rfl

/-- However a character is written, it is what the scan takes up. -/
theorem scanBytes_escapeChar (c : Char) :
    scanBytes true .text done (bytes (escapeChar c) ++ rest) =
      scanBytes true .text ((String.utf8EncodeChar c).reverse ++ done) rest := by
  have hLetter {s : String} {b b' : UInt8}
      (hText : s.toList.flatMap String.utf8EncodeChar = [0x5C, b])
      (hStep : escapeStep b = .ok (.go [b'] .text)) (hc : String.utf8EncodeChar c = [b']) :
      scanBytes true .text done (bytes s ++ rest) =
        scanBytes true .text ((String.utf8EncodeChar c).reverse ++ done) rest := by
    rw [Text.bytes_eq_flatMap, hText, hc]
    exact scanBytes_letter hStep
  have hNumber {n : Nat} (hn : c.toNat = n) : c = Char.ofNat n := by
    rw [← hn, Char.ofNat_toNat]
  unfold escapeChar
  split_ifs with hQuote hBackslash hNewline hReturn hTab hBackspace hFeed hFirst hSecond
  · exact hLetter rfl rfl (hQuote ▸ rfl)
  · exact hLetter rfl rfl (hBackslash ▸ rfl)
  · exact hLetter rfl rfl (hNewline ▸ rfl)
  · exact hLetter rfl rfl (hReturn ▸ rfl)
  · exact hLetter rfl rfl (hTab ▸ rfl)
  · exact hLetter rfl rfl (hNumber hBackspace ▸ rfl)
  · exact hLetter rfl rfl (hNumber hFeed ▸ rfl)
  · have hZeros : bytes "\\u000" = [0x5C, 0x75, 0x30, 0x30, 0x30] :=
      (Text.bytes_eq_flatMap _).trans rfl
    have hZero : hexDigit? 0x30 = some 0 := rfl
    rw [Text.bytes_append, hZeros, bytes_hex_of_lt hFirst]
    exact scanBytes_unit hZero (hexDigit?_digitChar c.toNat hFirst) (by omega) (by omega)
  · have hZeros : bytes "\\u00" = [0x5C, 0x75, 0x30, 0x30] := (Text.bytes_eq_flatMap _).trans rfl
    have hOne : hexDigit? 0x31 = some 1 := rfl
    rw [Text.bytes_append, hZeros, bytes_hex_of_le (Nat.not_lt.mp hFirst) hSecond]
    exact scanBytes_unit hOne (hexDigit?_digitChar (c.toNat - 16) (by omega)) (by omega) (by omega)
  · rw [Text.bytes_eq_flatMap, Char.toString, String.toList_singleton, List.flatMap_singleton]
    exact scanBytes_plain_append fun b hb =>
      isPlain_of_mem_utf8EncodeChar (Nat.not_lt.mp hSecond) hQuote hBackslash hb

/-! ## Whole strings -/

theorem scanBytes_escaped (cs : List Char) :
    scanBytes true .text done (bytes (String.join (cs.map escapeChar)) ++ rest) =
      scanBytes true .text ((cs.flatMap String.utf8EncodeChar).reverse ++ done) rest := by
  induction cs generalizing done with
  | nil => simp [Text.bytes_eq_flatMap]
  | cons c cs ih =>
    rw [List.map_cons, String.join_cons, Text.bytes_append, List.append_assoc,
      scanBytes_escapeChar, ih, List.flatMap_cons, List.reverse_append, List.append_assoc]

theorem stringAt_stringText (s : String) (rest : List UInt8) :
    StringAt s (bytes (stringText s) ++ rest) rest := by
  have hQuote : bytes "\"" = [0x22] := (Text.bytes_eq_flatMap _).trans rfl
  have hText : bytes (stringText s) ++ rest =
      0x22 :: (bytes (String.join (s.toList.map escapeChar)) ++ 0x22 :: rest) := by
    simp [stringText, hQuote]
  have hScan :
      scanBytes true .text [] (bytes (String.join (s.toList.map escapeChar)) ++ 0x22 :: rest) =
        .ok (bytes s, rest) := by
    have hClose : stringStep true .text 0x22 = .ok .close := rfl
    rw [scanBytes_escaped, List.append_nil, ← Text.bytes_eq_flatMap]
    simp only [scanBytes, hClose, List.reverse_reverse]
  have hString : String.fromUTF8? (bytes s).toByteArray = some s := by
    rw [Text.toByteArray_bytes]
    exact dif_pos s.isValidUTF8
  rw [hText]
  refine ⟨_, ⟨0x22, rfl, rfl⟩, ?_⟩
  rw [scanString, hScan, ok_bind]
  simp only [hString]
  rfl

end Diaporama.Json
