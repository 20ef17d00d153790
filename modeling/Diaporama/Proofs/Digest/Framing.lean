import Mathlib.Data.List.Basic
import Diaporama.Fingerprint
import Diaporama.Proofs.Text.Bytes

/-!
# Frames of arguments

A fingerprint is a hash of framed arguments. A frame can be taken apart from its beginning: the
first word tells how many arguments follow, and the word before an argument tells where it ends. So
a frame gives back its arguments, whatever bytes they hold, and the digits of a fingerprint give
back its words.
-/

namespace Diaporama

namespace Digest

def ofLittleEndian (bytes : List UInt8) : Nat :=
  bytes.foldr (fun b n => b.toNat + 256 * n) 0

theorem length_littleEndian (w : UInt64) : (littleEndian w).length = 8 := by
  simp [littleEndian]

theorem ofLittleEndian_littleEndian (w : UInt64) : ofLittleEndian (littleEndian w) = w.toNat := by
  have hBound := w.toNat_lt
  simp [ofLittleEndian, littleEndian, List.range_succ]
  omega

theorem littleEndian_append_inj {v w : UInt64} {xs ys : List UInt8} :
    littleEndian v ++ xs = littleEndian w ++ ys ↔ v = w ∧ xs = ys := by
  constructor
  · intro h
    have hLength : (littleEndian v).length = (littleEndian w).length := by
      rw [length_littleEndian, length_littleEndian]
    obtain ⟨hWord, hRest⟩ := List.append_inj h hLength
    have hValue := congrArg ofLittleEndian hWord
    rw [ofLittleEndian_littleEndian, ofLittleEndian_littleEndian] at hValue
    exact ⟨UInt64.toNat_inj.mp hValue, hRest⟩
  · rintro ⟨rfl, rfl⟩
    rfl

end Digest

namespace Fingerprint

open Digest

/-! ## Frames -/

/-- The number of arguments and the size of each can be counted in a word. -/
structure Countable (args : List String) : Prop where
  count : args.length < UInt64.size
  sizes : ∀ arg ∈ args, arg.utf8ByteSize < UInt64.size

theorem toUInt64_inj_of_lt {m n : Nat} (hm : m < UInt64.size) (hn : n < UInt64.size) :
    m.toUInt64 = n.toUInt64 ↔ m = n := by
  refine ⟨fun h => ?_, fun h => by rw [h]⟩
  have hToNat := congrArg UInt64.toNat h
  rwa [UInt64.toNat_ofNat_of_lt' hm, UInt64.toNat_ofNat_of_lt' hn] at hToNat

theorem length_toUTF8 (s : String) : s.toUTF8.toList.length = s.utf8ByteSize := by
  rw [toList_bytes_eq, Array.length_toList]
  rfl

theorem toUTF8_toList_inj {s t : String} : s.toUTF8.toList = t.toUTF8.toList ↔ s = t := by
  rw [toList_bytes_eq, toList_bytes_eq, Array.toList_inj, ← ByteArray.ext_iff,
    String.toUTF8_eq_toByteArray, String.toUTF8_eq_toByteArray, String.toByteArray_inj]

theorem frameOne_append_inj {s t : String} (hs : s.utf8ByteSize < UInt64.size)
    (ht : t.utf8ByteSize < UInt64.size) {xs ys : List UInt8} :
    frameOne s ++ xs = frameOne t ++ ys ↔ s = t ∧ xs = ys := by
  constructor
  · intro h
    rw [frameOne, frameOne, List.append_assoc, List.append_assoc, littleEndian_append_inj,
      toUInt64_inj_of_lt hs ht, ← length_toUTF8, ← length_toUTF8] at h
    obtain ⟨hSize, hBytes⟩ := h
    obtain ⟨hText, hRest⟩ := List.append_inj hBytes hSize
    exact ⟨toUTF8_toList_inj.mp hText, hRest⟩
  · rintro ⟨rfl, rfl⟩
    rfl

/-- As many framed arguments as there are on the other side fall apart at the same places. -/
theorem flatMap_frameOne_inj {args args' : List String} (hLength : args.length = args'.length)
    (h : ∀ arg ∈ args, arg.utf8ByteSize < UInt64.size)
    (h' : ∀ arg ∈ args', arg.utf8ByteSize < UInt64.size)
    (hBytes : args.flatMap frameOne = args'.flatMap frameOne) : args = args' := by
  -- Without the count, a list could end where the other one goes on.
  induction args generalizing args' with
  | nil => exact (List.eq_nil_of_length_eq_zero hLength.symm).symm
  | cons arg args ih =>
      cases args' with
      | nil => cases hLength
      | cons arg' args' =>
          obtain ⟨hArg, hArgs⟩ := List.forall_mem_cons.mp h
          obtain ⟨hArg', hArgs'⟩ := List.forall_mem_cons.mp h'
          rw [List.flatMap_cons, List.flatMap_cons, frameOne_append_inj hArg hArg'] at hBytes
          rw [hBytes.1, ih (Nat.succ.inj hLength) hArgs hArgs' hBytes.2]

theorem frame_inj {args args' : List String} (h : Countable args) (h' : Countable args') :
    frame args = frame args' ↔ args = args' := by
  refine ⟨fun hBytes => ?_, fun hArgs => by rw [hArgs]⟩
  rw [frame, frame, littleEndian_append_inj, toUInt64_inj_of_lt h.count h'.count] at hBytes
  exact flatMap_frameOne_inj hBytes.1 h.sizes h'.sizes hBytes.2

/-! ## Digits -/

def hexDigits : List Char :=
  "0123456789abcdef".toList

def hexValue (digits : List Char) : Nat :=
  digits.foldl (fun n c => 16 * n + hexDigits.idxOf c) 0

theorem hexDigit_of_lt : ∀ n < 16, n.digitChar ∈ hexDigits ∧ hexDigits.idxOf n.digitChar = n := by
  decide

theorem hexValue_concat (digits : List Char) (c : Char) :
    hexValue (digits ++ [c]) = 16 * hexValue digits + hexDigits.idxOf c := by
  simp [hexValue]

theorem hexValue_zeros_append (k : Nat) (digits : List Char) :
    hexValue (List.replicate k '0' ++ digits) = hexValue digits := by
  induction k with
  | zero => rfl
  | succ k ih => exact ih

theorem toDigits_hex (n : Nat) :
    hexValue (Nat.toDigits 16 n) = n ∧ Nat.toDigits 16 n ⊆ hexDigits := by
  induction n using Nat.strongRecOn with
  | ind n ih =>
      rw [Nat.toDigits_eq_if (by decide)]
      split
      · rename_i hSmall
        obtain ⟨hMem, hDigit⟩ := hexDigit_of_lt n hSmall
        refine ⟨?_, by simpa using hMem⟩
        simpa [hexValue] using hDigit
      · rename_i hLarge
        obtain ⟨hMem, hDigit⟩ := hexDigit_of_lt (n % 16) (Nat.mod_lt n (by decide))
        obtain ⟨hValue, hSubset⟩ := ih (n / 16) (by omega)
        refine ⟨?_, List.append_subset.mpr ⟨hSubset, by simpa using hMem⟩⟩
        rw [hexValue_concat, hValue, hDigit]
        omega

theorem toList_hexWord (w : UInt64) :
    (hexWord w).toList.length = 16 ∧ (hexWord w).toList ⊆ hexDigits ∧
      hexValue (hexWord w).toList = w.toNat := by
  have hBound : w.toNat < 16 ^ 16 := w.toNat_lt
  have hLength : (Nat.toDigits 16 w.toNat).length ≤ 16 :=
    (Nat.length_toDigits_le_iff (by decide) (by decide)).mpr hBound
  obtain ⟨hValue, hSubset⟩ := toDigits_hex w.toNat
  simp only [hexWord, String.toList_ofList]
  refine ⟨?_, List.append_subset.mpr ⟨fun c hc => ?_, hSubset⟩, ?_⟩
  · rw [List.length_append, List.length_replicate]
    omega
  · rw [(List.mem_replicate.mp hc).2]
    decide
  · rw [hexValue_zeros_append, hValue]

theorem hexWord_toList_inj {v w : UInt64} :
    (hexWord v).toList = (hexWord w).toList ↔ v = w := by
  refine ⟨fun h => ?_, fun h => by rw [h]⟩
  have hValue := congrArg hexValue h
  rw [(toList_hexWord v).2.2, (toList_hexWord w).2.2] at hValue
  exact UInt64.toNat_inj.mp hValue

theorem text_inj {f g : Fingerprint} : f.text = g.text ↔ f.high = g.high ∧ f.low = g.low := by
  constructor
  · intro h
    have hChars := congrArg String.toList h
    rw [text, text, String.toList_append, String.toList_append] at hChars
    have hLength : (hexWord f.high).toList.length = (hexWord g.high).toList.length := by
      rw [(toList_hexWord f.high).1, (toList_hexWord g.high).1]
    obtain ⟨hHigh, hLow⟩ := List.append_inj hChars hLength
    exact ⟨hexWord_toList_inj.mp hHigh, hexWord_toList_inj.mp hLow⟩
  · rintro ⟨hHigh, hLow⟩
    rw [text, text, hHigh, hLow]

theorem toList_text (f : Fingerprint) :
    f.text.toList.length = 32 ∧ f.text.toList ⊆ hexDigits := by
  obtain ⟨hHigh, hHighDigits, -⟩ := toList_hexWord f.high
  obtain ⟨hLow, hLowDigits, -⟩ := toList_hexWord f.low
  rw [text, String.toList_append, List.length_append, hHigh, hLow]
  exact ⟨rfl, List.append_subset.mpr ⟨hHighDigits, hLowDigits⟩⟩

/-- The bytes under a fingerprint are the frame of the arguments: their number, and each behind its
size. They tell the arguments, so jobs with other arguments hash other bytes; the fingerprint is
their seeded hash and depends on nothing else, and its 32 digits tell its two words. -/
theorem frame_identifies_args :
    (∀ args args' : List String, Countable args → Countable args' →
      (frame args = frame args' ↔ args = args')) ∧
    (∀ args, frame args = littleEndian args.length.toUInt64 ++
      args.flatMap fun arg => littleEndian arg.utf8ByteSize.toUInt64 ++ arg.toUTF8.toList) ∧
    (∀ w, (littleEndian w).length = 8 ∧ ofLittleEndian (littleEndian w) = w.toNat) ∧
    (∀ j k : Job Float,
      (let w := Digest.Xxh3.hash seed (frame j.args).toByteArray
       j.fingerprint.high = w.high ∧ j.fingerprint.low = w.low) ∧
      (j.args = k.args → j.fingerprint = k.fingerprint) ∧
      (frame j.args = frame k.args → j.fingerprint = k.fingerprint) ∧
      (Countable j.args → Countable k.args → j.args ≠ k.args →
        (frame j.args).toByteArray ≠ (frame k.args).toByteArray)) ∧
    ∀ f g : Fingerprint,
      (f.text.toList.length = 32 ∧ f.text.toList ⊆ hexDigits) ∧
      (f.text = g.text ↔ f.high = g.high ∧ f.low = g.low) := by
  refine ⟨fun args args' => frame_inj, fun args => rfl,
    fun w => ⟨length_littleEndian w, ofLittleEndian_littleEndian w⟩,
    fun j k => ⟨⟨rfl, rfl⟩, fun hArgs => ?_, fun hBytes => ?_, ?_⟩,
    fun f g => ⟨f.toList_text, text_inj⟩⟩
  · rw [Job.fingerprint, Job.fingerprint, hArgs]
  · rw [Job.fingerprint, Job.fingerprint, ofArgs, ofArgs, hBytes]
  · intro hj hk hArgs hBytes
    exact hArgs ((frame_inj hj hk).mp (Text.toByteArray_inj.mp hBytes))

/-- The second argument begins with the bytes of a size. -/
theorem frame_identifies_args_shifted :
    let args := ["ab", "\u0001\u0000\u0000\u0000\u0000\u0000\u0000\u0000c"]
    let args' := ["ab\u0009", "\u0000\u0000\u0000\u0000\u0000\u0000\u0000c"]
    Countable args ∧ Countable args' ∧ frame args ≠ frame args' ∧
      (⟨0x1, 0x10⟩ : Fingerprint).text ≠ (⟨0x11, 0x0⟩ : Fingerprint).text := by
  intro args args'
  have hCountable : Countable args := ⟨by decide, by decide⟩
  have hCountable' : Countable args' := ⟨by decide, by decide⟩
  obtain ⟨hFrames, -, -, -, hTexts⟩ := frame_identifies_args
  refine ⟨hCountable, hCountable', fun hBytes => ?_, fun hText => ?_⟩
  · have hArgs := (hFrames args args' hCountable hCountable').mp hBytes
    revert hArgs
    decide
  · have hWords := (hTexts ⟨0x1, 0x10⟩ ⟨0x11, 0x0⟩).2.mp hText
    revert hWords
    decide

end Fingerprint

end Diaporama
