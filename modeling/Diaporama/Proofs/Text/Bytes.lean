import Mathlib.Data.List.Basic

/-!
# The bytes of a text

A text is written as the UTF-8 bytes of its characters, one after the other. A character of seven
bits is one byte, and every byte of any other character has its highest bit set.
-/

namespace Diaporama

theorem toList_bytes_eq (b : ByteArray) : b.toList = b.data.toList := by
  have hLoop : ∀ i read,
      ByteArray.toList.loop b i read = read.reverse ++ b.data.toList.drop i := by
    intro i read
    fun_induction ByteArray.toList.loop b i read with
    | case1 i read hi ih =>
        have hGet : b.get! i = b.data.toList[i] := by
          simp [ByteArray.get!, getElem!_pos, hi]
        rw [ih, hGet, List.reverse_cons, List.append_assoc, List.singleton_append,
          List.getElem_cons_drop]
    | case2 i read hi =>
        have hDone : b.data.toList.drop i = [] := List.drop_eq_nil_iff.mpr (Nat.not_lt.mp hi)
        rw [hDone, List.append_nil]
  exact hLoop 0 []

namespace Text

def bytes (s : String) : List UInt8 :=
  s.toUTF8.toList

theorem bytes_eq_flatMap (s : String) : bytes s = s.toList.flatMap String.utf8EncodeChar := by
  rw [bytes, toList_bytes_eq, String.toUTF8_eq_toByteArray, ← String.utf8Encode_toList,
    List.utf8Encode, List.toList_data_toByteArray]

theorem bytes_ofList (cs : List Char) :
    bytes (String.ofList cs) = cs.flatMap String.utf8EncodeChar := by
  rw [bytes_eq_flatMap, String.toList_ofList]

@[simp] theorem bytes_append (s t : String) : bytes (s ++ t) = bytes s ++ bytes t := by
  simp only [bytes_eq_flatMap, String.toList_append, List.flatMap_append]

theorem toByteArray_bytes (s : String) : (bytes s).toByteArray = s.toUTF8 := by
  rw [bytes_eq_flatMap, String.toUTF8_eq_toByteArray, ← String.utf8Encode_toList, List.utf8Encode]

theorem toByteArray_inj {bs cs : List UInt8} : bs.toByteArray = cs.toByteArray ↔ bs = cs := by
  rw [ByteArray.ext_iff, ← Array.toList_inj, List.toList_data_toByteArray,
    List.toList_data_toByteArray]

/-! ## Characters as bytes -/

theorem toNat_ofUInt8 (b : UInt8) : (Char.ofUInt8 b).toNat = b.toNat :=
  UInt8.toNat_toUInt32 b

theorem ofUInt8_inj {a b : UInt8} : Char.ofUInt8 a = Char.ofUInt8 b ↔ a = b := by
  rw [← Char.toNat_inj, toNat_ofUInt8, toNat_ofUInt8, UInt8.toNat_inj]

theorem utf8EncodeChar_of_lt {c : Char} (h : c.toNat < 128) :
    String.utf8EncodeChar c = [UInt8.ofNat c.toNat] := by
  fun_cases String.utf8EncodeChar
  · rfl
  all_goals
    have hLarge : ¬ c.toNat ≤ 0x7f := ‹_›
    omega

theorem high_of_mem_utf8EncodeChar {c : Char} (h : 128 ≤ c.toNat) {b : UInt8}
    (hb : b ∈ String.utf8EncodeChar c) : 128 ≤ b.toNat := by
  have hHigh (n : Nat) {m k : Nat} (hm : 0 < m) (hk : 128 ≤ k) (hSum : m + k ≤ 256) :
      128 ≤ (UInt8.ofNat (n % m + k)).toNat := by
    have hMod := Nat.mod_lt n hm
    rw [UInt8.toNat_ofNat']
    omega
  revert hb
  fun_cases String.utf8EncodeChar
  · have hSmall : c.toNat ≤ 0x7f := ‹_›
    omega
  all_goals
    simp only [List.mem_cons, List.not_mem_nil, or_false]
    rintro (rfl | rfl | rfl | rfl) <;> exact hHigh _ (by decide) (by decide) (by decide)

end Text

end Diaporama
