import Diaporama.Json.Lexeme
import Diaporama.Json.Value
import Diaporama.Proofs.Computation
import Mathlib.Data.List.DropRight

/-!
# JSON texts

What it means that a text of a value stands at the front of some bytes: brackets, commas and colons
stand where the value has them, with any space between, and every string and number is written in
some way that delivers it. A text is longer than the number of values in it.
-/

namespace Diaporama.Json

/-- The mark `c` stands at the front, perhaps behind space, and `rest` follows it. -/
def MarkAt (c : Char) (bs rest : List UInt8) : Prop :=
  ∃ b, dropSpace bs = b :: rest ∧ Char.ofUInt8 b = c

def WordAt (c : Char) (cs : List Char) (bs rest : List UInt8) : Prop :=
  ∃ inner, MarkAt c bs inner ∧ scanWord cs inner = .ok rest

def StringAt (s : String) (bs rest : List UInt8) : Prop :=
  ∃ inner, MarkAt '"' bs inner ∧ scanString inner = .ok (s, rest)

/-- A number, perhaps behind a minus sign, that delivers `n`. -/
def NumberAt (n : Number) (bs rest : List UInt8) : Prop :=
  ∃ d : Digits, (scanNumber false (dropSpace bs) = .ok (d, rest) ∨
      ∃ inner, MarkAt '-' bs inner ∧ scanNumber true inner = .ok (d, rest)) ∧
    d.toNumber = .ok n

def DigitsAt (d : Digits) (bs rest : List UInt8) : Prop :=
  scanNumber false (dropSpace bs) = .ok (d, rest) ∨
    ∃ inner, MarkAt '-' bs inner ∧ scanNumber true inner = .ok (d, rest)

theorem numberAt_iff {n : Number} {bs rest : List UInt8} :
    NumberAt n bs rest ↔ ∃ d, DigitsAt d bs rest ∧ d.toNumber = .ok n :=
  Iff.rfl

def Number.toFloat : Number → Float
  | natural n => n.toUInt64.toFloat
  | negative n => -(n + 1).toUInt64.toFloat
  | real x => x

/-- Nothing before the first part of a list or an object, a comma before every other one. -/
def SeparatedAt (first : Bool) (bs rest : List UInt8) : Prop :=
  if first then rest = bs else MarkAt ',' bs rest

namespace Value

mutual

/-- A text of the value stands at the front, perhaps behind space, and `rest` follows it. -/
def At : Value → List UInt8 → List UInt8 → Prop
  | null, bs, rest => WordAt 'n' ['u', 'l', 'l'] bs rest
  | boolean true, bs, rest => WordAt 't' ['r', 'u', 'e'] bs rest
  | boolean false, bs, rest => WordAt 'f' ['a', 'l', 's', 'e'] bs rest
  | natural n, bs, rest => NumberAt (.natural n) bs rest
  | real x, bs, rest => ∃ n, n.toFloat = x ∧ NumberAt n bs rest
  | string s, bs, rest => StringAt s bs rest
  | list items, bs, rest => ∃ inner, MarkAt '[' bs inner ∧ ItemsAt true items inner rest
  | object members, bs, rest => ∃ inner, MarkAt '\x7b' bs inner ∧ MembersAt true members inner rest

def ItemsAt (first : Bool) : List Value → List UInt8 → List UInt8 → Prop
  | [], bs, rest => MarkAt ']' bs rest
  | item :: items, bs, rest =>
    ∃ start next, SeparatedAt first bs start ∧ item.At start next ∧ ItemsAt false items next rest

def MembersAt (first : Bool) : List (String × Value) → List UInt8 → List UInt8 → Prop
  | [], bs, rest => MarkAt '\x7d' bs rest
  | (name, value) :: members, bs, rest =>
    ∃ start named valued next, SeparatedAt first bs start ∧ StringAt name start named ∧
      MarkAt ':' named valued ∧ value.At valued next ∧ MembersAt false members next rest

end

/-- The whole text is a text of the value, with space around it. -/
def IsText (v : Value) (text : ByteArray) : Prop :=
  ∃ rest, v.At text.toList rest ∧ dropSpace rest = []

end Value

/-! ## Space before a text -/

theorem dropSpace_dropSpace (bs : List UInt8) : dropSpace (dropSpace bs) = dropSpace bs :=
  List.dropWhile_idempotent isSpace bs

theorem MarkAt.behindSpace {c : Char} {bs rest : List UInt8} (h : MarkAt c bs rest) :
    MarkAt c (dropSpace bs) rest := by
  obtain ⟨b, hDrop, hChar⟩ := h
  exact ⟨b, (dropSpace_dropSpace bs).trans hDrop, hChar⟩

theorem StringAt.behindSpace {s : String} {bs rest : List UInt8} (h : StringAt s bs rest) :
    StringAt s (dropSpace bs) rest := by
  obtain ⟨inner, hMark, hString⟩ := h
  exact ⟨inner, hMark.behindSpace, hString⟩

theorem NumberAt.behindSpace {n : Number} {bs rest : List UInt8} (h : NumberAt n bs rest) :
    NumberAt n (dropSpace bs) rest := by
  obtain ⟨d, hNumber | ⟨inner, hMark, hNumber⟩, hValue⟩ := h
  · exact ⟨d, .inl ((dropSpace_dropSpace bs).symm ▸ hNumber), hValue⟩
  · exact ⟨d, .inr ⟨inner, hMark.behindSpace, hNumber⟩, hValue⟩

theorem Value.At.behindSpace {v : Value} {bs rest : List UInt8} (h : v.At bs rest) :
    v.At (dropSpace bs) rest := by
  match v, h with
  | null, ⟨inner, hMark, hWord⟩ => exact ⟨inner, hMark.behindSpace, hWord⟩
  | boolean true, ⟨inner, hMark, hWord⟩ => exact ⟨inner, hMark.behindSpace, hWord⟩
  | boolean false, ⟨inner, hMark, hWord⟩ => exact ⟨inner, hMark.behindSpace, hWord⟩
  | natural _, hNumber => exact NumberAt.behindSpace hNumber
  | real _, ⟨n, hFloat, hNumber⟩ => exact ⟨n, hFloat, hNumber.behindSpace⟩
  | string _, hString => exact StringAt.behindSpace hString
  | list _, ⟨inner, hMark, hItems⟩ => exact ⟨inner, hMark.behindSpace, hItems⟩
  | object _, ⟨inner, hMark, hMembers⟩ => exact ⟨inner, hMark.behindSpace, hMembers⟩

/-! ## What follows a text is shorter -/

theorem length_dropSpace_le (bs : List UInt8) : (dropSpace bs).length ≤ bs.length :=
  (List.dropWhile_suffix isSpace).length_le

theorem MarkAt.length_lt {c : Char} {bs rest : List UInt8} (h : MarkAt c bs rest) :
    rest.length < bs.length := by
  obtain ⟨b, hDrop, -⟩ := h
  have hLength := length_dropSpace_le bs
  rw [hDrop, List.length_cons] at hLength
  exact hLength

theorem SeparatedAt.length_le {first : Bool} {bs rest : List UInt8}
    (h : SeparatedAt first bs rest) : rest.length ≤ bs.length := by
  unfold SeparatedAt at h
  split at h
  · exact Nat.le_of_eq (congrArg List.length h)
  · exact Nat.le_of_lt h.length_lt

theorem length_of_scanWord {cs : List Char} {bs rest : List UInt8} (h : scanWord cs bs = .ok rest) :
    rest.length ≤ bs.length := by
  fun_induction scanWord cs bs with
  | case1 => cases h; exact Nat.le_refl _
  | case2 => cases h
  | case3 c cs bs ih => exact Nat.le_succ_of_le (ih h)
  | case4 => cases h

theorem length_of_scanBytes {keeps : Bool} {state : StringState} {done bs bytes rest : List UInt8}
    (h : scanBytes keeps state done bs = .ok (bytes, rest)) : rest.length ≤ bs.length := by
  fun_induction scanBytes keeps state done bs with
  | case1 => cases h
  | case2 => cases h
  | case3 => cases h; exact Nat.le_succ _
  | case4 state done b bs bytes next hStep ih => exact Nat.le_succ_of_le (ih h)

theorem length_of_scanString {s : String} {bs rest : List UInt8}
    (h : scanString bs = .ok (s, rest)) : rest.length ≤ bs.length := by
  obtain ⟨⟨bytes, left⟩, hBytes, hText⟩ := bind_eq_ok_iff.mp h
  simp only at hText
  split at hText <;> cases hText
  exact length_of_scanBytes hBytes

theorem length_spanDigits (bs : List UInt8) :
    (spanDigits bs).1.length + (spanDigits bs).2.length = bs.length := by
  fun_induction spanDigits bs with
  | case1 => rfl
  | case2 b bs d hDigit ds rest hSpan ih =>
    rw [hSpan] at ih
    simp only [List.length_cons] at ih ⊢
    omega
  | case3 => exact Nat.zero_add _

theorem scanDigits_eq_ok {bs : List UInt8} {ds : List Nat} {rest : List UInt8}
    (h : scanDigits bs = .ok (ds, rest)) : ds ≠ [] ∧ spanDigits bs = (ds, rest) := by
  unfold scanDigits at h
  split at h
  · cases h
  · cases h
  · next hNone hSpan =>
    cases h
    exact ⟨hNone, hSpan⟩

theorem length_of_scanDigits {ds : List Nat} {bs rest : List UInt8}
    (h : scanDigits bs = .ok (ds, rest)) : rest.length < bs.length := by
  obtain ⟨hSome, hSpan⟩ := scanDigits_eq_ok h
  have hLength := length_spanDigits bs
  have hPositive := List.length_pos_iff.mpr hSome
  rw [hSpan] at hLength
  simp only at hLength
  omega

theorem scanWhole_eq_ok {ds : List Nat} {bs rest : List UInt8}
    (h : scanWhole bs = .ok (ds, rest)) : scanDigits bs = .ok (ds, rest) := by
  obtain ⟨found, hFound, hWhole⟩ := bind_eq_ok_iff.mp h
  split at hWhole <;> cases hWhole
  exact hFound

theorem length_of_scanFraction {ds : Option (List Nat)} {bs rest : List UInt8}
    (h : scanFraction bs = .ok (ds, rest)) : rest.length ≤ bs.length := by
  unfold scanFraction at h
  split at h
  · obtain ⟨⟨digits, left⟩, hDigits, hFraction⟩ := map_eq_ok_iff.mp h
    cases hFraction
    exact Nat.le_succ_of_le (Nat.le_of_lt (length_of_scanDigits hDigits))
  · cases h; exact Nat.le_refl _

theorem length_exponentSign_le (bs : List UInt8) : (exponentSign bs).2.length ≤ bs.length := by
  unfold exponentSign
  split <;> simp

theorem length_of_scanExponent {e : Option (Bool × List Nat)} {bs rest : List UInt8}
    (h : scanExponent bs = .ok (e, rest)) : rest.length ≤ bs.length := by
  unfold scanExponent at h
  split at h
  · next b tail =>
    split at h
    · obtain ⟨⟨digits, left⟩, hDigits, hExponent⟩ := map_eq_ok_iff.mp h
      cases hExponent
      calc rest.length
          _ ≤ (exponentSign tail).2.length := Nat.le_of_lt (length_of_scanDigits hDigits)
          _ ≤ tail.length := length_exponentSign_le tail
          _ ≤ (b :: tail).length := Nat.le_succ _
    · cases h; exact Nat.le_refl _
  · cases h; exact Nat.le_refl _

theorem length_of_scanNumber {negative : Bool} {d : Digits} {bs rest : List UInt8}
    (h : scanNumber negative bs = .ok (d, rest)) : rest.length < bs.length := by
  obtain ⟨⟨whole, afterWhole⟩, hWhole, h⟩ := bind_eq_ok_iff.mp h
  obtain ⟨⟨fraction, afterFraction⟩, hFraction, h⟩ := bind_eq_ok_iff.mp h
  obtain ⟨⟨exponent, afterExponent⟩, hExponent, h⟩ := bind_eq_ok_iff.mp h
  cases h
  calc rest.length
      _ ≤ afterFraction.length := length_of_scanExponent hExponent
      _ ≤ afterWhole.length := length_of_scanFraction hFraction
      _ < bs.length := length_of_scanDigits (scanWhole_eq_ok hWhole)

theorem WordAt.length_lt {c : Char} {cs : List Char} {bs rest : List UInt8}
    (h : WordAt c cs bs rest) : rest.length < bs.length := by
  obtain ⟨inner, hMark, hWord⟩ := h
  exact Nat.lt_of_le_of_lt (length_of_scanWord hWord) hMark.length_lt

theorem StringAt.length_lt {s : String} {bs rest : List UInt8} (h : StringAt s bs rest) :
    rest.length < bs.length := by
  obtain ⟨inner, hMark, hString⟩ := h
  exact Nat.lt_of_le_of_lt (length_of_scanString hString) hMark.length_lt

theorem DigitsAt.length_lt {d : Digits} {bs rest : List UInt8} (h : DigitsAt d bs rest) :
    rest.length < bs.length := by
  obtain hNumber | ⟨inner, hMark, hNumber⟩ := h
  · exact Nat.lt_of_lt_of_le (length_of_scanNumber hNumber) (length_dropSpace_le bs)
  · exact Nat.lt_trans (length_of_scanNumber hNumber) hMark.length_lt

theorem NumberAt.length_lt {n : Number} {bs rest : List UInt8} (h : NumberAt n bs rest) :
    rest.length < bs.length := by
  obtain ⟨d, hDigits, -⟩ := numberAt_iff.mp h
  exact hDigits.length_lt

namespace Value

mutual

theorem At.length_lt : {v : Value} → {bs rest : List UInt8} → v.At bs rest →
    rest.length < bs.length
  | .null, _, _, h => WordAt.length_lt h
  | .boolean true, _, _, h => WordAt.length_lt h
  | .boolean false, _, _, h => WordAt.length_lt h
  | .natural _, _, _, h => NumberAt.length_lt h
  | .real _, _, _, ⟨_, _, h⟩ => h.length_lt
  | .string _, _, _, h => StringAt.length_lt h
  | .list _, _, _, ⟨_, hMark, hItems⟩ => by
    have hMark := hMark.length_lt
    have hItems := ItemsAt.length_lt hItems
    omega
  | .object _, _, _, ⟨_, hMark, hMembers⟩ => by
    have hMark := hMark.length_lt
    have hMembers := MembersAt.length_lt hMembers
    omega

theorem ItemsAt.length_lt : {items : List Value} → {first : Bool} → {bs rest : List UInt8} →
    ItemsAt first items bs rest → items.length + rest.length < bs.length
  | [], _, _, _, h => by simpa using MarkAt.length_lt h
  | _ :: _, _, _, _, ⟨_, _, hSeparated, hItem, hItems⟩ => by
    have hStart := hSeparated.length_le
    have hNext := At.length_lt hItem
    have hRest := ItemsAt.length_lt hItems
    rw [List.length_cons]
    omega

theorem MembersAt.length_lt : {members : List (String × Value)} → {first : Bool} →
    {bs rest : List UInt8} → MembersAt first members bs rest →
    members.length + rest.length < bs.length
  | [], _, _, _, h => by simpa using MarkAt.length_lt h
  | (_, _) :: _, _, _, _, ⟨_, _, _, _, hSeparated, hName, hColon, hValue, hMembers⟩ => by
    have hStart := hSeparated.length_le
    have hNamed := hName.length_lt
    have hValued := hColon.length_lt
    have hNext := At.length_lt hValue
    have hRest := MembersAt.length_lt hMembers
    rw [List.length_cons]
    omega

end

end Value

/-! ## The first character of a text -/

theorem isDigit_of_digit? {b : UInt8} {d : Nat} (h : digit? b = some d) :
    (Char.ofUInt8 b).isDigit = true := by
  unfold digit? at h
  split at h
  · next hRange =>
    rw [Bool.and_eq_true, decide_eq_true_eq, decide_eq_true_eq] at hRange
    exact Char.isDigit_iff_toNat.mpr hRange
  · cases h

theorem digit?_of_scanDigits {ds : List Nat} {bs rest : List UInt8}
    (h : scanDigits bs = .ok (ds, rest)) : ∃ b tail d, bs = b :: tail ∧ digit? b = some d := by
  obtain ⟨hSome, hSpan⟩ := scanDigits_eq_ok h
  unfold spanDigits at hSpan
  split at hSpan
  · cases hSpan; contradiction
  · next b tail =>
    split at hSpan
    · next d hDigit => exact ⟨b, tail, d, rfl, hDigit⟩
    · cases hSpan; contradiction

theorem isDigit_of_scanNumber {negative : Bool} {d : Digits} {bs rest : List UInt8}
    (h : scanNumber negative bs = .ok (d, rest)) :
    ∃ b tail, bs = b :: tail ∧ (Char.ofUInt8 b).isDigit = true := by
  obtain ⟨⟨whole, left⟩, hWhole, -⟩ := bind_eq_ok_iff.mp h
  obtain ⟨b, tail, digit, hFirst, hDigit⟩ := digit?_of_scanDigits (scanWhole_eq_ok hWhole)
  exact ⟨b, tail, hFirst, isDigit_of_digit? hDigit⟩

theorem DigitsAt.opens {d : Digits} {bs rest : List UInt8} (h : DigitsAt d bs rest) :
    ∃ b tail, dropSpace bs = b :: tail ∧
      (Char.ofUInt8 b = '-' ∨ (Char.ofUInt8 b).isDigit = true) := by
  obtain hNumber | ⟨inner, ⟨b, hDrop, hChar⟩, -⟩ := h
  · obtain ⟨b, tail, hDrop, hDigit⟩ := isDigit_of_scanNumber hNumber
    exact ⟨b, tail, hDrop, .inr hDigit⟩
  · exact ⟨b, inner, hDrop, .inl hChar⟩

theorem NumberAt.opens {n : Number} {bs rest : List UInt8} (h : NumberAt n bs rest) :
    ∃ b tail, dropSpace bs = b :: tail ∧
      (Char.ofUInt8 b = '-' ∨ (Char.ofUInt8 b).isDigit = true) := by
  obtain ⟨d, hDigits, -⟩ := numberAt_iff.mp h
  exact hDigits.opens

namespace Value

def Opens : Value → Char → Prop
  | null, c => c = 'n'
  | boolean true, c => c = 't'
  | boolean false, c => c = 'f'
  | natural _, c => c = '-' ∨ c.isDigit = true
  | real _, c => c = '-' ∨ c.isDigit = true
  | string _, c => c = '"'
  | list _, c => c = '['
  | object _, c => c = '\x7b'

theorem At.opens {v : Value} {bs rest : List UInt8} (h : v.At bs rest) :
    ∃ b tail, dropSpace bs = b :: tail ∧ v.Opens (Char.ofUInt8 b) := by
  have mark {c : Char} {inner : List UInt8} (hMark : MarkAt c bs inner) :
      ∃ b tail, dropSpace bs = b :: tail ∧ Char.ofUInt8 b = c := by
    obtain ⟨b, hDrop, hChar⟩ := hMark
    exact ⟨b, inner, hDrop, hChar⟩
  match v, h with
  | null, ⟨_, hMark, _⟩ => exact mark hMark
  | boolean true, ⟨_, hMark, _⟩ => exact mark hMark
  | boolean false, ⟨_, hMark, _⟩ => exact mark hMark
  | natural _, hNumber => exact NumberAt.opens hNumber
  | real _, ⟨_, _, hNumber⟩ => exact hNumber.opens
  | string _, ⟨_, hMark, _⟩ => exact mark hMark
  | list _, ⟨_, hMark, _⟩ => exact mark hMark
  | object _, ⟨_, hMark, _⟩ => exact mark hMark

end Value

end Diaporama.Json
