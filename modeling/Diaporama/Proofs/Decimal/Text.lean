import Diaporama.Proofs.Text.Characters
import Diaporama.Seconds

/-!
# The characters of a written double

Whatever the layout, a double is written with letters, digits, points and signs only. So no time
holds a character that parts the fields of a longer text.
-/

namespace Diaporama.Layout

open Text (Within)

def isNumeric (c : Char) : Bool :=
  c.isAlphanum || c == '.' || c == '-' || c == '+'

theorem numeric_nat (n : Nat) : Within isNumeric (toString n) := by
  intro c hc
  have hDigit : c.isDigit = true :=
    Nat.isDigit_of_mem_toDigits (by decide) (by decide) (Nat.toList_repr ▸ hc)
  simp [isNumeric, Char.isAlphanum, hDigit]

theorem numeric_int (i : Int) : Within isNumeric (toString i) := by
  cases i with
  | ofNat n => exact numeric_nat n
  | negSucc n =>
      have hMinus : Within isNumeric "-" := by decide
      exact hMinus.append (numeric_nat (n + 1))

theorem numeric_zeros (n : Nat) : Within isNumeric (zeros n) := by
  intro c hc
  rw [zeros, String.toList_ofList, List.mem_replicate] at hc
  rw [hc.2]
  decide

variable (l : Layout)

theorem numeric_positionalText (d : Decimal) : Within isNumeric (l.positionalText d) := by
  have hDigits : ∀ {cs}, cs ⊆ (toString d.digits).toList → Within isNumeric (String.ofList cs) :=
    fun hSub => (numeric_nat d.digits).of_subset hSub
  have hPoint : Within isNumeric "." := by decide
  have hWhole : Within isNumeric ".0" := by decide
  have hFraction : Within isNumeric "0." := by decide
  unfold positionalText
  dsimp only
  split
  · refine ((hDigits (List.Subset.refl _)).append (numeric_zeros _)).append ?_
    split
    · exact hWhole
    · decide
  · split
    · exact ((hDigits (List.take_subset _ _)).append hPoint).append (hDigits (List.drop_subset _ _))
    · exact (hFraction.append (numeric_zeros _)).append (hDigits (List.Subset.refl _))

theorem numeric_exponentText (d : Decimal) (lead : Int) :
    Within isNumeric (l.exponentText d lead) := by
  have hDigits : ∀ {cs}, cs ⊆ (toString d.digits).toList → Within isNumeric (String.ofList cs) :=
    fun hSub => (numeric_nat d.digits).of_subset hSub
  have hPoint : Within isNumeric "." := by decide
  have hMark : Within isNumeric "e" := by decide
  have hPlus : Within isNumeric "+" := by decide
  unfold exponentText
  dsimp only
  refine ((((hDigits (List.take_subset _ _)).append ?_).append hMark).append ?_).append
    (numeric_int lead)
  · split
    · decide
    · exact hPoint.append (hDigits (List.drop_subset _ _))
  · split
    · exact hPlus
    · decide

theorem numeric_magnitude (significand : Nat) (exponent : Int) :
    Within isNumeric (l.magnitude significand exponent) := by
  unfold magnitude
  dsimp only
  split
  · exact l.numeric_positionalText _
  split
  · exact l.numeric_positionalText _
  · exact l.numeric_exponentText _ _

theorem numeric_text (x : Float) : Within isNumeric (l.text x) := by
  have hSigned : ∀ {negative : Bool} {s : String}, Within isNumeric s →
      Within isNumeric (if negative then "-" ++ s else s) := by
    intro negative s hs
    have hMinus : Within isNumeric "-" := by decide
    split
    · exact hMinus.append hs
    · exact hs
  unfold text
  dsimp only
  split
  · decide
  · exact hSigned (by decide)
  · exact hSigned (l.numeric_magnitude _ _)

end Layout

/-- The text of a time in encoder arguments has no character that parts fields. -/
theorem Seconds.numeric_text (x : Float) : Text.Within Layout.isNumeric (Seconds.text x) :=
  Layout.plain.numeric_text _

end Diaporama
