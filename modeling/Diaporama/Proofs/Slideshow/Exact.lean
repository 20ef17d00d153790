import Mathlib.Algebra.Order.Field.Rat
import Mathlib.Tactic.Linarith
import Mathlib.Tactic.Positivity
import Mathlib.Tactic.Ring
import Diaporama.Proofs.Slideshow.Chain

/-!
# Exact times

Over the rational numbers the times of a slideshow fit together without rounding: the start of a
blend, the length of the stream so far and the length of the video all come from the same sums.
-/

namespace Diaporama

instance Seconds.instRat : Seconds ℚ where
  zero := 0
  one := 1
  add := (· + ·)
  mul := (· * ·)
  ofCount n := n
  isPositive x := decide (0 < x)

@[simp] theorem Seconds.zero_rat : (Seconds.zero : ℚ) = 0 := rfl

namespace Timeline

variable (t : Timeline ℚ)

theorem zero_lt_photo : 0 < t.photo := of_decide_eq_true t.photo_pos

theorem window_eq : t.window = t.photo + t.blend := rfl

theorem offset_eq (i : Nat) : t.offset i = t.photo * (i + 1) := rfl

theorem displayed_eq (n : Nat) : t.displayed n = t.photo * n := rfl

theorem total_succ (n : Nat) : t.total (n + 1) = t.photo * (n + 1) + t.blend := by
  have hTotal : t.total (n + 1) = t.displayed (n + 1) + t.blend := if_neg (Nat.succ_ne_zero n)
  rw [hTotal, t.displayed_eq, Nat.cast_succ]

end Timeline

namespace Strategy

/-- Whether each blend starts one picture after the one before. -/
def Accumulates (s : Strategy) : Prop :=
  s ≠ fade .constant

/-- By how many pictures `i` blends take the stream beyond the first picture. -/
def growth (i : Nat) : Strategy → Nat
  | fade .constant => min i 1
  | fade .accumulate | blend _ _ => i

variable (s : Strategy) (t : Timeline ℚ) (i : Nat)

theorem growth_zero : s.growth 0 = 0 := by
  unfold growth
  split <;> rfl

theorem growth_succ_le : s.growth (i + 1) ≤ s.growth i + 1 := by
  unfold growth
  split <;> omega

theorem accumulates_ofKind_iff (kind : TransitionKind) (offsets : FadeOffsets) :
    (ofKind kind offsets).Accumulates ↔ kind ≠ .fade ∨ offsets = .accumulate := by
  cases kind <;> cases offsets <;> simp [ofKind, Accumulates]

variable {s} in
theorem Accumulates.growth_eq (h : s.Accumulates) : s.growth i = i := by
  unfold growth
  split
  · exact absurd rfl h
  · rfl
  · rfl

theorem duration_succ : s.duration t (i + 1) = t.photo * (s.growth i + 1) + t.blend := by
  unfold duration growth
  split
  · rw [show min (i + 1) 2 = min i 1 + 1 by omega, t.total_succ]
  · exact t.total_succ i
  · exact t.total_succ i

theorem duration_one : s.duration t 1 = t.window := by
  rw [duration_succ, growth_zero, t.window_eq, Nat.cast_zero, zero_add, mul_one]

theorem start_eq : s.start t i = t.photo * s.growth (i + 1) := by
  have hOffset : t.offset i = t.photo * (i + 1 : Nat) := by rw [t.offset_eq, Nat.cast_succ]
  cases s with
  | blend => exact hOffset
  | fade offsets =>
      cases offsets with
      | accumulate => exact hOffset
      | constant => simp [start, fadeOffset, growth]

/-- A picture that enters with a blend ends where the stream ends that it makes longer. -/
theorem start_add_window : s.start t i + t.window = s.duration t (i + 2) := by
  rw [start_eq, t.window_eq, duration_succ]
  ring

/-- A blend is over before the stream is that it blends from. -/
theorem start_add_blend_le : s.start t i + t.blend ≤ s.duration t (i + 1) := by
  have hGrowth : (s.growth (i + 1) : ℚ) ≤ s.growth i + 1 := by exact_mod_cast s.growth_succ_le i
  rw [start_eq, duration_succ]
  exact add_le_add_left (mul_le_mul_of_nonneg_left hGrowth t.zero_lt_photo.le) _

variable {s} in
theorem Accumulates.start_eq_mul (h : s.Accumulates) : s.start t i = t.photo * (i + 1 : Nat) := by
  rw [Strategy.start_eq, h.growth_eq]

variable {s} in
theorem Accumulates.start_add_blend (h : s.Accumulates) :
    s.start t i + t.blend = s.duration t (i + 1) := by
  rw [start_eq, duration_succ, h.growth_eq, h.growth_eq, Nat.cast_succ]

/-- The final fade lies in the stream, and where blends accumulate it ends the stream. -/
theorem eq_toBlack_of_mem_exits {n : Nat} {f : Filter ℚ} (h : f ∈ s.exits t n) :
    ∃ start, f = .fade .toBlack start t.blend ∧ 0 ≤ start ∧ start + t.blend ≤ s.duration t n ∧
      (s.Accumulates → start + t.blend = s.duration t n) := by
  obtain ⟨offsets, rfl, hn, rfl⟩ := s.exists_of_mem_exits t n h
  obtain ⟨i, rfl⟩ := Nat.exists_eq_add_of_le' hn
  refine ⟨_, rfl, ?_⟩
  have hPhoto := t.zero_lt_photo
  rw [duration_succ]
  cases offsets with
  | accumulate =>
      have hStart : exitStart t (i + 2) .accumulate = t.photo * ((i + 1 : Nat) + 1) := by
        rw [exitStart, t.displayed_eq, Nat.cast_succ]
      rw [hStart]
      exact ⟨by positivity, le_rfl, fun _ => rfl⟩
  | constant =>
      have hGrowth : (fade .constant).growth (i + 1) = 1 := by simp [growth]
      have hStart : exitStart t (i + 2) .constant = t.photo := rfl
      rw [hStart, hGrowth]
      refine ⟨hPhoto.le, ?_, fun hAccumulates => absurd rfl hAccumulates⟩
      push_cast
      linarith

end Strategy

end Diaporama
